import ImageTools.Merge
import ImageTools.Shell.Program
import ImageTools.Tool.Concatenate
import ImageTools.Tool.Interpreter
import ImageTools.Tool.Programs

/-!
# Starting programs

A program is named by a path, or found by its name in the directories of the
search path. Scripts start the program of their first line, and at the
bottom are the programs that are known by themselves. A file that is neither
cannot be started.
-/

set_option autoImplicit false

namespace ImageTools.Tool

def executable (fs : FileSystem) (path : String) : Except SystemError ByteArray := do
  let i ← fs.locate path
  match fs.node? i with
  | some (.file mode bytes) => if fs.mayExecute i mode then .ok bytes else .error .accessDenied
  | _ => .error .accessDenied

/-- What a path starts: a program known here, with the words it is given.
Each script on the way puts the program of its first line in front. Paths
and words are bytewise. -/
def follow (fs : FileSystem) : Nat → String → List String →
    Except SystemError (Native × List String)
  | scripts, path, words => do
    let bytes ← executable fs (Text.gather path)
    match Native.ofBytes? bytes, Interpreter.ofBytes? bytes with
    | some program, _ => .ok (program, words)
    | none, none => .error .badExecutable
    | none, some i =>
      match scripts with
      | 0 => .error .tooManyLinks
      | scripts + 1 =>
        if i.path = "" then .error .accessDenied
        else follow fs scripts i.path (i.path :: i.argument.toList ++ path :: words.tail)

def scriptLimit : Nat := 5

def launcher : Nat → Shell.Launcher
  | 0, _, _, _ => .error (.number 11)
  | depth + 1, path, p, s => do
    let (program, words) ← follow s.files scriptLimit path p.words
    match program with
    | .concatenate => .ok (Concatenate.run { p with words := words } s)
    | .shell => .ok (Shell.program (launcher depth) { p with words := words } s)

def depthLimit : Nat := 200

/-! ## Tools -/

/-- The first path of a program that can be started. If there is none, a
file that is there but may not be started is what is reported, else what was
found last. -/
def search (fs : FileSystem) (program : String) :
    List String → Bool → SystemError → Except SystemError String
  | [], denied, last => .error (if denied then .accessDenied else last)
  | dir :: dirs, denied, _ =>
    let path := Path.join dir program
    match executable fs path with
    | .ok _ => .ok path
    | .error e =>
      if e = .accessDenied then search fs program dirs true e
      else if e = .noEntry ∨ e = .notDirectory then search fs program dirs denied e
      else .error e

def places (searchPath : List String) (program : String) : List String :=
  if program.toList.contains '/' then [program] else searchPath.map (Path.join · program)

def locate (fs : FileSystem) (searchPath : List String) (program : String) :
    Except SystemError String :=
  if program = "" then .error .noEntry
  else if program.toList.contains '/' then .ok program
  else if FileSystem.nameLimit < program.utf8ByteSize then .error .nameTooLong
  else search fs program searchPath false .noEntry

def exitCode : Ending → Option Int
  | .exited code => some code
  | .killed _ => none

def hasZero (text : String) : Bool := text.toList.contains '\x00'

def pipeText (s : System) (pipe : Nat) : String :=
  match s.readAll pipe with
  | .ok (bytes, _) => Text.ofBytes bytes
  | .error _ => ""

def openInput (s : System) : Option String → Except SystemError (Nat × System)
  | none => .ok s.addNull
  | some path => s.openPath [] (Text.spread path) .input

abbrev Surrounding := List (String × String)

def surroundingOf (searchPath : List String) (env : Surrounding) : Surrounding :=
  ("PATH", ":".intercalate searchPath) :: env

def runner (searchPath : List String) (env : Surrounding) : Runner := fun call fs =>
  match openInput { files := fs } call.input with
  | .error e => (.error (.system e), fs)
  | .ok (input, s) =>
    let (output, s) := s.addPipe .empty
    let (errors, s) := s.addPipe .empty
    let (number, s) := s.newProcess
    let process : Process :=
      { number := number, parent := 1
        words := (call.program :: call.args).map Text.spread
        env := (surroundingOf searchPath env).map fun b => (Text.spread b.1, Text.spread b.2)
        descriptors := [(0, input), (1, output), (2, errors)] }
    let started :=
      if hasZero call.program || call.args.any hasZero then Except.error SystemError.zeroInWord
      else do
        let path ← locate fs searchPath call.program
        launcher depthLimit (Text.spread path) process s
    match started with
    | .error e => (.error (.start call.program e), fs)
    | .ok (after, ending) =>
      (.ok
        { exitCode := exitCode ending
          output := pipeText after output
          errors := pipeText after errors },
        (after.seenFrom s).files)

end ImageTools.Tool
