import ImageTools.Archiver
import ImageTools.Merge.Directive
import ImageTools.Merge.Error

/-!
# Merging static archives

One archive is copied to the target as it is. Two or more are combined by
the architecture's archiver, which reads a directive file that exists only
while the archiver runs. The archiver is a parameter, and every start is
recorded with the text the tool found in its input file.
-/

set_option autoImplicit false

namespace ImageTools

abbrev Runner := Invocation → FileSystem → Except MergeError Outcome × FileSystem

structure Start where
  invocation : Invocation
  /-- What the input file held when the tool was started. -/
  text : Option String
  deriving DecidableEq

structure Host where
  files : FileSystem
  started : List Start := []
  deriving DecidableEq

namespace Host

def inputText (fs : FileSystem) (call : Invocation) : Option String :=
  match call.input with
  | none => none
  | some path =>
    match fs.readText path with
    | .ok text => some text
    | .error _ => none

def start (h : Host) (runner : Runner) (call : Invocation) : Except MergeError Outcome × Host :=
  let (result, files) := runner call h.files
  (result,
    { files := files,
      started := h.started ++ [{ invocation := call, text := inputText h.files call }] })

end Host

inductive Merged
  | copied (bytes : Nat)
  | archived (tool : String) (inputs : Nat)
  deriving DecidableEq, Repr

structure Merger where
  settings : Settings
  runner : Runner
  /-- The directory for directive files. -/
  workDir : String
  /-- The variable parts tried for a directive file's name, in turn. -/
  draw : Nat → String

namespace Merger

/-- Whether `target` exists and both paths have one canonical form. Copying
a file onto itself would empty it before anything is read. -/
def sameFile (fs : FileSystem) (source target : String) : Except SystemError Bool :=
  if fs.pathExists target then do
    let s ← fs.canonical source
    let t ← fs.canonical target
    .ok (s == t)
  else .ok false

def copySingle (fs : FileSystem) (source target : String) :
    Except MergeError Merged × FileSystem :=
  match sameFile fs source target with
  | .error e => (.error (.system e), fs)
  | .ok true => (.error (.sameFile target), fs)
  | .ok false =>
    match fs.copy source target with
    | (.error e, fs) => (.error (.system e), fs)
    | (.ok bytes, fs) => (.ok (.copied bytes), fs)

def runArchiver (m : Merger) (program path : String) (inputs : Nat) (h : Host) :
    Except MergeError Merged × Host :=
  let (result, h) := h.start m.runner { program := program, args := ["-M"], input := some path }
  let merged := do
    let outcome ← result
    let _ ← outcome.check program
    .ok (Merged.archived program inputs)
  (merged, { h with files := Directive.dropFile h.files path })

def archive (m : Merger) (arch : Arch) (target : String) (sources : List String) (h : Host) :
    Except MergeError Merged × Host :=
  match Archiver.ofArch arch m.settings with
  | .error e => (.error (.target e), h)
  | .ok archiver =>
    let inputs := sources ++ archiver.runtimeLibs
    match Directive.createFile h.files m.workDir (Directive.merge target inputs) m.draw with
    | .error e => (.error (.system e), h)
    | .ok (path, files) =>
      m.runArchiver archiver.program path inputs.length { h with files := files }

def merge (m : Merger) (tag target : String) (sources : List String) (h : Host) :
    Except MergeError Merged × Host :=
  match Arch.require tag with
  | .error e => (.error (.target e), h)
  | .ok arch =>
    match sources with
    | [] => (.error .noSources, h)
    | [source] =>
      let (result, files) := copySingle h.files source target
      (result, { h with files := files })
    | _ => m.archive arch target sources h

end Merger

end ImageTools
