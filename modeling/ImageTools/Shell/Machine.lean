import ImageTools.Process.Signal
import ImageTools.Process.System
import ImageTools.Shell.Command
import ImageTools.Shell.Number

/-!
# The state of a shell

A shell keeps variables, functions and options, knows its channels, and works
on the system that it shares with other processes. An action changes that
state and either goes on or leaves what is being run: it ends a loop, a
function or the shell. All texts are bytewise.
-/

set_option autoImplicit false

namespace ImageTools.Shell

structure Variable where
  /-- None for a name that is only marked. -/
  value : Option String := none
  exported : Bool := false
  readOnly : Bool := false
  deriving DecidableEq, Repr

inductive Saved
  | variable (name : String) (old : Option Variable)
  | options (letters : List Char)
  deriving DecidableEq, Repr

/-- How far a command in the background has come. It does nothing before the
shell that started it waits for something or ends. -/
inductive Progress
  | started (run : System → System × Ending)
  | ended (ending : Ending)
  /-- The shell knows how it ended. -/
  | noted (status : Nat)

structure Job where
  process : Nat
  /-- The number that commands on jobs know it by. -/
  slot : Nat
  progress : Progress

def Job.isNoted (j : Job) : Bool :=
  match j.progress with
  | .noted _ => true
  | _ => false

structure Machine where
  system : System
  own : Descriptors
  /-- The name the shell was started under. -/
  name : String
  args : List String
  bindings : List (String × Variable) := []
  functions : List (String × Command) := []
  aliases : List (String × String) := []
  /-- The letters of the options that are on. -/
  options : List Char := []
  /-- The exit status of the last command. -/
  status : Nat := 0
  /-- The exit status of the last substitution in the command that runs. -/
  substituted : Nat := 0
  /-- The number of the shell, which its copies share. -/
  shell : Nat := 0
  /-- The number of this process. -/
  self : Nat := 0
  parent : Nat := 0
  /-- Signals that had no effect from the start. -/
  ignored : List Nat := []
  /-- Latest first. -/
  jobs : List Job := []
  lastJob : Option Nat := none
  /-- The line of the command that runs. -/
  line : Nat := 1
  /-- The line up to which the text has been read. -/
  reached : Nat := 1
  /-- The shell's own command that runs, named in what it complains about. -/
  context : Option String := none
  /-- What is done on a signal, or at the end for number zero. -/
  traps : List (Nat × String) := []
  /-- The status before the trap that runs. -/
  interrupted : Option Nat := none
  documents : Array Word := #[]
  /-- How many loops enclose the command that runs. -/
  loops : Nat := 0
  /-- How many functions are being run. -/
  calls : Nat := 0
  /-- What ending calls will restore, innermost first. -/
  frames : List (List Saved) := []
  /-- The argument whose options are read next, and the place in the one
  before it, if that has more. -/
  optionIndex : Nat := 1
  optionPlace : Option Nat := none
  /-- The working directory as it was asked for. -/
  here : String := ""
  /-- Programs that were found by the search path. -/
  known : List (String × String) := []
  /-- Something could not be written to the output. -/
  mute : Bool := false

inductive Jump
  /-- The shell ends with the status it has. -/
  | finish
  /-- Something cannot be done, which ends most shells. -/
  | fail
  | giveBack
  /-- Ends the given number of loops, or goes on in the last of them. -/
  | stop (loops : Nat)
  | again (loops : Nat)
  /-- The process ends at once. -/
  | leave (ending : Ending)
  deriving DecidableEq, Repr

abbrev Action := ExceptT Jump (StateM Machine)

abbrev Launcher := String → Process → System → Except SystemError (System × Ending)

namespace Machine

def isOn (m : Machine) (option : Char) : Bool := m.options.contains option

def binding? (m : Machine) (name : String) : Option Variable := m.bindings.lookup name

def valueOf? (m : Machine) (name : String) : Option String :=
  (m.binding? name).bind (·.value)

/-- Places that are kept beside a variable are found again when it changes. -/
def refresh (m : Machine) (name : String) : Machine :=
  if name = "PATH" then { m with known := [] }
  else if name = "OPTIND" then
    let n := ((m.valueOf? name).bind natural?).getD 1
    { m with optionIndex := if n < 1 then 1 else n, optionPlace := none }
  else m

def setVariable (m : Machine) (name : String) (v : Variable) : Machine :=
  let bindings :=
    if (m.binding? name).isSome then m.bindings.map fun p => if p.1 = name then (name, v) else p
    else m.bindings ++ [(name, v)]
  { m with bindings := bindings }.refresh name

def dropVariable (m : Machine) (name : String) : Machine :=
  { m with bindings := m.bindings.filter fun p => p.1 != name }.refresh name

def environment (m : Machine) : List (String × String) :=
  m.bindings.filterMap fun p => if p.2.exported then p.2.value.map (p.1, ·) else none

def separators (m : Machine) : List Char :=
  match m.valueOf? "IFS" with
  | some text => text.toList
  | none => [' ', '\t', '\n']

def optionNames : List (Char × String) :=
  [('e', "errexit"), ('f', "noglob"), ('I', "ignoreeof"), ('i', "interactive"), ('m', "monitor"),
    ('n', "noexec"), ('s', "stdin"), ('x', "xtrace"), ('v', "verbose"), ('V', "vi"),
    ('E', "emacs"), ('C', "noclobber"), ('a', "allexport"), ('b', "notify"), ('u', "nounset"),
    ('p', "privileged"), ('\x01', "nolog"), ('\x02', "debug")]

def optionLetters (m : Machine) : String :=
  String.ofList ((optionNames.map (·.1)).reverse.filter fun c => m.isOn c && c.isAlpha)

def withOption (m : Machine) (option : Char) (on : Bool) : Machine :=
  let others := m.options.filter (· != option)
  { m with options := if on then option :: others else others }

def hasTraps (m : Machine) : Bool := m.traps.any fun t => t.2 != ""

def dies (m : Machine) (signal : Nat) : Bool :=
  signal == Signal.kill ||
    (!Signal.isHarmless signal && !m.ignored.contains signal && (m.traps.lookup signal).isNone)

def restore (m : Machine) : Saved → Machine
  | .variable name (some v) => m.setVariable name v
  | .variable name none => m.dropVariable name
  | .options letters => { m with options := letters }

end Machine

namespace Action

def modifySystem (f : System → System) : Action Unit :=
  modify fun m => { m with system := f m.system }

def modifyFiles (f : FileSystem → FileSystem) : Action Unit :=
  modifySystem fun s => { s with files := f s.files }

def setStatus (status : Nat) : Action Unit := modify fun m => { m with status := status }

def write (descriptor : Nat) (bytes : List UInt8) : Action Bool := do
  let m ← get
  match m.own.get? descriptor with
  | none => return bytes.isEmpty
  | some c =>
    match m.system.write c (ByteArray.mk bytes.toArray) with
    | .ok s =>
      set { m with system := s }
      return true
    | .error _ => return false

def print (text : String) : Action Unit := do
  unless ← write 1 (Text.bytesOf text) do
    modify fun m => { m with mute := true }

def printError (text : String) : Action Unit := do
  let _ ← write 2 (Text.bytesOf text)

def complaintHead (m : Machine) : String :=
  m.name ++ ": " ++ toString m.line ++ ": " ++
    m.context.elim "" fun name => name ++ ": "

def complain (text : String) : Action Unit := do
  printError (complaintHead (← get) ++ text ++ "\n")

def failWith {α : Type} (status : Nat) (text : String) : Action α := do
  complain text
  setStatus status
  throw .fail

def fail {α : Type} (text : String) : Action α := failWith 2 text

def failNumber {α : Type} (text : String) : Action α := fail ("Illegal number: " ++ text)

def suits (name : String) (value : Option String) : Bool :=
  name != "OPTIND" || value.isNone || (value.bind natural?).isSome

def change (name : String) (f : Variable → Variable) : Action Unit := do
  let m ← get
  let old := (m.binding? name).getD {}
  if old.readOnly then fail (name ++ ": is read only")
  else
    let v := f old
    unless suits name v.value do failNumber (v.value.getD "")
    set (m.setVariable name { v with exported := v.exported || m.isOn 'a' })

def assign (name value : String) : Action Unit :=
  change name fun v => { v with value := some value }

def afterwards {α : Type} (action : Action α) (last : Machine → Machine) : Action α := fun m =>
  let (r, m) := action m
  (r, last m)

def attempt {α : Type} (action : Action α) : Action (Except Jump α) := fun m =>
  let (r, m) := action m
  (.ok r, m)

def inFrame {α : Type} (action : Action α) : Action α := do
  modify fun m => { m with frames := [] :: m.frames }
  afterwards action fun m =>
    (m.frames.headD []).foldl Machine.restore { m with frames := m.frames.tail }

def save (name : String) : Action Unit :=
  modify fun m =>
    match m.frames with
    | frame :: r => { m with frames := (.variable name (m.binding? name) :: frame) :: r }
    | [] => m

def noteEnd : Action Unit :=
  modify fun m =>
    if (m.traps.lookup Signal.childEnded).any (· != "") then
      { m with system := m.system.send m.self Signal.childEnded }
    else m

def obey : Action Unit := do
  let m ← get
  match (m.system.signalsTo m.self).find? m.dies with
  | some signal => throw (.leave (.killed signal))
  | none => return

end Action

end ImageTools.Shell
