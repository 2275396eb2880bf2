import ImageTools.Shell.Run

/-!
# The shell as a program

A shell starts with options, a text with commands or the name of a file that
holds one, and arguments; without any it reads its input.
-/

set_option autoImplicit false

namespace ImageTools.Shell

def depthLimit : Nat := 20000

def withEnvironment (m : Machine) (env : List (String × String)) : Machine :=
  let own : List (String × String) :=
    [("PS1", "$ "), ("PS2", "> "), ("PS4", "+ "), ("PATH", standardPath)]
  let later : List (String × String) :=
    [("IFS", " \t\n"), ("OPTIND", "1"), ("PPID", toString m.parent)]
  let set (exported : Bool) (m : Machine) (b : String × String) : Machine :=
    let old := (m.binding? b.1).getD {}
    m.setVariable b.1 { old with value := some b.2, exported := old.exported || exported }
  let m := own.foldl (set false) m
  let m := (env.filter fun b => isNamed b.1).foldl (set true) m
  later.foldl (set false) m

def startDirectory (m : Machine) : String :=
  let real := m.system.files.workDir
  match m.valueOf? "PWD" with
  | some path =>
    let leads := (m.system.files.canonical (Text.gather path)).toOption == some real
    if Path.isAbsolute path && leads then path else Text.spread real
  | none => Text.spread real

def Machine.ofProcess (p : Process) (s : System) : Machine :=
  let m : Machine :=
    { system := s, own := p.descriptors, name := p.words.headD "", args := []
      shell := p.number, self := p.number, parent := p.parent, ignored := p.ignored, line := 0 }
  let m := withEnvironment m p.env
  let here := startDirectory m
  let old := (m.binding? "PWD").getD {}
  { m.setVariable "PWD" { old with value := some here, exported := true } with here := here }

def readInput : Action String := do
  let m ← get
  match m.own.get? 0 with
  | none => return ""
  | some c =>
    match m.system.readAll c with
    | .ok (bytes, s) =>
      set { m with system := s }
      return Text.bytewise (bytes.toList.filter (· != 0))
    | .error _ => return ""

def start (e : Evaluator) (words : List String) : Action Unit := do
  let setup ← Builtin.readSetup true (words.length + 1) words
  if (← get).isOn 'i' then Builtin.putOption 'm' true
  let args := setup.args.getD []
  if setup.hasText then
    match args with
    | [] => Action.fail "-c requires an argument"
    | text :: rest =>
      modify fun m => { m with name := rest.headD m.name, args := rest.tail }
      e.runText { last := !(← get).isOn 's' } text
  else
    match args, (← get).isOn 's' with
    | path :: rest, false =>
      let text ← Builtin.readCommands path
      modify fun m => { m with name := path, args := rest }
      e.runText {} text
    | args, _ =>
      modify fun m => { m.withOption 's' true with args := args }
      e.runText {} (← readInput)

def program (launch : Launcher) (p : Process) (s : System) : System × Ending :=
  let e : Evaluator := { launch := launch, run := run launch depthLimit }
  e.conclude (start e p.words.tail) (Machine.ofProcess p s)

end ImageTools.Shell
