import ImageTools.Shell.Builtin.Signals
import ImageTools.Shell.Lookup
import ImageTools.Shell.Redirect

/-!
# Shells within shells

What running a command rests on: texts with commands, copies of the shell
that run on their own, the output of such copies, and programs. How a single
command is run is a parameter, which stands for a run that is nested less
deep.
-/

set_option autoImplicit false

namespace ImageTools.Shell

structure Place where
  /-- Its status is looked at, so a failure does not end the shell. -/
  tested : Bool := false
  /-- Nothing comes after it, so a program may take the shell's place. -/
  last : Bool := false
  deriving DecidableEq, Repr

structure Evaluator where
  launch : Launcher
  run : Place → Command → Action Unit

namespace Evaluator

/-! ## Texts -/

def linesOf (text : List Char) : List (List Char) :=
  text.foldr
    (fun c lines => match lines with
      | line :: r => if c = '\n' then [c] :: line :: r else (c :: line) :: r
      | [] => [[c]])
    []

def showLines (lines : List (List Char)) (first last : Nat) : Action Unit :=
  ((lines.drop (first - 1)).take (last - first)).forM fun line =>
    Action.printError (String.ofList line)

/-- Runs the commands of a text line by line. A line is only read when those
before it have been run. The flag tells whether a command has been run. -/
def runLines (e : Evaluator) (place : Place) (lines : List (List Char)) (fuel : Nat) :
    Nat → Bool → Reader → Action Bool
  | 0, ran, _ => return ran
  | n + 1, ran, reader => do
    let m ← get
    let reader : Reader :=
      { reader with aliases := m.aliases, announced := m.documents.size, documents := m.documents }
    match reader.next fuel with
    | .error error =>
      if m.isOn 'v' then showLines lines reader.line (error.line + 1)
      modify fun m => { m with line := error.line, reached := error.line }
      Action.fail error.text
    | .ok (none, _) => return ran
    | .ok (some c, after) =>
      set { m with reached := after.line, documents := after.documents }
      if m.isOn 'v' then showLines lines reader.line after.line
      match c with
      | .nothing => runLines e place lines fuel n ran after
      | c =>
        if (← get).isOn 'n' then runLines e place lines fuel n ran after
        else
          let isEnd := match after.rest with
            | { token := .ending, .. } :: _ => true
            | _ => false
          e.run { place with last := place.last && isEnd } c
          runLines e place lines fuel n true after

def aliasRoom : Nat := 1000000

def runText (e : Evaluator) (place : Place) (text : String) : Action Unit := do
  let cs := text.toList
  let (reader, fuel) := Reader.ofText 1 cs #[]
  let lines := if (← get).isOn 'v' || cs.contains 'v' then linesOf cs else []
  unless ← runLines e place lines (fuel + aliasRoom) (cs.length + 1) false reader do
    Action.setStatus 0

def runTrap (e : Evaluator) (text : String) : Action Unit := e.runText { tested := false } text

/-! ## Traps -/

def heed (e : Evaluator) : Action Unit := do
  Action.obey
  let m ← get
  let come := (m.system.signalsTo m.self).eraseDups.mergeSort
  unless come.isEmpty do
    modify fun m => { m with system := come.foldl (fun s n => s.dropSignal m.self n) m.system }
    let status := m.interrupted.getD m.status
    let due := come.filterMap fun n =>
      if m.ignored.contains n then none else (m.traps.lookup n).filter (· != "")
    due.forM fun text => do
      modify fun m => { m with interrupted := some status }
      Action.afterwards (e.runTrap text) fun after => { after with interrupted := m.interrupted }
      Action.setStatus status

def drain (jobs : List Job) (s : System) : System :=
  jobs.reverse.foldl
    (fun s job => match job.progress with
      | .started run => ((run s).1.endProcess job.process).seenFrom s
      | _ => s)
    s

def conclude (e : Evaluator) (action : Action Unit) (m : Machine) : System × Ending :=
  let done (after : Machine) (ending : Ending) : System × Ending :=
    (drain after.jobs after.system, ending)
  match action m with
  | (.error (.leave ending), m) => done m ending
  | (_, m) =>
    match (m.traps.lookup 0).filter (· != "") with
    | none => done m (.exited (m.status % 256))
    | some text =>
      let start := { m with
        traps := m.traps.filter fun t => t.1 != 0, interrupted := some m.status, loops := 0 }
      match e.runTrap text start with
      | (.error (.leave ending), after) => done after ending
      | (.error .finish, after) => done after (.exited (after.status % 256))
      | (.error .fail, after) => done after (.exited (after.status % 256))
      | (_, after) => done after (.exited (m.status % 256))

/-! ## Copies -/

def copyAs (m : Machine) (number : Nat) : Machine :=
  { m with
    self := number, parent := m.self, jobs := []
    traps := m.traps.filter fun t => t.2 = "" }

/-- Runs an action in a copy of the shell, of which only what it does to the
system remains. -/
def inCopy (e : Evaluator) (prepare : Machine → Machine) (action : Action Unit) :
    Action Ending := do
  Builtin.makeRoom
  let before ← get
  let (number, system) := before.system.newProcess
  let copy := prepare (copyAs { before with system := system } number)
  let (after, ending) := e.conclude action copy
  set { before with system := (after.endProcess number).seenFrom before.system }
  Action.noteEnd
  Action.obey
  return ending

def settle (ending : Ending) : Action Unit := do
  Builtin.report ending
  Action.setStatus (Builtin.statusOf ending)

def substitute (e : Evaluator) : Substitute := fun text line closed => do
  let m ← get
  match commandsOf line text closed m.documents with
  | .error error =>
    set { m with line := error.line }
    Action.fail error.text
  | .ok (.nothing, _) => return []
  | .ok (c, documents) =>
    let (pipe, system) := m.system.addPipe .empty
    set { m with documents := documents, system := system }
    let ending ← e.inCopy (fun copy => { copy with own := copy.own.set 1 pipe })
      (e.run { last := true } c)
    Builtin.report ending
    modify fun m => { m with substituted := Builtin.statusOf ending }
    let bytes := match (← get).system.readAll pipe with
      | .ok (bytes, _) => bytes.toList.filter (· != 0)
      | .error _ => []
    return ((bytes.map Text.byteChar).reverse.dropWhile (· == '\n')).reverse

/-! ## Programs -/

def shellPath : String := "/bin/sh"

def startFirst (launch : Launcher) (p : Process) (s : System) :
    List String → SystemError → Except SystemError (System × Ending)
  | [], e => .error e
  | path :: r, e =>
    let result := match launch path p s with
      | .error (.number 8) =>
        launch shellPath { p with words := shellPath :: path :: p.words.tail } s
      | result => result
    match result with
    | .ok done => .ok done
    | .error f => startFirst launch p s r (if isMissing f then e else f)

def processOf (m : Machine) (number parent : Nat) (words : List String) : Process :=
  { number := number, parent := parent, words := words, env := m.environment
    descriptors := m.own
    ignored := m.ignored ++ (m.traps.filter fun t => t.2 = "").map (·.1) }

def complainMissing (words : List String) (e : SystemError) : Action Unit := do
  Action.complain (words.headD "" ++ ": " ++ missingText e)
  Action.setStatus (missingStatus e)

def replace (e : Evaluator) (words paths : List String) : Action Unit := do
  let m ← get
  let p := processOf m m.self m.parent words
  match startFirst e.launch p m.system paths .noEntry with
  | .ok (after, ending) =>
    set { m with system := after.seenFrom m.system }
    throw (.leave ending)
  | .error error =>
    complainMissing words error
    throw .finish

def start (e : Evaluator) (place : Place) (words paths : List String) : Action Unit := do
  Builtin.runJobs
  let m ← get
  if place.last && !m.hasTraps then e.replace words paths
  else
    Builtin.makeRoom
    let m ← get
    let (number, system) := m.system.newProcess
    match startFirst e.launch (processOf m number m.self words) system paths .noEntry with
    | .ok (after, ending) =>
      set { m with system := (after.endProcess number).seenFrom m.system }
      Action.noteEnd
      Action.obey
      settle ending
    | .error error =>
      complainMissing words error

end Evaluator

end ImageTools.Shell
