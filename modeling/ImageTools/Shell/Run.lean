import ImageTools.Shell.Builtin.Control

/-!
# Running commands

A simple command has its words expanded first, then its redirections, then
its assignments, and then runs as a function, as a command of the shell or
as a program. Compound commands run their parts, some of them in copies of
the shell. How deep commands are nested is bounded; a shell that goes deeper
is killed.
-/

set_option autoImplicit false

namespace ImageTools.Shell

namespace Evaluator

/-! ## The words of a command -/

def expandBeyond (run : Substitute) (count : Nat) (fields : List String) :
    List Word → Action (List String × List Word)
  | [] => return (fields, [])
  | w :: ws =>
    if count < fields.length then return (fields, w :: ws)
    else do expandBeyond run count (fields ++ (← expandWord run w)) ws

/-- The start of a simple command: its fields so far, how many of them only
say how the command is to be looked for, and the words that are left. -/
structure Head where
  fields : List String := []
  rest : List Word
  skipped : Nat := 0
  standard : Bool := false

def skipOptions (run : Substitute) : Nat → Nat → Head → Action (Option Head)
  | 0, _, _ => return none
  | n + 1, place, h => do
    let (fields, rest) ← expandBeyond run place h.fields h.rest
    let h := { h with fields := fields, rest := rest }
    match fields[place]? with
    | none => return none
    | some field =>
      match field.toList with
      | ['-', '-'] =>
        let (fields, rest) ← expandBeyond run (place + 1) h.fields h.rest
        if fields.length ≤ place + 1 then return none
        else return some { h with fields := fields, rest := rest, skipped := place + 1 }
      | '-' :: c :: cs =>
        if (c :: cs).all (· == 'p') then skipOptions run n (place + 1) { h with standard := true }
        else return none
      | _ => return some { h with skipped := place }

def readHead (run : Substitute) : Nat → Head → Action Head
  | 0, h => return h
  | n + 1, h => do
    let (fields, rest) ← expandBeyond run h.skipped h.fields h.rest
    let h := { h with fields := fields, rest := rest }
    let m ← get
    let isShadowed := h.skipped = 0 && (m.functions.lookup "command").isSome
    if fields[h.skipped]? = some "command" && !isShadowed then
      match ← skipOptions run (n + 1) (h.skipped + 1) h with
      | some deeper => readHead run n deeper
      | none => return { h with fields := fields, rest := rest }
    else return h

def expandDeclared (run : Substitute) (w : Word) : Action (List String) := do
  match assignment? w with
  | some (name, value) => return [name ++ "=" ++ (← expandValue run value)]
  | none => expandWord run w

def headLimit : Nat := 1000

def readWords (run : Substitute) (words : List Word) : Action Head := do
  let h ← readHead run headLimit { rest := words }
  let m ← get
  let declares := match h.fields[h.skipped]? with
    | some name =>
      isDeclaring name && (h.skipped ≠ 0 || (m.functions.lookup name).isNone)
    | none => false
  let expand := if declares then expandDeclared run else expandWord run
  return { h with fields := h.fields ++ (← h.rest.mapM expand).flatten, rest := [] }

/-! ## Simple commands -/

def assignAll (e : Evaluator) (framed exported : Bool) :
    List (String × Word) → Action (List (String × String))
  | [] => return []
  | (name, w) :: r => do
    let value ← expandValue e.substitute w
    if framed then Action.save name
    Action.change name fun v =>
      { v with value := some value, exported := v.exported || framed || exported }
    return (name, value) :: (← assignAll e framed exported r)

def traceHead (e : Evaluator) : Action String := do
  let m ← get
  let text := (m.valueOf? "PS4").getD ""
  let expanded : Action String := do
    match documentWord text.toList with
    | .ok w => expandText e.substitute w
    | .error why =>
      modify fun m => { m with line := 1 }
      Action.fail ("Syntax error: " ++ why)
  set (m.withOption 'x' false)
  Action.afterwards
    (do
      match ← Action.attempt expanded with
      | .ok head => return head
      | .error .fail => return text
      | .error jump => throw jump)
    fun after => { after.withOption 'x' true with line := m.line }

def trace (e : Evaluator) (channels : Descriptors) (assigned : List (String × String))
    (words : List String) : Action Unit := do
  if (← get).isOn 'x' then
    let parts := assigned.map (fun a => a.1 ++ "=" ++ a.2) ++ words
    let head ← e.traceHead
    let own := (← get).own
    modify fun m => { m with own := channels }
    Action.afterwards (Action.printError (head ++ " ".intercalate parts ++ "\n")) fun m =>
      { m with own := own }

def callLimit : Nat := 1000

def callFunction (e : Evaluator) (place : Place) (body : Command) (args : List String) :
    Action Unit := do
  let m ← get
  if callLimit ≤ m.calls then
    Action.fail ("Maximum function recursion depth (" ++ toString callLimit ++ ") reached")
  set { m with
    args := args, loops := 0, calls := m.calls + 1, optionIndex := 1, optionPlace := none }
  let back (after : Machine) : Machine :=
    { after with
      args := m.args, loops := m.loops, calls := m.calls
      optionIndex := m.optionIndex, optionPlace := m.optionPlace }
  match ← Action.attempt (Action.afterwards (e.run { tested := place.tested } body) back) with
  | .error .giveBack => return
  | .error jump => throw jump
  | .ok () => return

def dispatch (e : Evaluator) (place : Place) (h : Head) : Action Unit := do
  let words := h.fields.drop h.skipped
  let name := words.headD ""
  let m ← get
  let path := if h.standard then standardPath else m.searchPath
  match m.meaning (h.skipped = 0) path name with
  | .function body => e.callFunction place body words.tail
  | .builtin => Builtin.call e place (h.skipped = 0 && isSpecial name) name words.tail
  | .program paths =>
    modify fun m => m.remember name paths
    e.start place words paths
  | .unknown error =>
    Action.complain (name ++ ": " ++ missingText error)
    modify fun m => m.forget name
    Action.setStatus 127

def runNameless (e : Evaluator) (assignments : List (String × Word)) (redirects : List Redirect) :
    Action Unit := do
  let channels := (← get).own
  let targets ← Redirect.prepare e.substitute redirects
  withChannels targets do
    if ← Redirect.establishAll e.substitute true [] targets then
      let assigned ← e.assignAll false false assignments
      e.trace channels assigned []
      Action.setStatus (← get).substituted
    else Action.setStatus 2

def keepsChannels (h : Head) : Bool := h.fields[h.skipped]? == some "exec"

def runNamed (e : Evaluator) (place : Place) (h : Head) (assignments : List (String × Word))
    (redirects : List Redirect) : Action Unit := do
  let m ← get
  let name := h.fields.getD h.skipped ""
  let first := h.fields.headD ""
  let isFunction := (m.functions.lookup first).isSome
  let fatal := isSpecial first && !isFunction
  let replaces := keepsChannels h && h.skipped + 1 < h.fields.length
  let targets ← Redirect.prepare e.substitute redirects
  let body : Action Unit := do
    if ← Redirect.establishAll e.substitute true [] targets then
      let run : Action Unit := do
        let assigned ← e.assignAll (!fatal) replaces assignments
        e.trace m.own assigned h.fields
        e.dispatch place h
      if fatal then run else Action.inFrame run
    else
      Action.setStatus 2
      if fatal then throw .fail
  if keepsChannels h && name = "exec" then body else withChannels targets body

def runSimple (e : Evaluator) (place : Place) (line : Nat) (assignments : List (String × Word))
    (words : List Word) (redirects : List Redirect) : Action Unit := do
  modify fun m => { m with line := line, substituted := 0 }
  let h ← readWords e.substitute words
  if h.fields.isEmpty then e.runNameless assignments redirects
  else e.runNamed place h assignments redirects

/-! ## Compound commands -/

inductive Turn
  | on
  | again
  | out
  deriving DecidableEq, Repr

def turn (action : Action Unit) : Action Turn := do
  match ← Action.attempt action with
  | .ok () => return .on
  | .error (.stop n) => if n ≤ 1 then return .out else throw (.stop (n - 1))
  | .error (.again n) => if n ≤ 1 then return .again else throw (.again (n - 1))
  | .error jump => throw jump

def looping {α : Type} (action : Action α) : Action α := do
  let loops := (← get).loops
  modify fun m => { m with loops := loops + 1 }
  Action.afterwards action fun m => { m with loops := loops }

def turnLimit : Nat := 100000000

def repeatBody (negated : Bool) (test body : Action Unit) : Nat → Nat → Action Unit
  | 0, _ => throw (.leave (.killed Signal.kill))
  | n + 1, status => do
    match ← turn test with
    | .out => Action.setStatus status
    | .again => repeatBody negated test body n status
    | .on =>
      if ((← get).status == 0) == negated then Action.setStatus status
      else
        match ← turn body with
        | .out => return
        | _ => repeatBody negated test body n (← get).status

def runEach (name : String) (body : Action Unit) : List String → Action Unit
  | [] => return
  | v :: r => do
    Action.assign name v
    match ← turn body with
    | .out => return
    | _ => runEach name body r

def findCase (run : Substitute) (subject : List Char) : Command → Action (Option Command)
  | .case patterns body next => do
    let fits ← patterns.foldlM
      (fun found w => do
        if found then return true else return (← expandPattern run w).fits subject)
      false
    if fits then return some body else findCase run subject next
  | _ => return none

def pipeParts : Command → List Command
  | .pipe first rest => first :: pipeParts rest
  | c => [c]

def runPipe (e : Evaluator) (place : Place) (status : Nat) (input : Option Nat) :
    List Command → Action Unit
  | [] => return
  | c :: r => do
    Action.setStatus status
    let m ← get
    let (pipe, system) := m.system.addPipe .empty
    if !r.isEmpty then set { m with system := system }
    let connect (copy : Machine) : Machine :=
      let own := input.elim copy.own fun i => copy.own.set 0 i
      { copy with own := if r.isEmpty then own else own.set 1 pipe }
    let ending ← e.inCopy connect (e.run { tested := place.tested, last := true } c)
    settle ending
    runPipe e place status (some pipe) r

def runBackground (e : Evaluator) (c : Command) : Action Unit := do
  let m ← get
  let (null, system) := m.system.addNull
  let (number, system) := system.newProcess
  let slot := Builtin.freeSlot m.jobs
  let copy := copyAs m number
  let copy := { copy with
    own := copy.own.set 0 null, ignored := copy.ignored ++ [Signal.interrupt, 3] }
  let action : Action Unit := do
    Action.obey
    e.run { last := true } c
  let job : Job :=
    { process := number
      slot := slot
      progress := .started fun s => e.conclude action { copy with system := s.seenFrom m.system } }
  let others := m.jobs.filter fun j => j.slot != slot
  set { m with system := system, jobs := job :: others, lastJob := some number }
  Action.setStatus 0

def runSubshell (e : Evaluator) (place : Place) (line : Nat) (c : Command)
    (redirects : List Redirect) : Action Unit := do
  modify fun m => { m with line := line }
  let targets ← Redirect.prepare e.substitute redirects
  let inner : Action Unit := do
    unless ← Redirect.establishAll e.substitute false [] targets do
      Action.setStatus 2
      throw .fail
    e.run { place with last := true } c
  if place.last && !(← get).hasTraps then
    inner
    throw .finish
  else settle (← e.inCopy id inner)

def runRedirected (e : Evaluator) (place : Place) (line : Nat) (c : Command)
    (redirects : List Redirect) : Action Unit := do
  modify fun m => { m with line := line }
  let targets ← Redirect.prepare e.substitute redirects
  withChannels targets do
    if ← Redirect.establishAll e.substitute true [] targets then e.run { tested := place.tested } c
    else
      Action.setStatus 2
      if (← get).isOn 'e' && !place.tested then throw .finish

def steps : Command → List Command
  | .sequence a b => steps a ++ steps b
  | c => [c]

def runSteps (e : Evaluator) (place : Place) : List Command → Action Unit
  | [] => return
  | [c] => e.run place c
  | c :: r => do
    e.run { tested := place.tested } c
    runSteps e place r

def runWith (e : Evaluator) (place : Place) : Command → Action Unit
  | .nothing => return
  | .simple line assignments words redirects => e.runSimple place line assignments words redirects
  | .opposite c => do
    e.run { tested := true } c
    Action.setStatus (if (← get).status == 0 then 1 else 0)
  | .pipe first rest => do
    e.runPipe place (← get).status none (pipeParts (.pipe first rest))
  | .background c => e.runBackground c
  | .both a b => do
    e.run { tested := true } a
    if (← get).status == 0 then e.run place b
  | .either a b => do
    e.run { tested := true } a
    if (← get).status != 0 then e.run place b
  | .sequence a b => e.runSteps place (steps (.sequence a b))
  | .branch test yes no => do
    e.run { tested := true } test
    if (← get).status == 0 then e.run place yes
    else
      match no with
      | .nothing => Action.setStatus 0
      | no => e.run place no
  | .loop negated test body =>
    looping (repeatBody negated (e.run { tested := true } test)
      (e.run { tested := place.tested } body) turnLimit 0)
  | .each line name words body => do
    modify fun m => { m with line := line }
    let values ← expandWords e.substitute words
    if values.isEmpty then Action.setStatus 0
    looping (runEach name (e.run { tested := place.tested } body) values)
  | .select line subject cases => do
    modify fun m => { m with line := line }
    let text ← expandText e.substitute subject
    match ← findCase e.substitute text.toList cases with
    | some .nothing => Action.setStatus 0
    | some body => e.run place body
    | none => Action.setStatus 0
  | .case _ _ _ => return
  | .subshell line c redirects => e.runSubshell place line c redirects
  | .redirected line c redirects => e.runRedirected place line c redirects
  | .define _ name body => do
    modify fun m =>
      { m.forget name with functions := (name, body) :: m.functions.filter fun f => f.1 != name }
    Action.setStatus 0

def isWatched : Command → Bool
  | .simple _ _ _ _ => true
  | .pipe _ _ => true
  | .subshell _ _ _ => true
  | _ => false

end Evaluator

/-- Runs a command. The number bounds how deep commands are nested. -/
def run (launch : Launcher) : Nat → Place → Command → Action Unit
  | 0, _, _ => throw (.leave (.killed 11))
  | depth + 1, place, c => do
    if (← get).isOn 'n' then return
    let e : Evaluator := { launch := launch, run := run launch depth }
    let watch : Action Unit := do
      let m ← get
      if m.isOn 'e' && !place.tested && m.status != 0 && Evaluator.isWatched c then throw .finish
    match ← Action.attempt (e.runWith place c) with
    | .ok () =>
      e.heed
      watch
    | .error .giveBack =>
      watch
      throw .giveBack
    | .error jump => throw jump

end ImageTools.Shell
