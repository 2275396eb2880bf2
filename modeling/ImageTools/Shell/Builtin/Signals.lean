import ImageTools.Shell.Builtin.Jobs
import ImageTools.Shell.Builtin.Variables

/-!
# Commands on signals

Sending signals, and saying what is to be done when one comes or the shell
ends.
-/

set_option autoImplicit false

namespace ImageTools.Shell.Builtin

def signalOf? (first : Nat) (text : String) : Option Nat :=
  match digits? text with
  | some n => if n < Signal.names.length then some n else none
  | none => Signal.ofName? first text

def sendTo (signal : Nat) : List String → Nat → Action Nat
  | [], status => return status
  | w :: ws, status => do
    let (word, isGroup) := match w.toList with
      | '-' :: cs => (String.ofList cs, true)
      | _ => (w, false)
    let isJob := word.startsWith "%"
    let process ← if isJob then (·.process) <$> jobOf word else Action.number word
    let m ← get
    let isThere := m.system.alive.contains process ||
      m.jobs.any fun j => j.process == process && !j.isNoted
    if isThere && !isGroup && !isJob then
      if signal ≠ 0 && m.system.alive.contains process then
        Action.modifySystem fun s => s.send process signal
        Action.obey
      sendTo signal ws status
    else
      Action.complain "No such process\n"
      sendTo signal ws 1

def killUsage {α : Type} : Action α :=
  Action.fail
    "Usage: kill [-s sigspec | -signum | -sigspec] [pid | job]... or\nkill -l [exitstatus]"

def listSignal : List String → Action Nat
  | [] => do
    let names := "0" :: Signal.names.drop 1
    Action.print (String.join (names.map (· ++ "\n")))
    return 0
  | w :: _ => do
    let n ← Action.number w
    let n := if 128 < n then n - 128 else n
    match (if n = 0 then none else Signal.name? n) with
    | some name =>
      Action.print (name ++ "\n")
      return 0
    | none => Action.fail ("invalid signal number or exit status: " ++ w)

def doKill (args : List String) : Action Nat := do
  match args with
  | [] => killUsage
  | w :: ws =>
    let direct := match w.toList with
      | '-' :: cs => signalOf? 1 (String.ofList cs)
      | _ => none
    match direct with
    | some signal => if ws.isEmpty then killUsage else sendTo signal ws 0
    | none =>
      let (given, words) ← Action.options [('l', false), ('s', true)] args
      let named ← given.filterMapM fun g => do
        if g.letter = 's' then
          match signalOf? 1 g.value with
          | some signal => return some signal
          | none => Action.fail ("invalid signal number or name: " ++ g.value)
        else return none
      let lists := given.any (·.letter == 'l')
      if lists then if named.isEmpty then listSignal words else killUsage
      else if words.isEmpty then killUsage
      else sendTo (named.getLast?.getD Signal.terminate) words 0

/-! ## Traps -/

def setTraps (action : Option String) : List String → Action Nat
  | [] => return 0
  | w :: ws => do
    match signalOf? 0 w with
    | none =>
      Action.printError ("trap: " ++ w ++ ": bad trap\n")
      return 1
    | some signal =>
      modify fun m =>
        let others := m.traps.filter fun t => t.1 != signal
        { m with traps := others ++ (action.toList.map fun a => (signal, a)) }
      setTraps action ws

def trapList (m : Machine) : String :=
  let sorted := m.traps.mergeSort fun a b => decide (a.1 ≤ b.1)
  String.join (sorted.map fun t =>
    "trap -- " ++ quoted t.2 ++ " " ++ (Signal.name? t.1).getD "" ++ "\n")

def doTrap (args : List String) : Action Nat := do
  let (_, words) ← Action.options [] args
  match words with
  | [] =>
    Action.print (trapList (← get))
    return 0
  | [w] => setTraps none [w]
  | w :: ws =>
    if (digits? w).any (· < Signal.names.length) then setTraps none (w :: ws)
    else setTraps (if w = "-" then none else some w) ws

end ImageTools.Shell.Builtin
