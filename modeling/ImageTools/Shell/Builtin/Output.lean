import ImageTools.Shell.Builtin.Variables
import ImageTools.Shell.Print
import ImageTools.Shell.Test

/-!
# Commands that print and test
-/

set_option autoImplicit false

namespace ImageTools.Shell.Builtin

def doEcho (args : List String) : Action Nat := do
  Action.print (String.ofList (Print.echo args))
  return 0

def doPrintf (args : List String) : Action Nat := do
  let (_, words) ← Action.options [] args
  match words with
  | [] => Action.fail "usage: printf format [arg ...]"
  | form :: values =>
    let done := Print.printf form values
    done.complaints.forM Action.complain
    Action.print (String.ofList done.printed)
    if done.failed then
      Action.setStatus 2
      throw .fail
    return if done.complaints.isEmpty then 0 else 1

def doTest (bracket : Bool) (args : List String) : Action Nat := do
  if bracket && !args.getLast?.any (·.startsWith "]") then Action.fail "missing ]"
  let words := if bracket then args.dropLast else args
  match Test.truth (← get).system.files words with
  | .ok b => return if b then 0 else 1
  | .error text => Action.fail text

def doTimes (_ : List String) : Action Nat := do
  Action.print "0m0.000000s 0m0.000000s\n0m0.000000s 0m0.000000s\n"
  return 0

def doUlimit (args : List String) : Action Nat := do
  let letters := "HSatfdscmlpnvwr".toList.map (·, false)
  let (_, words) ← Action.options letters args
  match words with
  | [] => Action.print "unlimited\n"
  | [w] =>
    unless w = "unlimited" || w.toList.all Char.isDigit do Action.fail "bad number"
  | _ => Action.fail "too many arguments"
  return 0

def doNothing (status : Nat) (_ : List String) : Action Nat := return status

end ImageTools.Shell.Builtin
