import ImageTools.Shell.Builtin.Names
import ImageTools.Shell.Builtin.Output
import ImageTools.Shell.Builtin.Places
import ImageTools.Shell.Evaluator

/-!
# Commands on the course of the shell

Leaving loops, functions and the shell, running texts and files, and giving
the shell's place to a program; and the table of all commands that the shell
has itself.
-/

set_option autoImplicit false

namespace ImageTools.Shell.Builtin

def leaveLoops (jump : Nat → Jump) (args : List String) : Action Nat := do
  let n ← match args with
    | [] => pure 1
    | w :: _ =>
      let n ← Action.number w
      if n = 0 then Action.failNumber w else pure n
  let loops := (← get).loops
  if loops = 0 then return 0
  Action.setStatus 0
  throw (jump (min n loops))

def doReturn (args : List String) : Action Nat := do
  match args with
  | [] => throw .giveBack
  | w :: _ =>
    Action.setStatus (← Action.number w)
    throw .giveBack

def doExit (args : List String) : Action Nat := do
  match args with
  | [] =>
    let m ← get
    Action.setStatus (m.interrupted.getD m.status)
    throw .finish
  | w :: _ =>
    Action.setStatus (← Action.number w)
    throw .finish

def doEval (e : Evaluator) (place : Place) (args : List String) : Action Nat := do
  if args.isEmpty then return 0
  e.runText { place with last := false } (" ".intercalate args)
  return (← get).status

def findText (m : Machine) (name : String) : Option String :=
  if name.toList.contains '/' then some name
  else (candidates m.searchPath name).find? fun p => m.system.files.isFile (Text.gather p)

def readCommands (path : String) : Action String := do
  let fs := (← get).system.files
  match fs.openForReading (Text.gather path) with
  | .ok i =>
    let bytes := (fs.readNode i).toOption.getD .empty
    return Text.bytewise (bytes.toList.filter (· != 0))
  | .error e => Action.fail (Redirect.refusal path .input e)

def doSource (e : Evaluator) (args : List String) : Action Nat := do
  let (_, words) ← Action.options [] args
  match words with
  | [] => return 0
  | name :: _ =>
    match findText (← get) name with
    | none => Action.fail (name ++ ": not found")
    | some path =>
      let text ← readCommands path
      let m ← get
      set { m with context := some path }
      let run := Action.afterwards (e.runText {} text) fun after =>
        { after with context := m.context }
      match ← Action.attempt run with
      | .ok () => return (← get).status
      | .error .giveBack => return (← get).status
      | .error jump => throw jump

def doExec (e : Evaluator) (args : List String) : Action Nat := do
  unless args.isEmpty do
    e.replace args (candidates (← get).searchPath (args.headD ""))
  return 0

def action (e : Evaluator) (place : Place) (name : String) (args : List String) : Action Nat :=
  match name with
  | "." => doSource e args
  | ":" => doNothing 0 args
  | "[" => doTest true args
  | "alias" => doAlias args
  | "bg" => doForeground args
  | "break" => leaveLoops .stop args
  | "cd" => doCd args
  | "chdir" => doCd args
  | "command" => doCommand args
  | "continue" => leaveLoops .again args
  | "echo" => doEcho args
  | "eval" => doEval e place args
  | "exec" => doExec e args
  | "exit" => doExit args
  | "export" => doExport args
  | "false" => doNothing 1 args
  | "fg" => doForeground args
  | "getopts" => doGetopts args
  | "hash" => doHash args
  | "jobs" => doJobs args
  | "kill" => doKill args
  | "local" => doLocal args
  | "printf" => doPrintf args
  | "pwd" => doPwd args
  | "read" => doRead args
  | "readonly" => doReadonly args
  | "return" => doReturn args
  | "set" => doSet args
  | "shift" => doShift args
  | "test" => doTest false args
  | "times" => doTimes args
  | "trap" => doTrap args
  | "type" => doType args
  | "ulimit" => doUlimit args
  | "umask" => doUmask args
  | "unalias" => doUnalias args
  | "unset" => doUnset args
  | "wait" => doWait args
  | _ => doNothing 0 args

def call (e : Evaluator) (place : Place) (fatal : Bool) (name : String) (args : List String) :
    Action Unit := do
  let before ← get
  set { before with context := some name, mute := false }
  let run : Action Unit := do
    let status ← action e place name args
    if (← get).mute then
      Action.complain (name ++ ": I/O error")
      Action.setStatus (status ||| 1)
    else Action.setStatus status
  let result ← Action.attempt (Action.afterwards run fun after =>
    { after with context := before.context, mute := before.mute })
  match result with
  | .ok () => return
  | .error .fail => if fatal then throw .fail else return
  | .error jump => throw jump

end ImageTools.Shell.Builtin
