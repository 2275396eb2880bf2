import ImageTools.Arch
import ImageTools.Text.Blank

/-!
# Tools and merge errors

A tool is started with its arguments and perhaps an input file; it ends with
an exit code or by a signal. Every way in which starting a tool or merging
archives can fail has its own constructor here, and one text.
-/

set_option autoImplicit false

namespace ImageTools

structure Invocation where
  program : String
  args : List String
  /-- The file the tool reads as its standard input. -/
  input : Option String
  deriving DecidableEq, Repr

structure Outcome where
  /-- None if a signal ended the tool. -/
  exitCode : Option Int
  output : String
  errors : String
  deriving DecidableEq, Repr

inductive MergeError
  | target (error : TargetError)
  | noSources
  | sameFile (path : String)
  /-- The tool could not be started. -/
  | start (tool : String) (error : SystemError)
  | toolFailed (tool : String) (exitCode : Option Int) (errors : String)
  | system (error : SystemError)
  deriving DecidableEq, Repr

namespace MergeError

def exitText : Option Int → String
  | some code => "exit code " ++ toString code
  | none => "terminated by signal"

def message : MergeError → String
  | .target error => error.message
  | .noSources => "no source archives given"
  | .sameFile path => "source and target are the same file: " ++ path
  | .start tool error => "failed to invoke " ++ tool ++ ": " ++ error.message
  | .toolFailed tool exitCode errors =>
    tool ++ " failed (" ++ exitText exitCode ++ "): " ++ errors
  | .system error => "I/O error: " ++ error.message

def chain : MergeError → List String
  | .target error => error.chain
  | .start tool error => [message (.start tool error), error.message]
  | .system error => [message (.system error), error.message]
  | error => [error.message]

def isUnsupportedArchitecture : MergeError → Bool
  | .target error => error.isUnsupportedArchitecture
  | _ => false

end MergeError

namespace Outcome

def success (o : Outcome) : Bool := o.exitCode == some 0

def check (o : Outcome) (tool : String) : Except MergeError Outcome :=
  if o.success then .ok o else .error (.toolFailed tool o.exitCode (Text.trimEnd o.errors))

end Outcome

end ImageTools
