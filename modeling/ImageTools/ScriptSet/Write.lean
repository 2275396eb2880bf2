import ImageTools.FileSystem.Access
import ImageTools.ScriptSet

/-!
# Writing the script set

The files are written one after the other, and the first that cannot be
written ends the work; those before it stay. Making the scripts executable
works the same way.
-/

set_option autoImplicit false

namespace ImageTools

inductive ScriptError
  | target (error : TargetError)
  | write (path : String) (error : SystemError)
  deriving DecidableEq, Repr

namespace ScriptError

def message : ScriptError → String
  | .target error => error.message
  | .write path error => "failed to write " ++ path ++ ": " ++ error.message

def chain : ScriptError → List String
  | .target error => error.chain
  | .write path error => [message (.write path error), error.message]

def isUnsupportedArchitecture : ScriptError → Bool
  | .target error => error.isUnsupportedArchitecture
  | _ => false

end ScriptError

namespace ScriptSet

structure FileChange where
  path : String
  apply : FileSystem → Except SystemError FileSystem

def applyAll : List FileChange → FileSystem → Except ScriptError (List String) × FileSystem
  | [], fs => (.ok [], fs)
  | c :: r, fs =>
    match c.apply fs with
    | .error e => (.error (.write c.path e), fs)
    | .ok fs =>
      let (result, fs) := applyAll r fs
      (result.map (c.path :: ·), fs)

def writeChange (dir : String) (file : GeneratedFile) : FileChange :=
  { path := Path.join dir file.name
    apply := fun fs => fs.write (Path.join dir file.name) file.contents.toUTF8 }

def modeChange (dir name : String) : FileChange :=
  { path := Path.join dir name
    apply := fun fs => fs.setMode (Path.join dir name) 0o755 }

def generate (tag baseDir outDir : String) (s : Settings) (fs : FileSystem) :
    Except ScriptError (List String) × FileSystem :=
  match Arch.require tag with
  | .error e => (.error (.target e), fs)
  | .ok arch => applyAll ((render arch baseDir outDir s).map (writeChange outDir)) fs

def makeExecutable (dir : String) (fs : FileSystem) :
    Except ScriptError (List String) × FileSystem :=
  applyAll (scriptNames.map (modeChange dir)) fs

end ScriptSet

end ImageTools
