import ImageTools.Shell.Options

/-!
# What a name of a command stands for

A function comes before a command of the shell itself, and that before a
program. A program is looked for in the directories of the search path, and
a name with a slash is a path.
-/

set_option autoImplicit false

namespace ImageTools.Shell

def plainNames : List String :=
  ["[", "alias", "bg", "cd", "chdir", "command", "echo", "false", "fg", "getopts", "hash", "jobs",
    "kill", "printf", "pwd", "read", "test", "true", "type", "ulimit", "umask", "unalias",
    "wait"]

def isSpecial (name : String) : Bool := specialNames.contains name

def isBuiltin (name : String) : Bool := isSpecial name || plainNames.contains name

def isDeclaring (name : String) : Bool := ["alias", "export", "local", "readonly"].contains name

inductive Meaning
  | function (body : Command)
  | builtin
  /-- The paths where a program may be found, the first of which can be run. -/
  | program (paths : List String)
  | unknown (error : SystemError)

def searchDirs (path : String) : List String :=
  path.toList.splitOn ':' |>.map String.ofList

def standardPath : String := "/usr/local/sbin:/usr/local/bin:/usr/sbin:/usr/bin:/sbin:/bin"

def candidates (path name : String) : List String :=
  if name.toList.contains '/' then [name]
  else (searchDirs path).map fun dir => if dir = "" then name else dir ++ "/" ++ name

/-- The error of a file that is not there is only reported if there is no
other. -/
def isMissing (e : SystemError) : Bool := e == .noEntry || e == .notDirectory

def runnable (fs : FileSystem) : List String → SystemError → Except SystemError (List String)
  | [], e => .error e
  | path :: r, e =>
    match fs.locate (Text.gather path) with
    | .error f => runnable fs r (if isMissing f then e else f)
    | .ok i =>
      match fs.node? i with
      | some (.file mode _) =>
        if fs.mayExecute i mode then .ok (path :: r) else runnable fs r .accessDenied
      | _ => runnable fs r .accessDenied

namespace Machine

def searchPath (m : Machine) : String := (m.valueOf? "PATH").getD ""

def program (m : Machine) (path name : String) : Meaning :=
  if name.toList.contains '/' then .program [name]
  else
    match runnable m.system.files (candidates path name) .noEntry with
    | .ok paths => .program paths
    | .error e => .unknown e

def meaning (m : Machine) (functionsToo : Bool) (path name : String) : Meaning :=
  match (if functionsToo then m.functions.lookup name else none) with
  | some body => .function body
  | none => if isBuiltin name then .builtin else m.program path name

def forget (m : Machine) (name : String) : Machine :=
  { m with known := m.known.filter fun k => k.1 != name }

def remember (m : Machine) (name : String) : List String → Machine
  | path :: _ =>
    if name.toList.contains '/' || (m.known.lookup name).isSome then m
    else { m with known := m.known ++ [(name, path)] }
  | [] => m

end Machine

def missingText (e : SystemError) : String := if isMissing e then "not found" else e.plainText

def missingStatus (e : SystemError) : Nat :=
  if isMissing e || e == .tooManyLinks || e == .nameTooLong then 127 else 126

end ImageTools.Shell
