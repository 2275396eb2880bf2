import ImageTools.FileSystem.Access

/-!
# Archiver directives

A directive is a list of commands, one per line, that an archiver reads from
its standard input: create the archive, add libraries in order, save, end.
It is kept in a file of a fresh name, created only if nothing has that name,
so that merges in one directory never share a file.
-/

set_option autoImplicit false

namespace ImageTools.Directive

inductive Command
  | create (path : String)
  | addLibrary (path : String)
  | save
  | finish
  deriving DecidableEq, Repr

def Command.line : Command → String
  | .create path => "CREATE " ++ path
  | .addLibrary path => "ADDLIB " ++ path
  | .save => "SAVE"
  | .finish => "END"

def merge (target : String) (sources : List String) : List Command :=
  .create target :: sources.map .addLibrary ++ [.save, .finish]

def render (commands : List Command) : String :=
  String.join (commands.map fun c => c.line ++ "\n")

def nameChars : List Char :=
  "ABCDEFGHIJKLMNOPQRSTUVWXYZabcdefghijklmnopqrstuvwxyz0123456789".toList

def placesOf : Nat → Nat → List Char
  | 0, _ => []
  | k + 1, n => nameChars.getD (n % nameChars.length) 'A' :: placesOf k (n / nameChars.length)

def variablePart (n : Nat) : String := String.ofList (placesOf 6 n)

def fileName (drawn : String) : String := "libmerger" ++ drawn ++ ".mri"

def attempts : Nat := 2147483648

def createFirst (fs : FileSystem) (base text : String) (draw : Nat → String) :
    Nat → Nat → Except SystemError (String × FileSystem)
  | 0, _ => .error .alreadyExists
  | left + 1, n =>
    let path := Path.join base (fileName (draw n))
    match fs.createNew path 0o600 text.toUTF8 with
    | .ok created => .ok (path, created)
    | .error e =>
      if e = .alreadyExists ∧ left ≠ 0 then createFirst fs base text draw left (n + 1)
      else .error (.located e path)

def createFile (fs : FileSystem) (dir : String) (commands : List Command) (draw : Nat → String) :
    Except SystemError (String × FileSystem) :=
  let base := if Path.isAbsolute dir then dir else Path.join fs.workDir dir
  createFirst fs base (render commands) draw attempts 0

/-- Takes a directive file away; one that is gone already is no error. -/
def dropFile (fs : FileSystem) (path : String) : FileSystem :=
  match fs.remove path with
  | .ok fs => fs
  | .error _ => fs

end ImageTools.Directive
