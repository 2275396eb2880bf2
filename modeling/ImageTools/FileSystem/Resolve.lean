import ImageTools.FileSystem.Basic

/-!
# Where a path leads

A path is followed name by name from the root or the working directory.
`stride` follows names until a symbolic link or a missing name stops it;
`walk` continues behind each link, at most forty times in all. Both are
structural, on the names and on the number of links left.

The way back is kept as a `Trail`, so that `..` needs no parent pointers and
the canonical path can be read off.
-/

set_option autoImplicit false

namespace ImageTools

/-- The names from the root to a node, deepest first, with their nodes. -/
abbrev Trail := List (String × Nat)

namespace Trail

def last : Trail → Nat
  | [] => 0
  | (_, i) :: _ => i

def path (t : Trail) : String :=
  if t.isEmpty then "/" else String.join (t.reverse.map fun step => "/" ++ step.1)

end Trail

inductive Stride
  | arrived (trail : Trail)
  | failed (error : SystemError)
  /-- The name is not in the directory the trail leads to. -/
  | missing (trail : Trail) (name : String) (rest : List String)
  /-- A symbolic link, met in the directory the trail leads to. -/
  | link (trail : Trail) (target : String) (rest : List String)

inductive Reached
  | found (trail : Trail)
  /-- All but the last name exist. -/
  | vacant (dir : Trail) (name : String)

namespace FileSystem

def nameLimit : Nat := 255

def pathLimit : Nat := 4096

def linkLimit : Nat := 40

/-- A last name that slashes follow: fine for a directory, but nothing can
be created under it. -/
def slashed (rest : List String) : Bool :=
  !rest.isEmpty && rest.all (· == "")

def stride (fs : FileSystem) (creating : Bool) : Trail → List String → Stride
  | t, [] => .arrived t
  | t, name :: rest =>
    match fs.node? t.last with
    | some (.directory entries) =>
      if name = "" ∨ name = "." then fs.stride creating t rest
      else if name = ".." then fs.stride creating t.tail rest
      else if creating && slashed rest then .failed .isDirectory
      else if nameLimit < name.utf8ByteSize then .failed .nameTooLong
      else
        match entries.lookup name with
        | none => .missing t name rest
        | some i =>
          match fs.node? i with
          | some (.link target) => .link t target rest
          | _ => fs.stride creating ((name, i) :: t) rest
    | _ => .failed .notDirectory

def startOf (t : Trail) (target : String) : Trail :=
  if Path.isAbsolute target then [] else t

def walk (fs : FileSystem) (creating : Bool) : Nat → Trail → List String →
    Except SystemError Reached
  | links, t, ns =>
    match fs.stride creating t ns with
    | .arrived t => .ok (.found t)
    | .failed e => .error e
    | .missing t name [] => .ok (.vacant t name)
    | .missing _ _ (_ :: _) => .error .noEntry
    | .link t target rest =>
      match links with
      | 0 => .error .tooManyLinks
      | links + 1 => fs.walk creating links (startOf t target) (Path.names target ++ rest)

def absoluteNames (fs : FileSystem) (path : String) : List String :=
  if Path.isAbsolute path then Path.names path else Path.names fs.workDir ++ Path.names path

def refused? (path : String) : Option SystemError :=
  if path.toList.contains '\x00' then some .zeroInPath
  else if path = "" then some .noEntry
  else if pathLimit ≤ path.utf8ByteSize then some .nameTooLong
  else none

def reach (fs : FileSystem) (creating : Bool) (path : String) : Except SystemError Reached :=
  match refused? path with
  | some e => .error e
  | none => fs.walk creating linkLimit [] (fs.absoluteNames path)

def resolve (fs : FileSystem) (path : String) : Except SystemError Trail :=
  match fs.reach false path with
  | .ok (.found t) => .ok t
  | .ok (.vacant _ _) => .error .noEntry
  | .error e => .error e

def canonical (fs : FileSystem) (path : String) : Except SystemError String :=
  (fs.resolve path).map Trail.path

def pathExists (fs : FileSystem) (path : String) : Bool :=
  match fs.resolve path with
  | .ok _ => true
  | .error _ => false

def isFile (fs : FileSystem) (path : String) : Bool :=
  match fs.resolve path with
  | .ok t =>
    match fs.node? t.last with
    | some (.file _ _) => true
    | _ => false
  | .error _ => false

end FileSystem

end ImageTools
