import ImageTools.FileSystem.Access

/-!
# Trees of files

Laying out files from a description, and the view of a directory as a list
of paths. Two such views are compared to see what has changed. Devices are
not part of a view.
-/

set_option autoImplicit false

namespace ImageTools.FileSystem

inductive Item
  | file (mode : Nat) (bytes : ByteArray)
  | directory
  | link (target : String)
  /-- Another name of the file at a path. -/
  | sameAs (path : String)
  | device (d : Device)

def addAt (fs : FileSystem) (path : String) (n : Node) : Except SystemError FileSystem := do
  let (dir, name) ← fs.parentOf path
  if (fs.entry? dir.last name).isSome then .error .alreadyExists
  else if fs.owns dir.last then .ok (fs.addNode dir.last name n)
  else .error .accessDenied

def leadsToDirectory (fs : FileSystem) (path : String) : Bool :=
  match fs.resolve path with
  | .ok t => fs.isDirectory t.last
  | .error _ => false

def ensure (fs : FileSystem) : String → List String → Except SystemError FileSystem
  | _, [] => .ok fs
  | path, name :: r => do
    let path := if path = "" then (if name = "" then "/" else name) else Path.join path name
    let fs ←
      if fs.leadsToDirectory path then .ok fs
      else if fs.pathExists path then .error (if r.isEmpty then .alreadyExists else .notDirectory)
      else fs.addAt path (.directory [])
    ensure fs path r

def ensureDirectory (fs : FileSystem) (path : String) : Except SystemError FileSystem :=
  fs.ensure "" ((Path.names path).filter (· ≠ "."))

def ensureAbove (fs : FileSystem) (path : String) : Except SystemError FileSystem :=
  fs.ensureDirectory ("/".intercalate (Path.names path).dropLast)

def layOutItem (fs : FileSystem) (path : String) : Item → Except SystemError FileSystem
  | .directory => fs.ensureDirectory path
  | .link target => fs.addAt path (.link target)
  | .device d => fs.addAt path (.device d)
  | .file mode bytes => do
    let fs ← fs.write path bytes
    fs.setMode path mode
  | .sameAs other => do
    let (dir, name) ← fs.parentOf path
    let (otherDir, last) ← fs.parentOf other
    match fs.entry? otherDir.last last, fs.entry? dir.last name with
    | some i, none => .ok (fs.addEntry dir.last name i)
    | some _, some _ => .error .alreadyExists
    | none, _ => .error .noEntry

def layOutOne (fs : FileSystem) (path : String) (item : Item) :
    Except SystemError Unit × FileSystem :=
  match fs.ensureAbove path with
  | .error e => (.error e, fs)
  | .ok fs =>
    match fs.layOutItem path item with
    | .error e => (.error e, fs)
    | .ok fs => (.ok (), fs)

def layOut (fs : FileSystem) : List (String × Item) → Except SystemError Unit × FileSystem
  | [] => (.ok (), fs)
  | (path, item) :: r =>
    match fs.layOutOne path item with
    | (.ok (), fs) => layOut fs r
    | (.error e, fs) => (.error e, fs)

def place (fs : FileSystem) (items : List (String × Item)) : FileSystem :=
  items.foldl (fun fs item => (fs.layOutOne item.1 item.2).2) fs

inductive Sight
  | directory
  | link (target : String)
  | file (mode : Nat) (bytes : ByteArray)
  deriving DecidableEq

def sight? (fs : FileSystem) (i : Nat) : Option Sight :=
  match fs.node? i with
  | some (.directory _) => some .directory
  | some (.link target) => some (.link target)
  | some (.file mode bytes) => some (.file mode bytes)
  | _ => none

def below (fs : FileSystem) : Nat → String → Nat → List (String × Sight)
  | 0, _, _ => []
  | depth + 1, path, i =>
    match fs.node? i with
    | some (.directory entries) =>
      entries.flatMap fun e =>
        let here := if path = "" then e.1 else path ++ "/" ++ e.1
        match fs.sight? e.2 with
        | none => []
        | some s => (here, s) :: fs.below depth here e.2
    | _ => []

/-- The paths below a directory, relative to it. No path is longer than the
file system has nodes. -/
def view (fs : FileSystem) (dir : String) : List (String × Sight) :=
  match fs.resolve dir with
  | .ok t => fs.below fs.nodes.size "" t.last
  | .error _ => []

def changes (before after : List (String × Sight)) : List (String × Option Sight) :=
  (after.filter fun e => before.lookup e.1 ≠ some e.2).map (fun e => (e.1, some e.2)) ++
  (before.filter fun e => (after.lookup e.1).isNone).map fun e => (e.1, none)

end ImageTools.FileSystem
