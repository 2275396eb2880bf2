import ImageTools.FileSystem.Resolve

/-!
# Reading and writing files

Each operation changes one file at most. There is room for everything but on
a full device, and no reading or writing fails half-way: so an operation that
returns a file system only on success changes nothing on an error. A copy that
fails may have emptied its target before.
-/

set_option autoImplicit false

namespace ImageTools.FileSystem

def locate (fs : FileSystem) (path : String) : Except SystemError Nat :=
  (fs.resolve path).map Trail.last

def openForReading (fs : FileSystem) (path : String) : Except SystemError Nat := do
  let i ← fs.locate path
  match fs.node? i with
  | some (.file mode _) => if fs.mayRead i mode then .ok i else .error .accessDenied
  | some (.device .terminal) => .error .noDevice
  | _ => .ok i

def readNode (fs : FileSystem) (i : Nat) : Except SystemError ByteArray :=
  match fs.node? i with
  | some (.file _ bytes) => .ok bytes
  | some (.directory _) => .error .isDirectory
  | some (.device _) => .ok .empty
  | _ => .error .noEntry

def read (fs : FileSystem) (path : String) : Except SystemError ByteArray := do
  let i ← fs.openForReading path
  fs.readNode i

def readText (fs : FileSystem) (path : String) : Except SystemError String := do
  let bytes ← fs.read path
  match String.fromUTF8? bytes with
  | some text => .ok text
  | none => .error .invalidEncoding

def createIn (fs : FileSystem) (dir : Nat) (name : String) (mode : Nat) (bytes : ByteArray) :
    Except SystemError FileSystem :=
  if fs.owns dir then .ok (fs.addNode dir name (.file (fs.masked mode) bytes))
  else .error .accessDenied

/-- The node that `path` leads to, open for writing: an existing file or
device, or a new empty file with the given permission bits. -/
def openForChange (fs : FileSystem) (path : String) (mode : Nat) :
    Except SystemError (Nat × FileSystem) := do
  match ← fs.reach true path with
  | .found t =>
    match fs.node? t.last with
    | some (.file old _) =>
      if fs.mayWrite t.last old then .ok (t.last, fs) else .error .accessDenied
    | some (.device .terminal) => .error .noDevice
    | some (.device _) => .ok (t.last, fs)
    | _ => .error .isDirectory
  | .vacant dir name => do
    let changed ← fs.createIn dir.last name mode .empty
    .ok (fs.nodes.size, changed)

def fillNode (fs : FileSystem) (i : Nat) (bytes : ByteArray) : FileSystem :=
  match fs.node? i with
  | some (.file mode _) => fs.setNode i (.file (withoutPrivilege mode) bytes)
  | _ => fs

def store (fs : FileSystem) (i : Nat) (bytes : ByteArray) : Except SystemError FileSystem :=
  match fs.node? i with
  | some (.device .full) => if bytes.isEmpty then .ok fs else .error .noSpace
  | _ => .ok (fs.fillNode i bytes)

def setNodeMode (fs : FileSystem) (i : Nat) (mode : Nat) : FileSystem :=
  match fs.node? i with
  | some (.file _ bytes) => fs.setNode i (.file mode bytes)
  | _ => fs

def openForWriting (fs : FileSystem) (path : String) (mode : Nat) :
    Except SystemError (Nat × FileSystem) := do
  let (i, fs) ← fs.openForChange path mode
  .ok (i, fs.fillNode i .empty)

def write (fs : FileSystem) (path : String) (bytes : ByteArray) :
    Except SystemError FileSystem := do
  let (i, fs) ← fs.openForWriting path 0o666
  fs.store i bytes

/-- Sets the permission bits of what the path leads to, which only its owner
may do. Those of a directory are not kept. -/
def setMode (fs : FileSystem) (path : String) (mode : Nat) : Except SystemError FileSystem := do
  let i ← fs.locate path
  if fs.owns i then .ok (fs.setNodeMode i mode) else .error .notPermitted

/-- Gives permission bits to what has been opened. Those of a file only its
owner may set; a device keeps its own. -/
def setOpenMode (fs : FileSystem) (i mode : Nat) : Except SystemError FileSystem :=
  match fs.node? i with
  | some (.file _ _) => if fs.owns i then .ok (fs.setNodeMode i mode) else .error .notPermitted
  | _ => .ok fs

def transfer (fs : FileSystem) (source target mode : Nat) : Except SystemError Nat × FileSystem :=
  match fs.setOpenMode target mode with
  | .error e => (.error e, fs)
  | .ok fs =>
    match fs.readNode source with
    | .error e => (.error e, fs)
    | .ok bytes =>
      if bytes.size = 0 then (.ok 0, fs)
      else
        match fs.store target bytes with
        | .error e => (.error e, fs)
        | .ok fs => (.ok bytes.size, fs)

/-- Copies contents and permission bits. The source is opened first, then the
target is opened and emptied, and only then is the source read. -/
def copy (fs : FileSystem) (source target : String) : Except SystemError Nat × FileSystem :=
  match fs.openForReading source with
  | .error e => (.error e, fs)
  | .ok i =>
    match fs.node? i with
    | some (.file mode _) =>
      match fs.openForWriting target mode with
      | .error e => (.error e, fs)
      | .ok (j, fs) => fs.transfer i j mode
    | _ => (.error .notRegular, fs)

def parentOf (fs : FileSystem) (path : String) : Except SystemError (Trail × String) := do
  match refused? path with
  | some e => .error e
  | none =>
    let ns := fs.absoluteNames path
    match ← fs.walk false linkLimit [] ns.dropLast with
    | .found t =>
      if fs.isDirectory t.last then .ok (t, ns.getLastD "") else .error .notDirectory
    | .vacant _ _ => .error .noEntry

def entry? (fs : FileSystem) (dir : Nat) (name : String) : Option Nat :=
  match fs.node? dir with
  | some (.directory entries) => entries.lookup name
  | _ => none

def createNew (fs : FileSystem) (path : String) (mode : Nat) (bytes : ByteArray) :
    Except SystemError FileSystem := do
  let (dir, name) ← fs.parentOf path
  if nameLimit < name.utf8ByteSize then .error .nameTooLong
  else if (fs.entry? dir.last name).isSome then .error .alreadyExists
  else fs.createIn dir.last name mode bytes

def remove (fs : FileSystem) (path : String) : Except SystemError FileSystem := do
  let (dir, name) ← fs.parentOf path
  match fs.entry? dir.last name with
  | none => .error .noEntry
  | some i =>
    if !fs.owns dir.last then .error .accessDenied
    else if fs.isDirectory i then .error .isDirectory
    else .ok (fs.removeEntry dir.last name)

end ImageTools.FileSystem
