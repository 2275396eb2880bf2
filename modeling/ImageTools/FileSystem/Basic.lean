import ImageTools.Path
import ImageTools.SystemError

/-!
# File systems

A file system is a table of nodes. Directories name nodes, and a node that
several names lead to is one file with several hard links; symbolic links
hold a path. Node 0 is the root. Relative paths start at the working
directory, which is kept as an absolute path.

The first nodes belong to the system and the others to the caller. The
owner's permission bits hold for the caller's files, the last three bits for
the system's files. Every directory can be searched and read, and only the
caller's own can be changed.
-/

set_option autoImplicit false

namespace ImageTools

instance decidableEqBytes : DecidableEq ByteArray := ByteArray.instDecidableEq

inductive Device
  /-- Always empty; what is written to it is lost. -/
  | null
  /-- Has no room for anything that is written to it. -/
  | full
  /-- Cannot be opened by a process without a terminal. -/
  | terminal
  /-- Whatever the process that opens it has under this number. -/
  | standard (descriptor : Nat)
  deriving DecidableEq, Repr

inductive Node
  | directory (entries : List (String × Nat))
  | file (mode : Nat) (bytes : ByteArray)
  | link (target : String)
  | device (d : Device)
  deriving DecidableEq

structure FileSystem where
  nodes : Array Node
  workDir : String
  /-- How many of the first nodes belong to the system. -/
  foreign : Nat := 0
  /-- The permission bits that new files do not get. -/
  mask : Nat := 0o022
  deriving DecidableEq

namespace FileSystem

def empty : FileSystem := { nodes := #[.directory []], workDir := "/" }

def node? (fs : FileSystem) (i : Nat) : Option Node := fs.nodes[i]?

def isDirectory (fs : FileSystem) (i : Nat) : Bool :=
  match fs.node? i with
  | some (.directory _) => true
  | _ => false

def setNode (fs : FileSystem) (i : Nat) (n : Node) : FileSystem :=
  { fs with nodes := fs.nodes.setIfInBounds i n }

theorem node?_setNode_self (fs : FileSystem) (i : Nat) (n : Node) (h : i < fs.nodes.size) :
    (fs.setNode i n).node? i = some n := by
  simp [node?, setNode, h]

theorem node?_setNode_ne (fs : FileSystem) (i j : Nat) (n : Node) (h : i ≠ j) :
    (fs.setNode i n).node? j = fs.node? j := by
  simp [node?, setNode, h]

def addEntry (fs : FileSystem) (dir : Nat) (name : String) (i : Nat) : FileSystem :=
  match fs.node? dir with
  | some (.directory entries) => fs.setNode dir (.directory (entries ++ [(name, i)]))
  | _ => fs

def addNode (fs : FileSystem) (dir : Nat) (name : String) (n : Node) : FileSystem :=
  { fs with nodes := fs.nodes.push n }.addEntry dir name fs.nodes.size

def removeEntry (fs : FileSystem) (dir : Nat) (name : String) : FileSystem :=
  match fs.node? dir with
  | some (.directory entries) => fs.setNode dir (.directory (entries.filter fun e => e.1 != name))
  | _ => fs

def owns (fs : FileSystem) (i : Nat) : Bool := fs.foreign ≤ i

def rights (fs : FileSystem) (i mode : Nat) : Nat :=
  if fs.owns i then mode / 64 % 8 else mode % 8

def mayRead (fs : FileSystem) (i mode : Nat) : Bool := fs.rights i mode &&& 4 != 0

def mayWrite (fs : FileSystem) (i mode : Nat) : Bool := fs.rights i mode &&& 2 != 0

def mayExecute (fs : FileSystem) (i mode : Nat) : Bool := fs.rights i mode &&& 1 != 0

def masked (fs : FileSystem) (mode : Nat) : Nat := mode &&& (0o7777 ^^^ fs.mask)

/-- The permission bits after a change of the contents: a program that runs
in its owner's or its group's name loses that right. -/
def withoutPrivilege (mode : Nat) : Nat :=
  mode &&& (if mode &&& 0o010 = 0 then 0o3777 else 0o1777)

end FileSystem

end ImageTools
