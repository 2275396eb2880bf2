import ImageTools.FileSystem.Access
import ImageTools.Text.Bytewise

/-!
# What processes share

All processes see one file system. What they read and write they reach
through channels: a channel leads to a file, with the place in it where the
next byte is read or written, or to a pipe, or nowhere. A process knows
channels by small numbers of its own, so that several processes, and several
numbers of one process, can go through one channel and share its place.

Paths and words of processes are bytewise texts.
-/

set_option autoImplicit false

namespace ImageTools

inductive Channel.Target
  | null
  | full
  /-- What was written to the pipe, and how much of it has been read. -/
  | pipe (bytes : ByteArray) (taken : Nat)
  | node (node offset : Nat)
  deriving DecidableEq

structure Channel.Use where
  reads : Bool := false
  writes : Bool := false
  atEnd : Bool := false
  deriving DecidableEq, Repr

structure Channel where
  target : Channel.Target
  use : Channel.Use
  deriving DecidableEq

abbrev Descriptors := List (Nat × Nat)

namespace Descriptors

def get? (ds : Descriptors) (n : Nat) : Option Nat := ds.lookup n

def close (ds : Descriptors) (n : Nat) : Descriptors := ds.filter fun d => d.1 != n

def set (ds : Descriptors) (n channel : Nat) : Descriptors := (n, channel) :: ds.close n

def restore (ds before : Descriptors) (n : Nat) : Descriptors :=
  match before.get? n with
  | some channel => ds.set n channel
  | none => ds.close n

end Descriptors

structure System where
  files : FileSystem
  channels : Array Channel := #[]
  /-- The number the next process gets. -/
  nextProcess : Nat := 1000
  /-- The processes that have not ended. -/
  alive : List Nat := []
  /-- Signals on their way, oldest first: the process and the signal. -/
  signals : List (Nat × Nat) := []

namespace System

def channel? (s : System) (c : Nat) : Option Channel := s.channels[c]?

def target? (s : System) (c : Nat) : Option Channel.Target :=
  match s.channel? c with
  | some channel => some channel.target
  | none => none

def setTarget (s : System) (c : Nat) (target : Channel.Target) : System :=
  match s.channel? c with
  | some channel =>
    { s with channels := s.channels.setIfInBounds c { channel with target := target } }
  | none => s

def addChannel (s : System) (channel : Channel) : Nat × System :=
  (s.channels.size, { s with channels := s.channels.push channel })

def addPipe (s : System) (bytes : ByteArray) : Nat × System :=
  s.addChannel { target := .pipe bytes 0, use := { reads := true, writes := true } }

def addText (s : System) (bytes : ByteArray) : Nat × System :=
  s.addChannel { target := .pipe bytes 0, use := { reads := true } }

def addNull (s : System) : Nat × System :=
  s.addChannel { target := .null, use := { reads := true } }

def newProcess (s : System) : Nat × System :=
  (s.nextProcess, { s with nextProcess := s.nextProcess + 1, alive := s.nextProcess :: s.alive })

def endProcess (s : System) (process : Nat) : System :=
  { s with
    alive := s.alive.filter (· != process)
    signals := s.signals.filter fun p => p.1 != process }

def send (s : System) (process signal : Nat) : System :=
  { s with signals := s.signals ++ [(process, signal)] }

def signalsTo (s : System) (process : Nat) : List Nat :=
  (s.signals.filter fun p => p.1 == process).map (·.2)

def dropSignal (s : System) (process signal : Nat) : System :=
  { s with signals := s.signals.filter (· != (process, signal)) }

/-- What another process has left, seen from where this one works. -/
def seenFrom (after before : System) : System :=
  { after with
    files := { after.files with workDir := before.files.workDir, mask := before.files.mask } }

inductive Opening
  | input
  /-- From the start, and what the file held is gone. -/
  | output
  /-- Like `output`, but only if no file is there. -/
  | fresh
  | append
  /-- For reading and writing, from the start. -/
  | update
  deriving DecidableEq, Repr

def Opening.use : Opening → Channel.Use
  | .input => { reads := true }
  | .output => { writes := true }
  | .fresh => { writes := true }
  | .append => { writes := true, atEnd := true }
  | .update => { reads := true, writes := true }

def openNode (fs : FileSystem) (path : String) (o : Opening) :
    Except SystemError (Nat × FileSystem) :=
  match o with
  | .input => (fs.openForReading path).map (·, fs)
  | .output => fs.openForWriting path 0o666
  | .fresh =>
    match fs.reach true path with
    | .ok (.found t) =>
      match fs.node? t.last with
      | some (.device _) => fs.openForChange path 0o666
      | _ => .error .alreadyExists
    | _ => fs.openForWriting path 0o666
  | .append => fs.openForChange path 0o666
  | .update => fs.openForChange path 0o666

def openPath (s : System) (own : Descriptors) (path : String) (o : Opening) :
    Except SystemError (Nat × System) := do
  let (i, files) ← openNode s.files (Text.gather path) o
  match files.node? i with
  | some (.device (.standard n)) =>
    match own.get? n with
    | none => .error .noEntry
    | some c =>
      match s.target? c with
      | some (.node j _) =>
        let files := if o = .output then s.files.fillNode j .empty else s.files
        .ok ({ s with files := files }.addChannel { target := .node j 0, use := o.use })
      | _ => .ok (c, s)
  | some (.device .null) => .ok (s.addChannel { target := .null, use := o.use })
  | some (.device .full) => .ok (s.addChannel { target := .full, use := o.use })
  | _ => .ok ({ s with files := files }.addChannel { target := .node i 0, use := o.use })

def overwrite (old : ByteArray) (offset : Nat) (bytes : ByteArray) : ByteArray :=
  let gap := ByteArray.mk (Array.replicate (offset - old.size) 0)
  old.extract 0 offset ++ gap ++ bytes ++ old.extract (offset + bytes.size) old.size

def write (s : System) (c : Nat) (bytes : ByteArray) : Except SystemError System :=
  match s.channel? c with
  | none => .error .badDescriptor
  | some channel =>
    if !channel.use.writes then .error .badDescriptor
    else if bytes.isEmpty then .ok s
    else
      match channel.target with
      | .null => .ok s
      | .full => .error .noSpace
      | .pipe old taken => .ok (s.setTarget c (.pipe (old ++ bytes) taken))
      | .node i offset =>
        match s.files.node? i with
        | some (.file _ old) =>
          let offset := if channel.use.atEnd then old.size else offset
          let files := s.files.fillNode i (overwrite old offset bytes)
          .ok ({ s with files := files }.setTarget c (.node i (offset + bytes.size)))
        | _ => .ok s

/-- What a channel still has to read, and the channel when that is read up
to the given number of bytes. -/
def unread (s : System) (c : Nat) : Except SystemError (ByteArray × (Nat → Channel.Target)) :=
  match s.channel? c with
  | none => .error .badDescriptor
  | some channel =>
    if !channel.use.reads then .error .badDescriptor
    else
      match channel.target with
      | .null => .ok (.empty, fun _ => .null)
      | .full => .ok (.empty, fun _ => .full)
      | .pipe bytes taken =>
        .ok (bytes.extract taken bytes.size, fun n => .pipe bytes (taken + n))
      | .node i offset =>
        match s.files.readNode i with
        | .ok bytes => .ok (bytes.extract offset bytes.size, fun n => .node i (offset + n))
        | .error e => .error e

def readAll (s : System) (c : Nat) : Except SystemError (ByteArray × System) := do
  let (bytes, rest) ← s.unread c
  .ok (bytes, s.setTarget c (rest bytes.size))

def skip (s : System) (c n : Nat) : System :=
  match s.unread c with
  | .ok (_, rest) => s.setTarget c (rest n)
  | .error _ => s

end System

inductive Ending
  | exited (code : Nat)
  | killed (signal : Nat)
  deriving DecidableEq, Repr

structure Process where
  number : Nat
  parent : Nat
  words : List String
  env : List (String × String)
  descriptors : Descriptors
  ignored : List Nat := []

end ImageTools
