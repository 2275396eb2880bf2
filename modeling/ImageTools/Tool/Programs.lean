import ImageTools.FileSystem.Tree

/-!
# Programs that every system has

The shell and the program that copies its input are files like others, which
are known by what they hold. With them come the devices.
-/

set_option autoImplicit false

namespace ImageTools.Tool

inductive Native
  | shell
  | concatenate
  deriving DecidableEq, Repr

namespace Native

def image : Native → ByteArray
  | .shell => ⟨#[127, 69, 76, 70, 255, 1]⟩
  | .concatenate => ⟨#[127, 69, 76, 70, 255, 2]⟩

def ofBytes? (bytes : ByteArray) : Option Native :=
  if bytes = image .shell then some .shell
  else if bytes = image .concatenate then some .concatenate
  else none

theorem ofBytes?_image (n : Native) : ofBytes? n.image = some n := by
  cases n <;> decide

end Native

def systemItems : List (String × FileSystem.Item) :=
  [("/usr/bin/dash", .file 0o755 (Native.image .shell)),
    ("/usr/bin/sh", .link "dash"),
    ("/usr/bin/cat", .file 0o755 (Native.image .concatenate)),
    ("/bin", .link "usr/bin"),
    ("/dev/null", .device .null),
    ("/dev/full", .device .full),
    ("/dev/tty", .device .terminal),
    ("/dev/stdin", .device (.standard 0)),
    ("/dev/stdout", .device (.standard 1)),
    ("/dev/stderr", .device (.standard 2))] ++
  (List.range 10).map fun n => ("/dev/fd/" ++ toString n, .device (.standard n))

def systemFiles : FileSystem := FileSystem.empty.place systemItems

def filesFor (dir : String) : FileSystem :=
  let fs := systemFiles.place [(dir, .directory)]
  { fs with foreign := systemFiles.nodes.size, workDir := dir }

end ImageTools.Tool
