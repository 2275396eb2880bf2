import ImageTools.Settings

/-!
# Archivers

The program that combines static libraries for an architecture, and the
libraries that go into every archive after the caller's own.
-/

set_option autoImplicit false

namespace ImageTools

structure Archiver where
  program : String
  runtimeLibs : List String
  deriving DecidableEq, Repr

namespace Archiver

def defaultProgram : Arch → String
  | .x86 => "i686-elf-ar"
  | .aarch32 => "arm-none-eabi-ar"

def ofArch (arch : Arch) (s : Settings) : Except TargetError Archiver :=
  match arch with
  | .x86 => .ok { program := defaultProgram .x86, runtimeLibs := [] }
  | .aarch32 => do
    let lib ← s.runtimeLibPath
    .ok { program := defaultProgram .aarch32, runtimeLibs := [lib] }

end Archiver

end ImageTools
