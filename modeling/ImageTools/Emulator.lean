import ImageTools.Settings

/-!
# Emulator commands

Each architecture boots on one fixed machine: memory, disk, console and, on
ARM, the kernel. Only the program can be configured.
-/

set_option autoImplicit false

namespace ImageTools

structure Emulator where
  program : String
  args : List String
  deriving DecidableEq, Repr

namespace Emulator

def debugPort : Nat := 1234

def defaultProgram : Arch → String
  | .x86 => "qemu-system-i386"
  | .aarch32 => "qemu-system-arm"

def kernelPath (out : String) : String := out ++ "/base/boot/kernel.bin"

def diskImagePath (out : String) : String := out ++ "/one.img"

def floppyImagePath (out : String) : String := out ++ "/os-image.bin"

def machine (arch : Arch) (out : String) : List String :=
  match arch with
  | .x86 =>
    ["-m", "256M", "-fda", floppyImagePath out, "-device", "piix3-ide,id=ide",
      "-drive", "id=disk,file=" ++ diskImagePath out ++ ",if=none",
      "-device", "ide-drive,drive=disk,bus=ide.0", "-serial", "mon:stdio",
      "-rtc", "base=utc", "-vga", "std"]
  | .aarch32 =>
    ["-M", "vexpress-a15", "-cpu", "cortex-a15", "-kernel", kernelPath out,
      "-serial", "mon:stdio", "-vga", "std", "-sd", diskImagePath out]

def ofArch (arch : Arch) (out : String) (s : Settings) : Emulator :=
  { program := s.emulator.getD (defaultProgram arch), args := machine arch out }

def withDebugStub (e : Emulator) : Emulator :=
  { e with args := e.args ++ ["-s", "-S"] }

def words (e : Emulator) : List String := e.program :: e.args

end Emulator

end ImageTools
