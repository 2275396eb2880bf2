import ImageTools.Arch
import ImageTools.Path

/-!
# Host settings

Where the cross toolchain and the emulator are on this host. Settings come
from a manifest, from the environment and from flags; each later layer only
overrides what it sets.
-/

set_option autoImplicit false

namespace ImageTools

structure Settings where
  /-- Root of the cross toolchain. -/
  toolchainRoot : Option String := none
  /-- Runtime library, below the toolchain root unless absolute. -/
  runtimeLib : Option String := none
  /-- Emulator program in place of the architecture's own. -/
  emulator : Option String := none
  deriving DecidableEq, Repr

abbrev Environment := String → Option String

namespace Settings

def rootVariable : String := "XOS_TOOLCHAIN_ROOT"

def emulatorVariable : String := "XOS_EMULATOR_PATH"

def defaultRuntimeLib : String := "lib/gcc/arm-none-eabi/9.2.1/libgcc.a"

def nonEmpty? (env : Environment) (name : String) : Option String :=
  (env name).filter (· ≠ "")

def withEnvironment (s : Settings) (env : Environment) : Settings :=
  { s with
    toolchainRoot := nonEmpty? env rootVariable <|> s.toolchainRoot
    emulator := nonEmpty? env emulatorVariable <|> s.emulator }

def withFlags (s : Settings) (root emulator : Option String) : Settings :=
  { s with
    toolchainRoot := root <|> s.toolchainRoot
    emulator := emulator <|> s.emulator }

def runtimeLibPath (s : Settings) : Except TargetError String :=
  match s.toolchainRoot with
  | none => .error (.missingSetting "toolchain_root")
  | some root => .ok (Path.join root (s.runtimeLib.getD defaultRuntimeLib))

end Settings

end ImageTools
