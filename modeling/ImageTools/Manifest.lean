import ImageTools.FileSystem.Access
import ImageTools.Settings
import ImageTools.Toml.Document

/-!
# Manifests

A manifest is a configuration document with a `toolchain` and an `emulator`
section. The nearest one, searched from a directory upwards, is the lowest
layer of the settings.
-/

set_option autoImplicit false

namespace ImageTools.Manifest

def fileName : String := "xos-build.toml"

def text? : Option Toml.Value → Option (Option String)
  | none => some none
  | some (.string text) => some (some text)
  | some _ => none

/-- The fields of a section by their names. A section may also be a list of
its fields in order; a date or a time has none of them. -/
def fields (names : List String) : Option Toml.Value → Option (List (Option String))
  | none => some (names.map fun _ => none)
  | some (.table _ es) => names.mapM fun name => text? (es.lookup name)
  | some (.array items) => names.zipIdx.mapM fun n => text? items[n.2]?
  | some (.moment _) => some (names.map fun _ => none)
  | some _ => none

def settings? (document : Toml.Entries) : Option Settings := do
  let toolchain ← fields ["root", "runtime-lib"] (document.lookup "toolchain")
  let emulator ← fields ["path"] (document.lookup "emulator")
  some
    { toolchainRoot := (toolchain[0]?).join
      runtimeLib := (toolchain[1]?).join
      emulator := (emulator[0]?).join }

def load (fs : FileSystem) (path : String) : Except TargetError Settings :=
  match fs.readText path with
  | .error e => .error (.system e)
  | .ok text =>
    match (Toml.parse text).bind settings? with
    | some s => .ok s
    | none => .error (.invalidManifest path)

def candidate (dir : String) : String := Path.join dir fileName

def find (fs : FileSystem) (start : String) : Option String :=
  ((Path.ancestors start).map candidate).find? fs.isFile

structure Resolved where
  settings : Settings
  manifest : Option String
  deriving DecidableEq, Repr

structure LoadError where
  path : String
  cause : TargetError
  deriving DecidableEq, Repr

namespace LoadError

def chain (e : LoadError) : List String := ("loading " ++ e.path) :: e.cause.chain

end LoadError

structure Flags where
  toolchainRoot : Option String := none
  emulator : Option String := none
  deriving DecidableEq, Repr

def resolve (fs : FileSystem) (start : String) (flags : Flags) (env : Environment) :
    Except LoadError Resolved :=
  let layer (s : Settings) := (s.withEnvironment env).withFlags flags.toolchainRoot flags.emulator
  match find fs start with
  | none => .ok { settings := layer {}, manifest := none }
  | some path =>
    match load fs path with
    | .ok s => .ok { settings := layer s, manifest := some path }
    | .error e => .error { path := path, cause := e }

end ImageTools.Manifest
