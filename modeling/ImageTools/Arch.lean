import ImageTools.SystemError

/-!
# Architectures

The architectures an image can be built for, their tags, and the errors of
choosing an architecture and its tools. A tag is accepted only as a whole
and in its exact spelling.
-/

set_option autoImplicit false

namespace ImageTools

inductive Arch
  /-- 32-bit x86, booted from a floppy image with an IDE disk. -/
  | x86
  /-- 32-bit ARM, a Cortex-A15 on the vexpress-a15 board. -/
  | aarch32
  deriving DecidableEq, Repr

inductive TargetError
  | unsupportedArchitecture (tag : String)
  | missingSetting (field : String)
  /-- The manifest at `path` is not valid, or not of the right shape. -/
  | invalidManifest (path : String)
  | system (error : SystemError)
  deriving DecidableEq, Repr

namespace Arch

def all : List Arch := [.x86, .aarch32]

def tag : Arch → String
  | .x86 => "x86"
  | .aarch32 => "aarch32"

def ofTag? (text : String) : Option Arch := all.find? fun a => a.tag == text

def require (text : String) : Except TargetError Arch :=
  match ofTag? text with
  | some arch => .ok arch
  | none => .error (.unsupportedArchitecture text)

theorem ofTag?_tag (a : Arch) : ofTag? a.tag = some a := by cases a <;> rfl

theorem ofTag?_eq_some (text : String) (a : Arch) : ofTag? text = some a ↔ text = a.tag := by
  constructor
  · intro h
    have := List.find?_some h
    simpa using (beq_iff_eq.1 this).symm
  · intro h; subst h; exact ofTag?_tag a

end Arch

namespace TargetError

def message : TargetError → String
  | .unsupportedArchitecture tag =>
    "unsupported architecture: '" ++ tag ++ "' (supported: x86, aarch32)"
  | .missingSetting field => "missing required config field: " ++ field
  | .invalidManifest path => "TOML parse error in " ++ path
  | .system error => "I/O error: " ++ error.message

def chain : TargetError → List String
  | .system error => [message (.system error), error.message]
  | error => [error.message]

def isUnsupportedArchitecture : TargetError → Bool
  | .unsupportedArchitecture _ => true
  | _ => false

end TargetError

end ImageTools
