import ImageTools.Manifest
import ImageTools.Proofs.DocumentText
import ImageTools.Proofs.Writing

/-!
# Manifests that are written and loaded

The settings are written as the fields of two sections, each field only if it is
set and a section without fields perhaps not at all. Whatever the texts of the
fields are, loading the manifest gives those settings again: what was set to the
empty text is not what was not set, and no field takes another's place.
-/

set_option autoImplicit false

namespace ImageTools.Manifest

open Toml (Bare Lines Section)

/-! ## Sections -/

def field (key : String) (value : Option String) : List (String × String) :=
  (value.map fun text => (key, text)).toList

theorem mem_field {key : String} {value : Option String} {f : String × String}
    (h : f ∈ field key value) : f.1 = key := by
  cases value with
  | none => simp [field] at h
  | some text =>
    obtain rfl : f = (key, text) := by simpa [field] using h
    rfl

def toolchainSection (s : Settings) : Section where
  name := "toolchain"
  fields := field "root" s.toolchainRoot ++ field "runtime-lib" s.runtimeLib
  bare := by simp [Bare, Toml.isBareKeyChar]
  keys := by
    intro f hf
    rcases List.mem_append.1 hf with h | h <;> rw [mem_field h] <;> simp [Bare, Toml.isBareKeyChar]
  distinct := by
    cases s.toolchainRoot <;> cases s.runtimeLib <;> simp [field]

def emulatorSection (s : Settings) : Section where
  name := "emulator"
  fields := field "path" s.emulator
  bare := by simp [Bare, Toml.isBareKeyChar]
  keys := by
    intro f hf
    rw [mem_field hf]
    simp [Bare, Toml.isBareKeyChar]
  distinct := by
    cases s.emulator <;> simp [field]

inductive Kept (s : Section) : List Section → Prop
  | written : Kept s [s]
  | omitted : s.fields = [] → Kept s []

/-- The text is a manifest that gives the settings. -/
def Written (s : Settings) (text : String) : Prop :=
  ∃ toolchain emulator, Kept (toolchainSection s) toolchain ∧ Kept (emulatorSection s) emulator ∧
    Lines ((toolchain ++ emulator).flatMap Section.expressions) text.toList

theorem Kept.lookup_other {s : Section} {kept : List Section} (h : Kept s kept) (name : String)
    (hname : name ≠ s.name) : (kept.map Section.entry).lookup name = none := by
  cases h with
  | written => simp [Section.entry, hname]
  | omitted _ => rfl

theorem Kept.toolchain_fields {s : Settings} {kept : List Section}
    (h : Kept (toolchainSection s) kept) :
    fields ["root", "runtime-lib"] ((kept.map Section.entry).lookup "toolchain") =
      some [s.toolchainRoot, s.runtimeLib] := by
  obtain ⟨root, lib, emulator⟩ := s
  cases h with
  | written => cases root <;> cases lib <;> rfl
  | omitted hnone =>
    obtain ⟨hroot, hlib⟩ := List.append_eq_nil_iff.1 hnone
    cases root with
    | some root => simp [field] at hroot
    | none =>
      cases lib with
      | some lib => simp [field] at hlib
      | none => rfl

theorem Kept.emulator_fields {s : Settings} {kept : List Section}
    (h : Kept (emulatorSection s) kept) :
    fields ["path"] ((kept.map Section.entry).lookup "emulator") = some [s.emulator] := by
  obtain ⟨root, lib, emulator⟩ := s
  cases h with
  | written => cases emulator <;> rfl
  | omitted hnone =>
    cases emulator with
    | some emulator => simp [emulatorSection, field] at hnone
    | none => rfl

theorem settings?_kept {s : Settings} {toolchain emulator : List Section}
    (htoolchain : Kept (toolchainSection s) toolchain)
    (hemulator : Kept (emulatorSection s) emulator) :
    settings? ((toolchain ++ emulator).map Section.entry) = some s := by
  have hfirst := htoolchain.toolchain_fields
  have hsecond := hemulator.emulator_fields
  have hother := htoolchain.lookup_other "emulator" (show "emulator" ≠ "toolchain" by decide)
  have hother' := hemulator.lookup_other "toolchain" (show "toolchain" ≠ "emulator" by decide)
  simp only [settings?, List.map_append, List.lookup_append, hother, hother', Option.or_none,
    Option.none_or, hfirst, hsecond]
  rfl

theorem parse_written {s : Settings} {text : String} (h : Written s text) :
    (Toml.parse text).bind settings? = some s := by
  obtain ⟨toolchain, emulator, htoolchain, hemulator, hlines⟩ := h
  have hdistinct : ((toolchain ++ emulator).map Section.name).Nodup := by
    cases htoolchain <;> cases hemulator <;> simp [toolchainSection, emulatorSection]
  rw [Toml.parse_sections _ hdistinct hlines, Option.bind_some]
  exact settings?_kept htoolchain hemulator

/-! ## A manifest for any settings -/

def write (s : Settings) : String :=
  String.ofList ((toolchainSection s).text ++ (emulatorSection s).text)

theorem written_write (s : Settings) : Written s (write s) := by
  refine ⟨[toolchainSection s], [emulatorSection s], .written, .written, ?_⟩
  rw [write, String.toList_ofList]
  simpa using (toolchainSection s).lines_text.append (emulatorSection s).lines_text

/-- Every setting survives its manifest. There is one for any settings, and
every one is loaded as exactly the settings that were written. -/
theorem load_written (s : Settings) :
    Written s (write s) ∧
    ∀ text, Written s text → ∀ (fs : FileSystem) (path : String),
      fs.read path = .ok text.toUTF8 → load fs path = .ok s := by
  refine ⟨written_write s, fun text hwritten fs path hread => ?_⟩
  simp only [load, FileSystem.readText_of_read fs path text hread, parse_written hwritten]

def markedSettings : Settings := { toolchainRoot := some "a\"\\\n", emulator := some "" }

def markedHost : FileSystem where
  nodes := #[.directory [("xos-build.toml", 1)], .file 0o644 (write markedSettings).toUTF8]
  workDir := "/"

theorem marked_settings_loaded :
    write markedSettings =
      "[toolchain]\nroot = \"a\\\"\\\\\\u000a\"\n[emulator]\npath = \"\"\n" ∧
    markedHost.read "/xos-build.toml" = .ok (write markedSettings).toUTF8 ∧
    load markedHost "/xos-build.toml" = .ok markedSettings := by
  have hread : markedHost.read "/xos-build.toml" = .ok (write markedSettings).toUTF8 := rfl
  refine ⟨by decide +kernel, hread, ?_⟩
  exact (load_written markedSettings).2 _ (written_write markedSettings) _ _ hread

end ImageTools.Manifest
