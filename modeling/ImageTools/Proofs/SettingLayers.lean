import ImageTools.Manifest

/-!
# Layers of settings

The nearest manifest gives the lowest layer. A nearest manifest that is of no
use ends the search and the whole resolution: nothing above it, in no layer and
in no directory further up, takes its place. Otherwise each setting is decided
on its own, by its flag, its variable and its place in the manifest.
-/

set_option autoImplicit false

namespace ImageTools.Manifest

/-! ## The manifest that counts -/

/-- The manifest of the first directory upwards that has one. What is in the
directories above it is left open. -/
def Nearest (fs : FileSystem) (start path : String) : Prop :=
  ∃ below dir above, Path.ancestors start = below ++ dir :: above ∧ path = candidate dir ∧
    fs.isFile path = true ∧ ∀ d ∈ below, fs.isFile (candidate d) = false

theorem find_nearest (fs : FileSystem) (start path : String) :
    find fs start = some path ↔ Nearest fs start path := by
  rw [find, List.find?_eq_some_iff_append]
  constructor
  · rintro ⟨hfile, below, above, hchain, hbelow⟩
    obtain ⟨dirs, rest, hsplit, rfl, hrest⟩ := List.map_eq_append_iff.1 hchain
    obtain ⟨dir, higher, rfl, rfl, -⟩ := List.map_eq_cons_iff.1 hrest
    refine ⟨dirs, dir, higher, hsplit, rfl, hfile, fun d hd => ?_⟩
    simpa using hbelow (candidate d) (List.mem_map_of_mem hd)
  · rintro ⟨below, dir, above, hchain, rfl, hfile, hbelow⟩
    refine ⟨hfile, below.map candidate, above.map candidate, by simp [hchain], ?_⟩
    intro c hc
    obtain ⟨d, hd, rfl⟩ := List.mem_map.1 hc
    simp [hbelow d hd]

inductive Broken (fs : FileSystem) (path : String) : TargetError → Prop
  | unreadable {e : SystemError} : fs.readText path = .error e → Broken fs path (.system e)
  | noDocument {text : String} : fs.readText path = .ok text → Toml.parse text = none →
      Broken fs path (.invalidManifest path)
  | misshapen {text : String} {document : Toml.Entries} : fs.readText path = .ok text →
      Toml.parse text = some document → settings? document = none →
      Broken fs path (.invalidManifest path)

def Gives (fs : FileSystem) (path : String) (s : Settings) : Prop :=
  ∃ text document, fs.readText path = .ok text ∧ Toml.parse text = some document ∧
    settings? document = some s

theorem load_broken (fs : FileSystem) (path : String) (e : TargetError) (h : Broken fs path e) :
    load fs path = .error e := by
  cases h with
  | unreadable hread => simp [load, hread]
  | noDocument hread hparse => simp [load, hread, hparse]
  | misshapen hread hparse hshape => simp [load, hread, hparse, hshape]

theorem load_gives (fs : FileSystem) (path : String) (s : Settings) (h : Gives fs path s) :
    load fs path = .ok s := by
  obtain ⟨text, document, hread, hparse, hsettings⟩ := h
  simp [load, hread, hparse, hsettings]

/-- There is no third kind of manifest. -/
theorem broken_or_gives (fs : FileSystem) (path : String) :
    (∃ e, Broken fs path e) ∨ ∃ s, Gives fs path s := by
  cases hread : fs.readText path with
  | error e => exact Or.inl ⟨_, .unreadable hread⟩
  | ok text =>
    cases hparse : Toml.parse text with
    | none => exact Or.inl ⟨_, .noDocument hread hparse⟩
    | some document =>
      cases hsettings : settings? document with
      | none => exact Or.inl ⟨_, .misshapen hread hparse hsettings⟩
      | some s => exact Or.inr ⟨s, text, document, hread, hparse, hsettings⟩

/-! ## The layers of one setting -/

/-- The value of a setting by its flag, its variable and the manifest. An empty
variable says nothing; an empty flag, or an empty text in the manifest, does. -/
inductive Chosen (flag inherited written : Option String) : Option String → Prop
  | byFlag {v : String} : flag = some v → Chosen flag inherited written (some v)
  | byVariable {v : String} : flag = none → inherited = some v → v ≠ "" →
      Chosen flag inherited written (some v)
  | byManifest : flag = none → inherited = none ∨ inherited = some "" →
      Chosen flag inherited written written

/-- Exactly one value is chosen. -/
theorem chosen_iff (flag inherited written v : Option String) :
    (flag <|> inherited.filter (· ≠ "") <|> written) = v ↔ Chosen flag inherited written v := by
  constructor
  · rintro rfl
    cases flag with
    | some f => exact .byFlag rfl
    | none =>
      cases inherited with
      | none => exact .byManifest rfl (Or.inl rfl)
      | some text =>
        by_cases htext : text = ""
        · subst htext
          exact .byManifest rfl (Or.inr rfl)
        · have hset : (some text).filter (fun v => decide (v ≠ "")) = some text := by
            simp [Option.filter, htext]
          rw [hset]
          exact .byVariable rfl rfl htext
  · intro h
    cases h with
    | byFlag hf => simp [hf]
    | byVariable hf hv hne => simp [hf, hv, hne, Option.filter]
    | byManifest hf hv => rcases hv with hv | hv <;> simp [hf, hv, Option.filter]

/-- The settings `r` that flags and environment make of the settings `s`. -/
structure Layered (flags : Flags) (env : Environment) (s r : Settings) : Prop where
  toolchainRoot : ∀ v, r.toolchainRoot = v ↔
    Chosen flags.toolchainRoot (env Settings.rootVariable) s.toolchainRoot v
  emulator : ∀ v, r.emulator = v ↔
    Chosen flags.emulator (env Settings.emulatorVariable) s.emulator v
  runtimeLib : r.runtimeLib = s.runtimeLib

theorem layered (flags : Flags) (env : Environment) (s : Settings) :
    Layered flags env s ((s.withEnvironment env).withFlags flags.toolchainRoot flags.emulator) :=
  ⟨fun v => chosen_iff _ _ _ v, fun v => chosen_iff _ _ _ v, rfl⟩

/-! ## All layers -/

/-- The nearest manifest decides whether there are settings at all; each layer
above it decides only about what it gives itself. -/
theorem resolve_precedence (fs : FileSystem) (start : String) (flags : Flags) (env : Environment) :
    (∀ path, find fs start = some path ↔ Nearest fs start path) ∧
    (∀ path, find fs start = some path → (∃ e, Broken fs path e) ∨ ∃ s, Gives fs path s) ∧
    (∀ path e, find fs start = some path → Broken fs path e →
      resolve fs start flags env = .error { path := path, cause := e }) ∧
    (∀ path s, find fs start = some path → Gives fs path s →
      ∃ r, resolve fs start flags env = .ok { settings := r, manifest := some path } ∧
        Layered flags env s r) ∧
    (find fs start = none →
      ∃ r, resolve fs start flags env = .ok { settings := r, manifest := none } ∧
        Layered flags env {} r) := by
  refine ⟨find_nearest fs start, fun path _ => broken_or_gives fs path, ?_, ?_, ?_⟩
  · intro path e hfind hbroken
    simp only [resolve, hfind, load_broken fs path e hbroken]
  · intro path s hfind hgives
    refine ⟨_, ?_, layered flags env s⟩
    simp only [resolve, hfind, load_gives fs path s hgives]
  · intro hfind
    refine ⟨_, ?_, layered flags env {}⟩
    simp only [resolve, hfind]

def twoManifests : FileSystem where
  nodes := #[.directory [("xos-build.toml", 1), ("a", 2)],
    .file 0o644 "[toolchain]\nroot = \"/r\"\nruntime-lib = \"c.a\"\n".toUTF8,
    .directory [("xos-build.toml", 3)], .file 0o644 "=".toUTF8]
  workDir := "/"

/-- The flag wins over the variable, and the variable over the manifest; a flag and a manifest
further up are of no help below. -/
theorem twoManifests_resolved :
    let flags : Flags := { emulator := some "/f" }
    let env : Environment := fun _ => some "/v"
    find twoManifests "/" = some "/xos-build.toml" ∧
    resolve twoManifests "/" flags env = .ok {
      settings := { toolchainRoot := some "/v", runtimeLib := some "c.a", emulator := some "/f" }
      manifest := some "/xos-build.toml" } ∧
    find twoManifests "/a" = some "/a/xos-build.toml" ∧
    resolve twoManifests "/a" flags env =
      .error { path := "/a/xos-build.toml", cause := .invalidManifest "/a/xos-build.toml" } := by
  intro flags env
  obtain ⟨-, -, -, hgives, -⟩ := resolve_precedence twoManifests "/" flags env
  obtain ⟨-, -, hbroken, -, -⟩ := resolve_precedence twoManifests "/a" flags env
  have hfind : find twoManifests "/" = some "/xos-build.toml" := by decide +kernel
  have hfind' : find twoManifests "/a" = some "/a/xos-build.toml" := by decide +kernel
  have hgiven : Gives twoManifests "/xos-build.toml"
      { toolchainRoot := some "/r", runtimeLib := some "c.a" } := ⟨_, _, rfl, rfl, rfl⟩
  have hworse : Broken twoManifests "/a/xos-build.toml" (.invalidManifest "/a/xos-build.toml") :=
    .noDocument rfl rfl
  obtain ⟨⟨root, lib, emulator⟩, hr, hroot, hemulator, rfl⟩ := hgives _ _ hfind hgiven
  obtain rfl := (hroot (some "/v")).2 (.byVariable rfl rfl (by decide))
  obtain rfl := (hemulator (some "/f")).2 (.byFlag rfl)
  exact ⟨hfind, hr, hfind', hbroken _ _ hfind' hworse⟩

end ImageTools.Manifest
