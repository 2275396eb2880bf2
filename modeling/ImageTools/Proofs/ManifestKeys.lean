import ImageTools.Manifest
import ImageTools.Proofs.ArchiveMerge
import ImageTools.Proofs.DocumentPlaces
import ImageTools.Proofs.SettingLayers

/-!
# The keys of a manifest

A manifest sets a setting by an entry at its place, however the place is spelled
and whatever else stands in the document. It is refused only if a setting that it
gives is of the wrong kind. The name of the runtime library is written with a
dash: the same name with an underscore is one of the keys that say nothing.
-/

set_option autoImplicit false

namespace ImageTools.Manifest
open Toml (Value Entries Expression Says valueAt inside)

/-! ## Fields -/

def IsText (v : Option Value) : Prop := ∀ w, v = some w → ∃ text, w = .string text

/-- A section from which the fields can be read. -/
inductive Fits (names : List String) : Option Value → Prop
  | missing : Fits names none
  | table {origin : Toml.Origin} {es : Entries} : (∀ name ∈ names, IsText (es.lookup name)) →
      Fits names (some (.table origin es))
  | listed {items : List Value} : (∀ k < names.length, IsText items[k]?) →
      Fits names (some (.array items))
  | moment {text : String} : Fits names (some (.moment text))

theorem text?_eq_some_iff (v : Option Value) (r : Option String) :
    text? v = some r ↔ v = r.map .string := by
  cases v with
  | none => cases r <;> simp [text?]
  | some w => cases w <;> cases r <;> simp [text?]

theorem isText_iff (v : Option Value) : IsText v ↔ ∃ r, text? v = some r := by
  simp only [text?_eq_some_iff]
  cases v with
  | none => exact ⟨fun _ => ⟨none, rfl⟩, fun _ w hw => by cases hw⟩
  | some w =>
    constructor
    · intro h
      obtain ⟨text, rfl⟩ := h w rfl
      exact ⟨some text, rfl⟩
    · rintro ⟨r, hr⟩ w' hw
      obtain ⟨text, -, htext⟩ := Option.map_eq_some_iff.1 hr.symm
      exact ⟨text, (Option.some.inj hw).symm.trans htext.symm⟩

section

variable {α β : Type} (f : α → Option β)

theorem mapM_some_iff (xs : List α) :
    (∃ ys, xs.mapM f = some ys) ↔ ∀ x ∈ xs, ∃ y, f x = some y := by
  induction xs with
  | nil => simp
  | cons x xs ih =>
    rw [List.forall_mem_cons, ← ih, List.mapM_cons]
    cases f x with
    | none => simp
    | some y => cases xs.mapM f <;> simp

theorem mapM_getElem? (xs : List α) (ys : List β) (h : xs.mapM f = some ys) (k : Nat) :
    ys[k]? = (xs[k]?).bind f := by
  induction xs generalizing ys k with
  | nil =>
    obtain rfl : [] = ys := by simpa using h
    simp
  | cons x xs ih =>
    rw [List.mapM_cons] at h
    obtain ⟨y, hy, h⟩ := Option.bind_eq_some_iff.1 h
    obtain ⟨rest, hrest, h⟩ := Option.bind_eq_some_iff.1 h
    obtain rfl := Option.some.inj h
    cases k with
    | zero => simp [hy]
    | succ k => simpa using ih rest hrest k

end

theorem fields_iff (names : List String) (v : Option Value) :
    (∃ values, fields names v = some values) ↔ Fits names v := by
  cases v with
  | none => exact ⟨fun _ => .missing, fun _ => ⟨_, rfl⟩⟩
  | some w =>
    cases w with
    | table origin es =>
      simp only [fields, mapM_some_iff, ← isText_iff]
      exact ⟨.table, fun h => by cases h; assumption⟩
    | array items =>
      have hplaces : (∀ n ∈ names.zipIdx, IsText items[n.2]?) ↔
          ∀ k < names.length, IsText items[k]? := by
        constructor
        · intro h k hk
          exact h (names[k], k) (List.mem_zipIdx_iff_getElem?.2 (List.getElem?_eq_getElem hk))
        · rintro h ⟨name, k⟩ hn
          exact h k (List.getElem?_eq_some_iff.1 (List.mem_zipIdx_iff_getElem?.1 hn)).1
      simp only [fields, mapM_some_iff, ← isText_iff, hplaces]
      exact ⟨.listed, fun h => by cases h; assumption⟩
    | moment text => exact ⟨fun _ => .moment, fun _ => ⟨_, rfl⟩⟩
    | _ => exact ⟨nofun, nofun⟩

/-- The field comes from its name in a section, or from its place in a list. -/
theorem fields_value (names : List String) (v : Option Value) (values : List (Option String))
    (h : fields names v = some values) (k : Nat) (name text : String) (hk : names[k]? = some name) :
    (values[k]?).join = some text ↔
      (∃ origin es, v = some (.table origin es) ∧ es.lookup name = some (.string text)) ∨
        ∃ items, v = some (.array items) ∧ items[k]? = some (.string text) := by
  have hmissing : ∀ values, some (names.map fun _ => none) = some values →
      (values[k]?).join ≠ some text := by
    rintro values heq
    obtain rfl := Option.some.inj heq
    rw [List.getElem?_map, hk]
    exact nofun
  have htext : ∀ w, (text? w).join = some text ↔ w = some (.string text) := fun w => by
    rw [Option.join_eq_some_iff, text?_eq_some_iff, Option.map_some]
  cases v with
  | none => simpa using hmissing values h
  | some w =>
    cases w with
    | table origin es =>
      rw [mapM_getElem? _ _ _ h, hk, Option.bind_some, htext]
      refine ⟨fun hlookup => Or.inl ⟨origin, es, rfl, hlookup⟩, ?_⟩
      rintro (⟨_, _, heq, hlookup⟩ | ⟨items, heq, -⟩)
      · cases heq
        exact hlookup
      · cases heq
    | array items =>
      rw [mapM_getElem? _ _ _ h, List.getElem?_zipIdx, hk, Option.map_some, Option.bind_some, htext]
      simp
    | moment text => simpa using hmissing values h
    | _ => cases h

/-! ## Settings -/

theorem settings?_iff (document : Entries) :
    (∃ s, settings? document = some s) ↔
      Fits ["root", "runtime-lib"] (document.lookup "toolchain") ∧
        Fits ["path"] (document.lookup "emulator") := by
  rw [← fields_iff, ← fields_iff, settings?]
  cases fields ["root", "runtime-lib"] (document.lookup "toolchain") with
  | none => simp
  | some toolchain => cases fields ["path"] (document.lookup "emulator") <;> simp

theorem settings?_fields (document : Entries) (s : Settings) (h : settings? document = some s) :
    ∃ toolchain emulator,
      fields ["root", "runtime-lib"] (document.lookup "toolchain") = some toolchain ∧
      fields ["path"] (document.lookup "emulator") = some emulator ∧
      s.toolchainRoot = (toolchain[0]?).join ∧ s.runtimeLib = (toolchain[1]?).join ∧
      s.emulator = (emulator[0]?).join := by
  obtain ⟨toolchain, htoolchain, h⟩ := Option.bind_eq_some_iff.1 h
  obtain ⟨emulator, hemulator, h⟩ := Option.bind_eq_some_iff.1 h
  obtain rfl := Option.some.inj h
  exact ⟨toolchain, emulator, htoolchain, hemulator, rfl, rfl, rfl⟩

theorem valueAt_section (document : Entries) (header : String) :
    valueAt document [header] = document.lookup header := by
  rw [valueAt, inside]
  exact Option.bind_fun_some _

theorem valueAt_field (document : Entries) (header name text : String) :
    valueAt document [header, name] = some (.string text) ↔
      ∃ origin es, document.lookup header = some (.table origin es) ∧
        es.lookup name = some (.string text) := by
  rw [valueAt, inside]
  cases document.lookup header with
  | none => simp
  | some v =>
    cases v with
    | table origin es =>
      have hinside : inside [name] (.table origin es) = es.lookup name := Option.bind_fun_some _
      rw [Option.bind_some, hinside]
      refine ⟨fun h => ⟨origin, es, rfl, h⟩, ?_⟩
      rintro ⟨_, _, heq, h⟩
      cases heq
      exact h
    | _ => simp [inside]

/-- The entries set a field of a section: by its name, or by its place if the
section is a list. -/
def Sets (es : List Expression) (header name : String) (k : Nat) (text : String) : Prop :=
  Says es [header, name] (.string text) ∨
    ∃ items, Says es [header] (.array items) ∧ items[k]? = some (.string text)

/-- A field of a section is what the entries of the document set it to. -/
theorem fields_sets {text : String} {es : List Expression} {document : Entries}
    (hes : Toml.expressionsOf? text = some es) (hdocument : Toml.parse text = some document)
    {names : List String} {header name : String} {k : Nat} {values : List (Option String)}
    (hk : names[k]? = some name) (h : fields names (document.lookup header) = some values)
    (v : String) : (values[k]?).join = some v ↔ Sets es header name k v := by
  have hsays := Toml.document_says text es document hes hdocument
  have hsection : ∀ items, document.lookup header = some (.array items) ↔
      Says es [header] (.array items) := fun items => by
    rw [← hsays [header] (.array items) trivial (by simp), valueAt_section]
  rw [fields_value names _ values h k name v hk, Sets,
    ← hsays [header, name] (.string v) trivial (by simp), valueAt_field]
  simp only [hsection]

/-! ## Manifests -/

/-- A manifest is loaded exactly if each setting that it gives is of the right
kind, and then its settings are those that its entries set, wherever these stand
and whatever stands beside them. So the root and the library that it sets make
the last of the libraries that are merged for ARM. -/
theorem load_sets (fs : FileSystem) (path text : String) (es : List Expression)
    (document : Entries) (hread : fs.readText path = .ok text)
    (hes : Toml.expressionsOf? text = some es) (hdocument : Toml.parse text = some document) :
    ((∃ s, load fs path = .ok s) ↔
      Fits ["root", "runtime-lib"] (document.lookup "toolchain") ∧
        Fits ["path"] (document.lookup "emulator")) ∧
    ∀ s, load fs path = .ok s →
      (∀ v, s.toolchainRoot = some v ↔ Sets es "toolchain" "root" 0 v) ∧
      (∀ v, s.runtimeLib = some v ↔ Sets es "toolchain" "runtime-lib" 1 v) ∧
      (∀ v, s.emulator = some v ↔ Sets es "emulator" "path" 0 v) ∧
      ∀ (m : Merger) (root lib : String), m.settings = s →
        Says es ["toolchain", "root"] (.string root) →
        Says es ["toolchain", "runtime-lib"] (.string lib) →
        ∀ (target first second : String) (more : List String) (h : Host),
          m.Archives .aarch32 target (first :: second :: more ++ [Path.join root lib]) h
            (m.merge Arch.aarch32.tag target (first :: second :: more) h) := by
  have hload : ∀ s, load fs path = .ok s ↔ settings? document = some s := by
    intro s
    simp only [load, hread, hdocument, Option.bind_some]
    cases settings? document <;> simp
  refine ⟨by simp only [hload, settings?_iff], fun s hs => ?_⟩
  obtain ⟨toolchain, emulator, htoolchain, hemulator, hroot, hlib, hprogram⟩ :=
    settings?_fields document s ((hload s).1 hs)
  have hroots : ∀ v, s.toolchainRoot = some v ↔ Sets es "toolchain" "root" 0 v :=
    fun v => hroot ▸ fields_sets hes hdocument rfl htoolchain v
  have hlibs : ∀ v, s.runtimeLib = some v ↔ Sets es "toolchain" "runtime-lib" 1 v :=
    fun v => hlib ▸ fields_sets hes hdocument rfl htoolchain v
  refine ⟨hroots, hlibs, fun v => hprogram ▸ fields_sets hes hdocument rfl hemulator v, ?_⟩
  rintro m root lib rfl hsaysRoot hsaysLib target first second more h
  rw [Merger.merge_several]
  refine Merger.archive_archives m .aarch32 target _ _ h ?_
  rw [Merger.extraLibs, (hroots root).2 (Or.inl hsaysRoot), (hlibs lib).2 (Or.inl hsaysLib)]
  rfl

def spelledText : String :=
  "toolchain = \x7b root = \x27/r\x27, \"runtime-lib\" = \x27lib.a\x27 \x7d\n" ++
    "[[emulators]]\npath = \x27no\x27\n[emulator]\nname = 1\npath = \x27/q\x27\n"

def spelledEntries : List Expression :=
  [.entry ["toolchain"] (.table .closed [("root", .string "/r"), ("runtime-lib", .string "lib.a")]),
    .element ["emulators"], .entry ["path"] (.string "no"),
    .header ["emulator"], .entry ["name"] (.integer 1), .entry ["path"] (.string "/q")]

theorem spelled_expressions : Toml.expressionsOf? spelledText = some spelledEntries := by
  rfl

def manifestHost (text : String) : FileSystem where
  nodes := #[.directory [("xos-build.toml", 1)], .file 0o644 text.toUTF8]
  workDir := "/"

theorem spelled_read :
    (manifestHost spelledText).readText "/xos-build.toml" = .ok spelledText := by
  have hread : (manifestHost spelledText).read "/xos-build.toml" = .ok spelledText.toUTF8 := rfl
  exact FileSystem.readText_of_read _ _ _ hread

def spelledDocument : Entries :=
  [("toolchain", .table .closed [("root", .string "/r"), ("runtime-lib", .string "lib.a")]),
    ("emulators", .tables [[("path", .string "no")]]),
    ("emulator", .table .header [("name", .integer 1), ("path", .string "/q")])]

theorem spelled_document : Toml.parse spelledText = some spelledDocument := by
  rw [Toml.parse_expressions, spelled_expressions]
  rfl

/-- A section between braces, one below a header, and keys that say nothing. -/
theorem spelled_sets :
    (manifestHost spelledText).readText "/xos-build.toml" = .ok spelledText ∧
    Toml.expressionsOf? spelledText = some spelledEntries ∧
    Toml.parse spelledText = some spelledDocument ∧
    ∃ s, load (manifestHost spelledText) "/xos-build.toml" = .ok s ∧
      s.toolchainRoot = some "/r" ∧ s.runtimeLib = some "lib.a" ∧ s.emulator = some "/q" ∧
      (∀ m : Merger, m.settings = s → ∀ h : Host,
        m.Archives .aarch32 "out.a" ["a.a", "b.a", "/r/lib.a"] h
          (m.merge "aarch32" "out.a" ["a.a", "b.a"] h)) ∧
      ∃ created dir name, (Merger.idle s).RanArchiver .aarch32 "out.a" "/libmergerAAAAAA.mri"
        ["a.a", "b.a", "/r/lib.a"] { files := .empty } created dir name
        ((Merger.idle s).merge "aarch32" "out.a" ["a.a", "b.a"] { files := .empty }) := by
  refine ⟨spelled_read, spelled_expressions, spelled_document, ?_⟩
  obtain ⟨hfits, hsets⟩ := load_sets (manifestHost spelledText) "/xos-build.toml" spelledText
    spelledEntries spelledDocument spelled_read spelled_expressions spelled_document
  have hroot : Says spelledEntries ["toolchain", "root"] (.string "/r") :=
    ⟨_, List.mem_cons_self, ["root"], rfl, rfl⟩
  have hlib : Says spelledEntries ["toolchain", "runtime-lib"] (.string "lib.a") :=
    ⟨_, List.mem_cons_self, ["runtime-lib"], rfl, rfl⟩
  have hprogram : Says spelledEntries ["emulator", "path"] (.string "/q") :=
    ⟨(["emulator", "path"], .string "/q"), by simp [spelledEntries, Toml.placed], [], rfl, rfl⟩
  have htext : ∀ text, IsText (some (.string text)) := fun text w hw =>
    ⟨text, (Option.some.inj hw).symm⟩
  obtain ⟨s, hs⟩ := hfits.2
    ⟨.table (List.forall_mem_cons.2 ⟨htext "/r", List.forall_mem_singleton.2 (htext "lib.a")⟩),
      .table (List.forall_mem_singleton.2 (htext "/q"))⟩
  obtain ⟨hroots, hlibs, hprograms, hmerge⟩ := hsets s hs
  have harchives : ∀ m : Merger, m.settings = s → ∀ h : Host,
      m.Archives .aarch32 "out.a" ["a.a", "b.a", "/r/lib.a"] h
        (m.merge "aarch32" "out.a" ["a.a", "b.a"] h) :=
    fun m hm h => hmerge m "/r" "lib.a" hm hroot hlib "out.a" "a.a" "b.a" [] h
  have hfree : ∃ created, Directive.createFile .empty "/"
      (Directive.merge "out.a" ["a.a", "b.a", "/r/lib.a"]) Directive.variablePart =
        .ok ("/libmergerAAAAAA.mri", created) := ⟨_, rfl⟩
  obtain ⟨created, hfree⟩ := hfree
  exact ⟨s, hs, (hroots _).2 (Or.inl hroot), (hlibs _).2 (Or.inl hlib),
    (hprograms _).2 (Or.inl hprogram), harchives, created,
    (harchives (Merger.idle s) rfl { files := .empty }).ran hfree⟩

def underscoredText : String := "[toolchain]\nroot = \"/r\"\nruntime_lib = \"lib.a\"\n"

def misshapenText : String := "[toolchain]\nroot = \"/r\"\n[emulator]\npath = 5\n"

/-- The library under a name with an underscore is not the one that is merged;
and a root is not loaded beside an emulator that is a number. -/
theorem underscored_key_ignored :
    (∃ es, Toml.expressionsOf? underscoredText = some es ∧
      Says es ["toolchain", "root"] (.string "/r") ∧
      Says es ["toolchain", "runtime_lib"] (.string "lib.a")) ∧
    load (manifestHost underscoredText) "/xos-build.toml" = .ok { toolchainRoot := some "/r" } ∧
    Merger.extraLibs .aarch32 { toolchainRoot := some "/r" } =
      some ["/r/lib/gcc/arm-none-eabi/9.2.1/libgcc.a"] ∧
    (∃ es, Toml.expressionsOf? misshapenText = some es ∧
      Says es ["toolchain", "root"] (.string "/r")) ∧
    load (manifestHost misshapenText) "/xos-build.toml" =
      .error (.invalidManifest "/xos-build.toml") := by
  have hunderscored : Toml.expressionsOf? underscoredText = some [.header ["toolchain"],
      .entry ["root"] (.string "/r"), .entry ["runtime_lib"] (.string "lib.a")] := rfl
  have hmisshapen : Toml.expressionsOf? misshapenText = some [.header ["toolchain"],
      .entry ["root"] (.string "/r"), .header ["emulator"], .entry ["path"] (.integer 5)] := rfl
  have hdocument : Toml.parse underscoredText = some [("toolchain",
      .table .header [("root", .string "/r"), ("runtime_lib", .string "lib.a")])] := by
    rw [Toml.parse_expressions, hunderscored]
    rfl
  have hmixed : Toml.parse misshapenText = some [("toolchain",
      .table .header [("root", .string "/r")]), ("emulator",
      .table .header [("path", .integer 5)])] := by
    rw [Toml.parse_expressions, hmisshapen]
    rfl
  have hread : (manifestHost underscoredText).read "/xos-build.toml" =
      .ok underscoredText.toUTF8 := rfl
  have hread' : (manifestHost misshapenText).read "/xos-build.toml" =
      .ok misshapenText.toUTF8 := rfl
  refine ⟨⟨_, hunderscored, ⟨_, List.mem_cons_self, [], rfl, rfl⟩,
    ⟨_, List.mem_cons_of_mem _ List.mem_cons_self, [], rfl, rfl⟩⟩, ?_, by decide +kernel,
    ⟨_, hmisshapen, ⟨_, List.mem_cons_self, [], rfl, rfl⟩⟩, ?_⟩
  · exact load_gives _ _ _ ⟨_, _, FileSystem.readText_of_read _ _ _ hread, hdocument, rfl⟩
  · exact load_broken _ _ _ (.misshapen (FileSystem.readText_of_read _ _ _ hread') hmixed rfl)

end ImageTools.Manifest
