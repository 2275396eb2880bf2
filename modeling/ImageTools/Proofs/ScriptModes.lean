import ImageTools.Proofs.Overwriting

/-!
# Scripts that can be run

The permission bits of a file are no part of the way to it. So marking the
scripts moves none of them and keeps every byte, and it ends at the first that
the caller may not mark. All paths of a set that has been written lead
somewhere, and what they lead to can be marked by whoever may do so.
-/

set_option autoImplicit false

namespace ImageTools

namespace FileSystem

/-! ## Setting permission bits -/

def withMode (mode : Nat) : Node → Node
  | .file _ bytes => .file mode bytes
  | n => n

theorem withMode_withMode (mode : Nat) (n : Node) :
    withMode mode (withMode mode n) = withMode mode n := by
  cases n <;> rfl

theorem node?_setNodeMode (fs : FileSystem) (i mode k : Nat) :
    (fs.setNodeMode i mode).node? k =
      if k = i then (fs.node? i).map (withMode mode) else fs.node? k := by
  by_cases hk : k = i
  · subst hk
    rw [if_pos rfl]
    cases hn : fs.node? k with
    | none => simp [setNodeMode, hn]
    | some n =>
      cases n with
      | file old bytes => exact setNodeMode_file fs k mode old bytes hn
      | _ => simp [setNodeMode, hn, withMode]
  · rw [if_neg hk, (setNodeMode_changes fs i mode).others k (Ne.symm hk)]

theorem locate_setNodeMode (fs : FileSystem) (i mode : Nat) (path : String) :
    (fs.setNodeMode i mode).locate path = fs.locate path := by
  simp only [locate, resolve, reach_alike fs _ (alike_setNodeMode fs i mode)]

/-- Permission bits cannot be set where there is nothing, or what there is belongs to
somebody else. -/
inductive Unmarkable (fs : FileSystem) (path : String) : SystemError → Prop
  | missing {e : SystemError} : fs.locate path = .error e → Unmarkable fs path e
  | foreign {i : Nat} : fs.locate path = .ok i → fs.owns i = false →
      Unmarkable fs path .notPermitted

theorem unmarkable_setNodeMode (fs : FileSystem) (i mode : Nat) (path : String) (e : SystemError)
    (h : Unmarkable (fs.setNodeMode i mode) path e) : Unmarkable fs path e := by
  cases h with
  | missing hl => exact .missing (by rwa [locate_setNodeMode] at hl)
  | foreign hl ho =>
    rw [locate_setNodeMode] at hl
    exact .foreign hl (by rwa [(setNodeMode_caller fs i mode).owns] at ho)

theorem setMode_cases (fs : FileSystem) (path : String) (mode : Nat) :
    (∃ i, fs.locate path = .ok i ∧ fs.owns i = true ∧
      fs.setMode path mode = .ok (fs.setNodeMode i mode)) ∨
    ∃ e, Unmarkable fs path e ∧ fs.setMode path mode = .error e := by
  cases hl : fs.locate path with
  | error e => exact Or.inr ⟨e, .missing hl, by simp [setMode, hl, bind, Except.bind]⟩
  | ok i =>
    cases ho : fs.owns i with
    | true => exact Or.inl ⟨i, rfl, ho, by simp [setMode, hl, ho, bind, Except.bind]⟩
    | false => exact Or.inr ⟨_, .foreign hl ho, by simp [setMode, hl, ho, bind, Except.bind]⟩

/-- What the paths lead to has the permission bits, all paths lead where they led, and
nothing else has changed. -/
structure Marked (mode : Nat) (paths : List String) (fs fs' : FileSystem) : Prop where
  caller : SameCaller fs fs'
  locate : ∀ path, fs'.locate path = fs.locate path
  marked : ∀ path ∈ paths, ∀ i, fs.locate path = .ok i →
    fs'.node? i = (fs.node? i).map (withMode mode)
  others : ∀ i, (∀ path ∈ paths, fs.locate path ≠ .ok i) → fs'.node? i = fs.node? i

section

variable {fs fs' : FileSystem} {path : String} {paths : List String} {mode i : Nat}

theorem marked_nil (mode : Nat) (fs : FileSystem) : Marked mode [] fs fs :=
  ⟨⟨rfl, rfl, rfl⟩, fun _ => rfl, by simp, fun _ _ => rfl⟩

/-- A file that is marked twice is marked once. -/
theorem Marked.cons (hl : fs.locate path = .ok i)
    (h : Marked mode paths (fs.setNodeMode i mode) fs') :
    Marked mode (path :: paths) fs fs' := by
  have htwice : ∀ n : Option Node, (n.map (withMode mode)).map (withMode mode) =
      n.map (withMode mode) := by
    intro n
    simp [Function.comp_def, withMode_withMode]
  constructor
  case caller => exact (setNodeMode_caller fs i mode).trans h.caller
  case locate => exact fun other => (h.locate other).trans (locate_setNodeMode fs i mode other)
  case marked =>
    intro other hother j hj
    by_cases hlater : ∃ p ∈ paths, fs.locate p = .ok j
    · obtain ⟨p, hp, hpj⟩ := hlater
      rw [h.marked p hp j ((locate_setNodeMode fs i mode p).trans hpj), node?_setNodeMode]
      split
      · rename_i hji
        rw [hji, htwice]
      · rfl
    · have hji : j = i := by
        rcases List.mem_cons.1 hother with rfl | hother
        · exact Except.ok.inj (hj.symm.trans hl)
        · exact absurd ⟨other, hother, hj⟩ hlater
      have hkept : ∀ p ∈ paths, (fs.setNodeMode i mode).locate p ≠ .ok j :=
        fun p hp hpj => hlater ⟨p, hp, (locate_setNodeMode fs i mode p).symm.trans hpj⟩
      rw [h.others j hkept, node?_setNodeMode, if_pos hji, hji]
  case others =>
    intro j hj
    obtain ⟨hfirst, hrest⟩ := List.forall_mem_cons.1 hj
    have hji : j ≠ i := fun heq => hfirst (heq ▸ hl)
    rw [h.others j fun p hp hpj => hrest p hp ((locate_setNodeMode fs i mode p).symm.trans hpj),
      node?_setNodeMode, if_neg hji]

end

/-! ## Paths that have been written -/

def LeadsToData (fs : FileSystem) (path : String) : Prop :=
  ∃ i, fs.locate path = .ok i ∧
    ((∃ mode bytes, fs.node? i = some (.file mode bytes)) ∨ ∃ d, fs.node? i = some (.device d))

theorem Grows.leadsToData {fs fs' : FileSystem} {path : String} (hg : Grows fs fs')
    (h : LeadsToData fs path) : LeadsToData fs' path := by
  obtain ⟨i, hl, hkind⟩ := h
  refine ⟨i, locate_grows fs fs' hg path i hl, ?_⟩
  have hkept := hg.nodes i
  rcases hkind with ⟨mode, bytes, hn⟩ | ⟨d, hn⟩
  · rw [hn] at hkept
    exact Or.inl hkept
  · rw [hn] at hkept
    exact Or.inr ⟨d, hkept⟩

/-- Devices are not made. -/
theorem Grows.device {fs fs' : FileSystem} (hg : Grows fs fs') {i : Nat} {d : Device}
    (h : fs'.node? i = some (.device d)) : fs.node? i = some (.device d) := by
  have hkept := hg.nodes i
  rw [h] at hkept
  cases hn : fs.node? i with
  | none => simp [hn, Kept] at hkept
  | some n => cases n <;> simp_all [Kept]

theorem write_leads {fs fs' : FileSystem} {path : String} {bytes : ByteArray}
    (h : fs.write path bytes = .ok fs') : Grows fs fs' ∧ LeadsToData fs' path := by
  obtain ⟨i, opened, ho, -, rfl⟩ := (write_iff fs fs' path bytes).1 h
  have hg := (fillNode_changes opened i bytes).grows
  obtain ⟨t, ht, rfl⟩ := ho.leads
  exact ⟨ho.grows.trans hg, hg.leadsToData ⟨t.last, locate_of_reach opened path t ht, ho.kind⟩⟩

def HasMode (fs : FileSystem) (path : String) (mode : Nat) : Prop :=
  ∃ i bytes, fs.locate path = .ok i ∧ fs.node? i = some (.file mode bytes)

/-- A path with something behind it has the permission bits once it is marked. Only a
device keeps none. -/
theorem Marked.hasMode {fs fs' : FileSystem} {path : String} {paths : List String} {mode : Nat}
    (h : Marked mode paths fs fs') (hp : path ∈ paths) (hleads : LeadsToData fs path) :
    HasMode fs' path mode ∨ ∃ i d, fs.locate path = .ok i ∧ fs.node? i = some (.device d) := by
  obtain ⟨i, hl, ⟨old, bytes, hn⟩ | ⟨d, hn⟩⟩ := hleads
  · refine Or.inl ⟨i, bytes, (h.locate path).trans hl, ?_⟩
    rw [h.marked path hp i hl, hn]
    rfl
  · exact Or.inr ⟨i, d, hl, hn⟩

end FileSystem

namespace ScriptSet
open FileSystem

/-! ## Runs -/

def scriptPaths (dir : String) : List String := scriptNames.map (Path.join dir)

/-- A run that writes all files leaves something behind every path. -/
theorem applyAll_leads (dir : String) (files : List GeneratedFile) (fs fs' : FileSystem)
    (paths : List String) (h : applyAll (files.map (writeChange dir)) fs = (.ok paths, fs')) :
    paths = pathsOf dir files ∧ Grows fs fs' ∧ ∀ path ∈ paths, LeadsToData fs' path := by
  induction files generalizing fs paths with
  | nil =>
    obtain ⟨hpaths, rfl⟩ := Prod.mk.inj h
    obtain rfl := Except.ok.inj hpaths
    exact ⟨rfl, grows_refl fs, by simp⟩
  | cons file files ih =>
    cases hw : fs.write (Path.join dir file.name) file.contents.toUTF8 with
    | error e =>
      rw [List.map_cons, applyAll_error _ _ fs e hw] at h
      cases (Prod.mk.inj h).1
    | ok written =>
      obtain ⟨hgrows, hleads⟩ := write_leads hw
      rw [List.map_cons, applyAll_ok _ _ fs written hw] at h
      obtain ⟨hresult, hfiles⟩ := Prod.mk.inj h
      cases hrest : (applyAll (files.map (writeChange dir)) written).1 with
      | error e =>
        rw [hrest] at hresult
        cases hresult
      | ok rest =>
        rw [hrest] at hresult
        obtain rfl := Except.ok.inj hresult
        obtain ⟨rfl, hlater, hall⟩ := ih written rest (Prod.ext hrest hfiles)
        exact ⟨rfl, hgrows.trans hlater,
          List.forall_mem_cons.2 ⟨hlater.leadsToData hleads, hall⟩⟩

def EndedMarking (paths after : List String) (fs : FileSystem)
    (result : Except ScriptError (List String)) : Prop :=
  match after with
  | [] => result = .ok paths
  | path :: _ => ∃ e, Unmarkable fs path e ∧ result = .error (.write path e)

/-- A run marks the files in turn, up to the first that it may not mark. -/
theorem applyAll_marked (dir : String) (names : List String) (fs : FileSystem) :
    ∃ before after, names.map (Path.join dir) = before ++ after ∧
      Marked 0o755 before fs (applyAll (names.map (modeChange dir)) fs).2 ∧
      EndedMarking (names.map (Path.join dir)) after fs
        (applyAll (names.map (modeChange dir)) fs).1 := by
  induction names generalizing fs with
  | nil => exact ⟨[], [], rfl, marked_nil _ fs, rfl⟩
  | cons name names ih =>
    rcases setMode_cases fs (Path.join dir name) 0o755 with ⟨i, hl, -, hset⟩ | ⟨e, he, hset⟩
    · obtain ⟨before, after, hnames, hmarked, hended⟩ := ih (fs.setNodeMode i 0o755)
      rw [List.map_cons, List.map_cons, applyAll_ok _ _ fs _ hset]
      refine ⟨Path.join dir name :: before, after, by simp [hnames], hmarked.cons hl, ?_⟩
      cases after with
      | nil =>
        rw [EndedMarking] at hended ⊢
        rw [hended]
        rfl
      | cons path after =>
        obtain ⟨e, he, hresult⟩ := hended
        exact ⟨e, unmarkable_setNodeMode fs i 0o755 path e he, by rw [hresult]; rfl⟩
    · rw [List.map_cons, List.map_cons, applyAll_error _ _ fs e hset]
      exact ⟨[], _, rfl, marked_nil _ fs, e, he, rfl⟩

/-- The scripts of a set that has been written can all be marked as executable, if the caller may
change the permission bits of what it has written; only a device of the caller's own has
none. Whatever is in the directory, a run that marks scripts changes nothing but the
permission bits of those before the first that it may not mark. -/
theorem executable_after_generate (arch : Arch) (baseDir outDir : String) (s : Settings)
    (fs : FileSystem) :
    (∀ paths made, generate arch.tag baseDir outDir s fs = (.ok paths, made) →
      (∀ path ∈ scriptPaths outDir, ∀ i, made.locate path = .ok i → made.owns i = true) →
      ∃ marked, makeExecutable outDir made = (.ok (scriptPaths outDir), marked) ∧
        paths = scriptPaths outDir ++ [Path.join outDir debuggerFileName] ∧
        ∀ path ∈ scriptPaths outDir, HasMode marked path 0o755 ∨
          ∃ i d, marked.locate path = .ok i ∧ fs.node? i = some (.device d) ∧ fs.owns i = true) ∧
    ∃ before after, scriptPaths outDir = before ++ after ∧
      Marked 0o755 before fs (makeExecutable outDir fs).2 ∧
      EndedMarking (scriptPaths outDir) after fs (makeExecutable outDir fs).1 := by
  refine ⟨fun paths made hran howned => ?_, applyAll_marked outDir scriptNames fs⟩
  have hwrites : applyAll ((render arch baseDir outDir s).map (writeChange outDir)) fs =
      (.ok paths, made) := by
    rw [← hran]
    simp [generate, Arch.require, Arch.ofTag?_tag]
  obtain ⟨hpaths, hgrows, hleads⟩ := applyAll_leads outDir _ fs made paths hwrites
  have hsplit : paths = scriptPaths outDir ++ [Path.join outDir debuggerFileName] := hpaths
  have hdata : ∀ path ∈ scriptPaths outDir, LeadsToData made path :=
    fun path hp => hleads path (by simp [hsplit, hp])
  obtain ⟨before, after, hnames, hmarked, hended⟩ := applyAll_marked outDir scriptNames made
  cases after with
  | cons path after =>
    -- The first path that cannot be marked would lead nowhere, or to somebody else's file.
    obtain ⟨e, hunmarkable, -⟩ := hended
    have hp : path ∈ scriptPaths outDir := by simp [scriptPaths, hnames]
    obtain ⟨i, hl, -⟩ := hdata path hp
    cases hunmarkable with
    | missing hnone => simp [hl] at hnone
    | foreign hl' ho => simp [howned path hp _ hl'] at ho
  | nil =>
    have hall : scriptPaths outDir = before := hnames.trans (List.append_nil before)
    refine ⟨_, Prod.ext hended rfl, hsplit, fun path hp => ?_⟩
    rcases hmarked.hasMode (hall ▸ hp) (hdata path hp) with hmode | ⟨i, d, hl, hn⟩
    · exact Or.inl hmode
    · refine Or.inr ⟨i, d, (hmarked.locate path).trans hl, hgrows.device hn, ?_⟩
      have hforeign := hgrows.foreign
      simpa only [owns, hforeign] using howned path hp i hl

def linked : FileSystem where
  nodes := #[.directory [("out", 1), ("old", 4)],
    .directory [("sync.sh", 2), ("build.sh", 3), ("run.sh", 3)], .link "../old",
    .file 0o4200 "#!/bin/sh\n".toUTF8, .file 0o640 .empty]
  workDir := "/"
  foreign := 1

theorem linked_executable :
    ∃ made, generate Arch.aarch32.tag "base/" "out/" {} linked = (.ok (filePaths "out/"), made) ∧
      (∀ path ∈ scriptPaths "out/", ∀ i, made.locate path = .ok i → made.owns i = true) ∧
      ∃ marked, makeExecutable "out/" made = (.ok (scriptPaths "out/"), marked) ∧
        ∀ path ∈ scriptPaths "out/", HasMode marked path 0o755 := by
  let made := (generate Arch.aarch32.tag "base/" "out/" {} linked).2
  have hran : generate Arch.aarch32.tag "base/" "out/" {} linked = (.ok (filePaths "out/"), made) :=
    rfl
  have howned : ∀ path ∈ scriptPaths "out/", ∀ i, made.locate path = .ok i →
      made.owns i = true := by
    have hall : ∀ path ∈ scriptPaths "out/", (made.locate path).toOption.all made.owns = true := by
      decide +kernel
    intro path hp i hl
    simpa [hl, Except.toOption] using hall path hp
  obtain ⟨marked, hmarked, -, hmodes⟩ :=
    (executable_after_generate .aarch32 "base/" "out/" {} linked).1 _ made hran howned
  refine ⟨made, hran, howned, marked, hmarked, fun path hp => ?_⟩
  rcases hmodes path hp with hmode | ⟨i, d, -, hn, -⟩
  · exact hmode
  · have hmem := Array.mem_of_getElem? hn
    simp [linked] at hmem

end ScriptSet

end ImageTools
