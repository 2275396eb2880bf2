import ImageTools.Proofs.Soundness

/-!
# Paths that lead to different files

A write moves no path that leads to another file: the path leads where it led,
and what is there is what it was. A path that led nowhere counts as leading to
the place where a file would be made.
-/

set_option autoImplicit false

namespace ImageTools.FileSystem

inductive Spot
  | file (i : Nat)
  | free (dir : Nat) (name : String)
  deriving DecidableEq

/-- The file that a path leads to, or the place where it would be made. -/
def spot? (fs : FileSystem) (path : String) : Option Spot :=
  match fs.reach true path with
  | .ok (.found t) =>
    match fs.node? t.last with
    | some (.file _ _) => some (.file t.last)
    | _ => none
  | .ok (.vacant dir name) => some (.free dir.last name)
  | .error _ => none

def Apart (fs : FileSystem) (paths : List String) : Prop := (paths.filterMap fs.spot?).Nodup

instance (fs : FileSystem) (paths : List String) : Decidable (Apart fs paths) :=
  inferInstanceAs (Decidable (List.Nodup _))

def Clear (fs : FileSystem) (paths : List String) (path : String) : Prop :=
  ∀ other ∈ paths, ∀ s, fs.spot? other = some s → fs.spot? path ≠ some s

theorem apart_cons (fs : FileSystem) (path : String) (paths : List String) :
    Apart fs (path :: paths) ↔ Clear fs paths path ∧ Apart fs paths := by
  unfold Apart Clear
  cases hp : fs.spot? path with
  | none => simp [hp]
  | some s =>
    simp only [List.filterMap_cons_some hp, List.nodup_cons, List.mem_filterMap, not_exists,
      not_and, ne_eq, Option.some.injEq]
    constructor
    · rintro ⟨h, hrest⟩
      exact ⟨fun other ho s' hs' he => h other ho (he ▸ hs'), hrest⟩
    · rintro ⟨h, hrest⟩
      exact ⟨fun other ho hs => h other ho s hs rfl, hrest⟩

theorem Apart.clear {fs : FileSystem} {paths others : List String}
    (h : Apart fs (paths ++ others)) : ∀ other ∈ others, Clear fs paths other := by
  induction paths with
  | nil => exact fun _ _ => by simp [Clear]
  | cons path paths ih =>
    obtain ⟨hfirst, hrest⟩ := (apart_cons fs path (paths ++ others)).1 h
    intro other ho p hp s hs hother
    rcases List.mem_cons.1 hp with rfl | hp
    · exact hfirst other (List.mem_append_right _ ho) s hother hs
    · exact ih hrest other ho p hp s hs hother

/-- The path leads where it led, and what is there has not changed, but for
names in a directory. -/
structure Unmoved (fs fs' : FileSystem) (path : String) : Prop where
  reach : ∀ r, fs'.reach true path = .ok r ↔ fs.reach true path = .ok r
  resolve : ∀ t, fs'.resolve path = .ok t ↔ fs.resolve path = .ok t
  node : ∀ i, fs.locate path = .ok i → fs'.node? i = fs.node? i ∨
    fs.isDirectory i = true ∧ fs'.isDirectory i = true

theorem unmoved_refl (fs : FileSystem) (path : String) : Unmoved fs fs path :=
  ⟨fun _ => Iff.rfl, fun _ => Iff.rfl, fun _ _ => Or.inl rfl⟩

section

variable {fs fs' fs'' : FileSystem} {path : String}

theorem Unmoved.locate (h : Unmoved fs fs' path) (i : Nat) :
    fs'.locate path = .ok i ↔ fs.locate path = .ok i := by
  simp only [locate_ok, h.resolve]

theorem Unmoved.trans (h : Unmoved fs fs' path) (h' : Unmoved fs' fs'' path) :
    Unmoved fs fs'' path := by
  refine ⟨fun r => (h'.reach r).trans (h.reach r), fun t => (h'.resolve t).trans (h.resolve t),
    fun i hi => ?_⟩
  rcases h.node i hi with hn | ⟨hd, hd'⟩ <;>
    rcases h'.node i ((h.locate i).2 hi) with hn' | ⟨he, he'⟩
  · exact Or.inl (hn'.trans hn)
  · exact Or.inr ⟨by simpa only [isDirectory, hn] using he, he'⟩
  · exact Or.inr ⟨hd, by simpa only [isDirectory, hn'] using hd'⟩
  · exact Or.inr ⟨hd, he'⟩

/-- What is no directory is what it was. -/
theorem Unmoved.node_iff (h : Unmoved fs fs' path) (i : Nat) (n : Node)
    (hi : fs.locate path = .ok i) (hn : ∀ entries, n ≠ .directory entries) :
    fs'.node? i = some n ↔ fs.node? i = some n := by
  rcases h.node i hi with he | ⟨hd, hd'⟩
  · rw [he]
  · obtain ⟨entries, hf⟩ := isDirectory_entries fs i hd
    obtain ⟨entries', hf'⟩ := isDirectory_entries fs' i hd'
    simp [hf, hf', Ne.symm (hn entries), Ne.symm (hn entries')]

theorem spot?_file (fs : FileSystem) (path : String) (i : Nat) :
    fs.spot? path = some (.file i) ↔
      fs.locate path = .ok i ∧ ∃ mode bytes, fs.node? i = some (.file mode bytes) := by
  unfold spot?
  constructor
  · intro h
    split at h
    · rename_i t hr
      split at h
      · rename_i mode bytes hn
        simp only [Option.some.injEq, Spot.file.injEq] at h
        exact h ▸ ⟨locate_of_reach fs path t hr, mode, bytes, hn⟩
      · simp at h
    · simp at h
    · simp at h
  · rintro ⟨hl, mode, bytes, hn⟩
    obtain ⟨t, ht, rfl⟩ := (locate_ok fs path i).1 hl
    simp [reach_of_resolve fs path t ht (by simp [isDirectory, hn]), hn]

theorem spot?_free (fs : FileSystem) (path : String) (dir : Nat) (name : String) :
    fs.spot? path = some (.free dir name) ↔
      ∃ t, fs.reach true path = .ok (.vacant t name) ∧ t.last = dir := by
  unfold spot?
  split
  · rename_i t hr
    split <;> simp [hr]
  · rename_i t key hr
    simp only [hr, Option.some.injEq, Spot.free.injEq, Except.ok.injEq, Reached.vacant.injEq]
    exact ⟨fun h => ⟨t, ⟨rfl, h.2⟩, h.1⟩, fun ⟨t', h, hlast⟩ => ⟨h.1 ▸ hlast, h.2⟩⟩
  · rename_i e hr
    simp [hr]

theorem locate_free (fs : FileSystem) (path : String) (dir : Nat) (name : String)
    (h : fs.spot? path = some (.free dir name)) (i : Nat) : fs.locate path ≠ .ok i := by
  obtain ⟨t, hr, -⟩ := (spot?_free fs path dir name).1 h
  intro hl
  obtain ⟨t', ht', -⟩ := (locate_ok fs path i).1 hl
  rcases reach_creating fs path with he | he
  · simp [he] at hr
  · rw [he] at hr
    simp [FileSystem.resolve, hr] at ht'

theorem Unmoved.spot (h : Unmoved fs fs' path) : fs'.spot? path = fs.spot? path := by
  refine Option.ext fun s => ?_
  cases s with
  | file i =>
    simp only [spot?_file, h.locate]
    refine and_congr_right fun hi => exists_congr fun mode => exists_congr fun bytes => ?_
    exact h.node_iff i _ hi (by simp)
  | free dir name => simp only [spot?_free, h.reach]

theorem Clear.later {paths : List String} (h : Clear fs paths path)
    (hpaths : ∀ other ∈ paths, Unmoved fs fs' other) (hm : Unmoved fs fs' path) :
    Clear fs' paths path := by
  intro other ho s hs
  rw [(hpaths other ho).spot] at hs
  rw [hm.spot]
  exact h other ho s hs

theorem Apart.later {paths : List String} (h : Apart fs paths)
    (hm : ∀ other ∈ paths, Unmoved fs fs' other) : Apart fs' paths := by
  induction paths with
  | nil => exact List.nodup_nil
  | cons path paths ih =>
    obtain ⟨hclear, hrest⟩ := (apart_cons fs path paths).1 h
    have hpaths : ∀ other ∈ paths, Unmoved fs fs' other :=
      fun other ho => hm other (List.mem_cons_of_mem _ ho)
    exact (apart_cons fs' path paths).2
      ⟨hclear.later hpaths (hm path (by simp)), ih hrest hpaths⟩

theorem Unmoved.writable (h : Unmoved fs fs' path) (hc : SameCaller fs fs') (bytes : ByteArray) :
    Writable fs' path bytes ↔ Writable fs path bytes := by
  unfold Writable
  rw [hc.mayWrite, hc.owns]
  cases hr : fs.reach true path with
  | error e =>
    cases hr' : fs'.reach true path with
    | error e' => rfl
    | ok r => simp [(h.reach r).1 hr'] at hr
  | ok r =>
    rw [(h.reach r).2 hr]
    cases r with
    | vacant dir name => rfl
    | found t =>
      rcases h.node t.last (locate_of_reach fs path t hr) with hn | ⟨hd, hd'⟩
      · simp only [hn]
      · obtain ⟨entries, hf⟩ := isDirectory_entries fs _ hd
        obtain ⟨entries', hf'⟩ := isDirectory_entries fs' _ hd'
        simp only [hf, hf']

end

/-! ## A write moves no other path -/

theorem unmoved_fillNode (fs : FileSystem) (i : Nat) (bytes : ByteArray) (path : String)
    (h : fs.spot? path ≠ some (.file i)) : Unmoved fs (fs.fillNode i bytes) path := by
  have hreach := reach_alike fs _ (alike_fillNode fs i bytes)
  refine ⟨fun r => by rw [hreach], fun t => by simp only [FileSystem.resolve, hreach], ?_⟩
  intro j hj
  rcases fillNode_node fs i j bytes with hn | ⟨mode, held, hn, hn'⟩
  · exact Or.inl hn
  · have hne : j ≠ i := by
      rintro rfl
      exact h ((spot?_file fs path j).2 ⟨hj, mode, held, hn⟩)
    refine Or.inl ?_
    rw [node?_fillNode, if_neg hne]

theorem unmoved_addNode (fs : FileSystem) (dir : Nat) (name : String) (mode : Nat)
    (bytes : ByteArray) (path : String) (hs : Sound fs) (hd : fs.isDirectory dir = true)
    (h : fs.spot? path ≠ some (.free dir name)) :
    Unmoved fs (fs.addNode dir name (.file mode bytes)) path := by
  obtain ⟨entries, hn⟩ := isDirectory_entries fs dir hd
  obtain ⟨hnew, hdir, hold⟩ := node?_addNode fs dir name (.file mode bytes) entries hn
  have hfound := fun creating => reach_addNode fs dir name mode bytes hd creating path
  have hgrows := grows_addNode fs dir name mode bytes
  generalize fs.addNode dir name (.file mode bytes) = fs' at hnew hdir hold hfound hgrows
  have hreach : ∀ r, fs'.reach true path = .ok r ↔ fs.reach true path = .ok r := by
    intro r
    have hsame : ∀ r, fs.reach true path = .ok r →
        r.filled dir name fs.nodes.size = r := by
      rintro (t | ⟨t, key⟩) hr
      · rfl
      · have hne : ¬(t.last = dir ∧ key = name) := by
          rintro ⟨ht, rfl⟩
          exact h ((spot?_free fs path dir key).2 ⟨t, hr, ht⟩)
        simp [Reached.filled, hne]
    cases hr : fs.reach true path with
    | error e =>
      obtain ⟨e', he⟩ := (hfound true).2 e hr
      simp [he]
    | ok r' => rw [(hfound true).1 r' hr, hsame r' hr]
  constructor
  case reach => exact hreach
  case resolve =>
    intro t
    refine ⟨fun ht => ?_, resolve_grows fs fs' hgrows path t⟩
    by_cases hf : fs'.isDirectory t.last = true
    · -- The new file is no directory, so the path did not end at its place.
      rw [resolve_ok] at ht
      have hend : fs'.reach false path = .ok (.found t) := by simp [FileSystem.reach, ht]
      cases hr : fs.reach false path with
      | error e =>
        obtain ⟨e', he⟩ := (hfound false).2 e hr
        simp [he] at hend
      | ok r =>
        rw [(hfound false).1 r hr] at hend
        cases r with
        | found t' =>
          simp only [Reached.filled, Except.ok.injEq, Reached.found.injEq] at hend
          simp [FileSystem.resolve, hr, hend]
        | vacant t' key =>
          simp only [Reached.filled] at hend
          split at hend
          · simp only [Except.ok.injEq, Reached.found.injEq] at hend
            simp [← hend, Trail.last, isDirectory, hnew] at hf
          · simp at hend
    · have hr := reach_of_resolve fs' path t ht (by simpa using hf)
      exact resolve_of_reach fs path t ((hreach _).1 hr)
  case node =>
    intro i hi
    obtain ⟨t, ht, rfl⟩ := (locate_ok fs path i).1 hi
    have hsize := resolve_sound fs hs path t ht
    by_cases hid : t.last = dir
    · rw [hid]
      exact Or.inr ⟨hd, by simp [isDirectory, hdir]⟩
    · exact Or.inl (hold _ hid (Nat.ne_of_lt hsize))

theorem write_unmoved (fs fs' : FileSystem) (path other : String) (bytes : ByteArray)
    (hs : Sound fs) (hw : fs.write path bytes = .ok fs')
    (h : ∀ s, fs.spot? path = some s → fs.spot? other ≠ some s) : Unmoved fs fs' other := by
  obtain ⟨i, opened, ho, -, rfl⟩ := (write_iff fs fs' path bytes).1 hw
  cases ho with
  | file t mode held hr hn =>
    exact unmoved_fillNode fs _ bytes other
      (h _ ((spot?_file fs path t.last).2 ⟨locate_of_reach fs path t hr, mode, held, hn⟩))
  | device t d hr hn =>
    rw [fillNode_of_device fs t.last d bytes hn]
    exact unmoved_refl fs other
  | made dir name hr =>
    have hd := (reach_vacant fs true path name dir hr).1
    have hmade := unmoved_addNode fs dir.last name (fs.masked 0o666) .empty other hs hd
      (h _ ((spot?_free fs path dir.last name).2 ⟨dir, hr, rfl⟩))
    refine hmade.trans (unmoved_fillNode _ _ bytes other ?_)
    rw [hmade.spot]
    intro hf
    obtain ⟨-, mode, held, hn⟩ := (spot?_file fs other _).1 hf
    exact Nat.lt_irrefl _ (node?_size fs _ _ hn)

end ImageTools.FileSystem
