import ImageTools.Proofs.Opening

/-!
# What writing to a path leaves alone

Whoever opens a path and gives the file there new contents changes that file
and nothing else: every other file keeps its bytes and its permission bits,
and a directory gets a new name only where the path ended.
-/

set_option autoImplicit false

namespace ImageTools.FileSystem

/-- Nothing is different but files that the paths lead to and the names of new
files where the paths ended. -/
structure OnlyAt (paths : List String) (fs fs' : FileSystem) : Prop where
  caller : SameCaller fs fs'
  grows : Grows fs fs'
  nodes : ∀ i n, fs.node? i = some n → fs.isDirectory i = false →
    (∀ path ∈ paths, fs.locate path ≠ .ok i) → fs'.node? i = some n
  names : ∀ dir name i, fs'.entry? dir name = some i → fs.entry? dir name = some i ∨
    ∃ path ∈ paths, ∃ t, fs.reach true path = .ok (.vacant t name) ∧ t.last = dir

theorem onlyAt_refl (paths : List String) (fs : FileSystem) : OnlyAt paths fs fs :=
  ⟨⟨rfl, rfl, rfl⟩, grows_refl fs, fun _ _ hn _ _ => hn, fun _ _ _ he => Or.inl he⟩

theorem locate_of_reach (fs : FileSystem) (path : String) (t : Trail)
    (h : fs.reach true path = .ok (.found t)) : fs.locate path = .ok t.last := by
  simp [locate, resolve_of_reach fs path t h, Except.map]

theorem locate_ok (fs : FileSystem) (path : String) (i : Nat) :
    fs.locate path = .ok i ↔ ∃ t, fs.resolve path = .ok t ∧ t.last = i := by
  unfold locate
  cases fs.resolve path <;> simp [Except.map]

theorem locate_grows (fs fs' : FileSystem) (h : Grows fs fs') (path : String) (i : Nat)
    (hl : fs.locate path = .ok i) : fs'.locate path = .ok i := by
  obtain ⟨t, ht, hlast⟩ := (locate_ok fs path i).1 hl
  exact (locate_ok fs' path i).2 ⟨t, resolve_grows fs fs' h path t ht, hlast⟩

theorem read_file (fs : FileSystem) (path : String) (i mode : Nat) (bytes : ByteArray)
    (hl : fs.locate path = .ok i) (hn : fs.node? i = some (.file mode bytes))
    (hr : fs.mayRead i mode = true) : fs.read path = .ok bytes := by
  have hi := (openForReading_ok fs path i mode bytes hn).2 ⟨(locate_ok fs path i).1 hl, hr⟩
  simp [FileSystem.read, hi, readNode, hn, bind, Except.bind]

section

variable {fs opened fs' : FileSystem} {path : String} {mode i : Nat}

/-- What has been opened was led to before, or it is new. -/
theorem Opens.place (h : Opens fs path mode i opened) :
    fs.locate path = .ok i ∧ opened = fs ∨
    i = fs.nodes.size ∧ ∃ dir name, fs.reach true path = .ok (.vacant dir name) ∧
      fs.owns dir.last = true ∧ opened = fs.addNode dir.last name (.file (fs.masked mode) .empty) := by
  cases h with
  | file t old bytes hr => exact Or.inl ⟨locate_of_reach fs path t hr, rfl⟩
  | device t d hr => exact Or.inl ⟨locate_of_reach fs path t hr, rfl⟩
  | made dir name hr ho => exact Or.inr ⟨rfl, dir, name, hr, ho, rfl⟩

theorem Opens.names (h : Opens fs path mode i opened) (dir : Nat) (name : String) (j : Nat)
    (he : opened.entry? dir name = some j) : fs.entry? dir name = some j ∨
      ∃ t, fs.reach true path = .ok (.vacant t name) ∧ t.last = dir := by
  rcases h.place with ⟨-, rfl⟩ | ⟨rfl, t, key, hr, -, rfl⟩
  · exact Or.inl he
  · have hd := (reach_vacant fs true path key t hr).1
    rw [entry?_addNode fs t.last key (fs.masked mode) .empty hd] at he
    cases hold : fs.entry? dir name with
    | some k =>
      rw [hold] at he
      exact Or.inl he
    | none =>
      simp only [hold] at he
      split at he
      · rename_i hk
        exact Or.inr ⟨t, hk.2 ▸ hr, hk.1.symm⟩
      · simp at he

/-- A change of the file that has been opened changes nothing else. -/
theorem Opens.onlyAt (h : Opens fs path mode i opened) (hc : ChangesOnly i opened fs')
    (hcaller : SameCaller opened fs') : OnlyAt [path] fs fs' := by
  constructor
  case caller => exact h.caller.trans hcaller
  case grows => exact h.grows.trans hc.grows
  case nodes =>
    intro k n hk hd hleads
    have hne : i ≠ k := by
      rcases h.place with ⟨hl, -⟩ | ⟨rfl, -⟩
      · rintro rfl
        exact hleads path (by simp) hl
      · exact Nat.ne_of_gt (node?_size fs k n hk)
    rw [hc.others k hne]
    exact h.keeps k n hk hd
  case names =>
    intro dir name j he
    -- The file itself has no names in it.
    have hne : i ≠ dir := by
      rintro rfl
      have hk := hc.grows.nodes i
      rcases h.kind with ⟨m, bytes, hf⟩ | ⟨d, hf⟩
      · rw [hf] at hk
        obtain ⟨m', bytes', hf'⟩ := hk
        simp [hf', entry?] at he
      · rw [hf] at hk
        have hf' : fs'.node? i = some (.device d) := hk
        simp [hf', entry?] at he
    have ho : opened.entry? dir name = some j := by
      simpa only [hc.others dir hne, entry?] using he
    rcases h.names dir name j ho with hold | ⟨t, hr, ht⟩
    · exact Or.inl hold
    · exact Or.inr ⟨path, by simp, t, hr, ht⟩

end

/-! ## Whether a path can be written -/

def HasRoom (fs : FileSystem) (i : Nat) (bytes : ByteArray) : Prop :=
  fs.node? i = some (.device .full) → bytes.isEmpty = true

/-- The caller may put `bytes` where the path leads, and there is room. -/
def Writable (fs : FileSystem) (path : String) (bytes : ByteArray) : Prop :=
  match fs.reach true path with
  | .ok (.found t) =>
    match fs.node? t.last with
    | some (.file mode _) => fs.mayWrite t.last mode = true
    | some (.device d) => d ≠ .terminal ∧ (d = .full → bytes.isEmpty = true)
    | _ => False
  | .ok (.vacant dir _) => fs.owns dir.last = true
  | .error _ => False

theorem writable_iff (fs : FileSystem) (path : String) (bytes : ByteArray) (mode : Nat) :
    Writable fs path bytes ↔
      ∃ i opened, Opens fs path mode i opened ∧ HasRoom opened i bytes := by
  constructor
  · intro h
    unfold Writable at h
    split at h
    · rename_i t hr
      split at h
      · rename_i old held hn
        exact ⟨_, _, .file t old held hr hn h, by simp [HasRoom, hn]⟩
      · rename_i d hn
        exact ⟨_, _, .device t d hr hn h.1, by simpa [HasRoom, hn] using h.2⟩
      · exact h.elim
    · rename_i dir name hr
      have hmade : Opens fs path mode _ _ := .made dir name hr h
      have hnew := addNode_new fs dir.last name (.file (fs.masked mode) .empty)
        (reach_vacant fs true path name dir hr).1
      exact ⟨_, _, hmade, by simp [HasRoom, hnew]⟩
    · exact h.elim
  · rintro ⟨i, opened, h, hroom⟩
    unfold Writable
    cases h with
    | file t old held hr hn hw => simp [hr, hn, hw]
    | device t d hr hn hd =>
      simp only [hr, hn]
      exact ⟨hd, fun hfull => hroom (hfull ▸ hn)⟩
    | made dir name hr ho => simp [hr, ho]

theorem store_iff (fs fs' : FileSystem) (i : Nat) (bytes : ByteArray) :
    fs.store i bytes = .ok fs' ↔ HasRoom fs i bytes ∧ fs' = fs.fillNode i bytes := by
  unfold store HasRoom
  split
  · rename_i hn
    rw [fillNode_of_device fs i .full bytes hn]
    by_cases hb : bytes.isEmpty = true
    · simp only [hb, if_true, Except.ok.injEq, implies_true, true_and]
      exact eq_comm
    · simp [hn, hb]
  · rename_i hn
    have hne : fs.node? i ≠ some (.device .full) := hn
    simp only [Except.ok.injEq, hne, false_implies, true_and]
    exact eq_comm

/-- Writing is opening and filling what has been opened. -/
theorem write_iff (fs fs' : FileSystem) (path : String) (bytes : ByteArray) :
    fs.write path bytes = .ok fs' ↔
      ∃ i opened, Opens fs path 0o666 i opened ∧ HasRoom opened i bytes ∧
        fs' = opened.fillNode i bytes := by
  unfold write openForWriting
  cases ho : fs.openForChange path 0o666 with
  | error e =>
    refine ⟨fun h => by simp [bind, Except.bind] at h, ?_⟩
    rintro ⟨i, opened, h, -⟩
    rw [(openForChange_iff fs opened path 0o666 i).2 h] at ho
    simp at ho
  | ok p =>
    obtain ⟨i, opened⟩ := p
    have hopens := (openForChange_iff fs opened path 0o666 i).1 ho
    simp only [bind, Except.bind, store_iff, HasRoom, fillNode_device, fillNode_fillNode]
    constructor
    · rintro ⟨hroom, rfl⟩
      exact ⟨i, opened, hopens, hroom, rfl⟩
    · rintro ⟨j, changed, h, hroom, rfl⟩
      rw [(openForChange_iff fs changed path 0o666 j).2 h, Except.ok.injEq, Prod.mk.injEq] at ho
      obtain ⟨rfl, rfl⟩ := ho
      exact ⟨hroom, rfl⟩

end ImageTools.FileSystem
