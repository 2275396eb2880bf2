import ImageTools.Proofs.Resolution

/-!
# What writing changes

Opening a file for writing gives a node: one that was there, or a new one
under a name that was free. Filling that node and setting its permission bits
changes this node alone, so what any other path leads to is read as before.
-/

set_option autoImplicit false

namespace ImageTools.FileSystem

theorem node?_size (fs : FileSystem) (i : Nat) (n : Node) (h : fs.node? i = some n) :
    i < fs.nodes.size := by
  obtain ⟨hi, -⟩ := Array.getElem?_eq_some_iff.1 h
  exact hi

theorem Grows.size_le {fs fs' : FileSystem} (h : Grows fs fs') :
    fs.nodes.size ≤ fs'.nodes.size := by
  refine Nat.le_of_not_lt fun hsize => ?_
  have hnone : fs'.node? fs'.nodes.size = none := by simp [node?]
  obtain ⟨n, hn⟩ : ∃ n, fs.node? fs'.nodes.size = some n := ⟨_, Array.getElem?_eq_getElem hsize⟩
  have hkept := h.nodes fs'.nodes.size
  rw [hn, hnone] at hkept
  cases n <;> simp [Kept] at hkept

/-! ## Changes of one node -/

structure ChangesOnly (i : Nat) (fs fs' : FileSystem) : Prop where
  grows : Grows fs fs'
  others : ∀ j, i ≠ j → fs'.node? j = fs.node? j

theorem changesOnly_refl (i : Nat) (fs : FileSystem) : ChangesOnly i fs fs :=
  ⟨grows_refl fs, fun _ _ => rfl⟩

theorem ChangesOnly.trans {i : Nat} {a b c : FileSystem} (h : ChangesOnly i a b)
    (h' : ChangesOnly i b c) : ChangesOnly i a c :=
  ⟨h.grows.trans h'.grows, fun j hj => (h'.others j hj).trans (h.others j hj)⟩

theorem changesOnly_file (fs : FileSystem) (i mode mode' : Nat) (bytes bytes' : ByteArray)
    (h : fs.node? i = some (.file mode bytes)) :
    ChangesOnly i fs (fs.setNode i (.file mode' bytes')) :=
  ⟨grows_setNode fs i _ (by rw [h]; exact ⟨_, _, rfl⟩), fun j hj => node?_setNode_ne fs i j _ hj⟩

theorem fillNode_changes (fs : FileSystem) (i : Nat) (bytes : ByteArray) :
    ChangesOnly i fs (fs.fillNode i bytes) := by
  unfold fillNode
  split
  · rename_i h
    exact changesOnly_file fs i _ _ _ _ h
  · exact changesOnly_refl i fs

theorem fillNode_file (fs : FileSystem) (i mode : Nat) (old bytes : ByteArray)
    (h : fs.node? i = some (.file mode old)) :
    (fs.fillNode i bytes).node? i = some (.file (withoutPrivilege mode) bytes) := by
  simp only [fillNode, h]
  exact node?_setNode_self fs i _ (node?_size fs i _ h)

theorem setNodeMode_changes (fs : FileSystem) (i mode : Nat) :
    ChangesOnly i fs (fs.setNodeMode i mode) := by
  unfold setNodeMode
  split
  · rename_i h
    exact changesOnly_file fs i _ _ _ _ h
  · exact changesOnly_refl i fs

theorem setNodeMode_file (fs : FileSystem) (i mode old : Nat) (bytes : ByteArray)
    (h : fs.node? i = some (.file old bytes)) :
    (fs.setNodeMode i mode).node? i = some (.file mode bytes) := by
  simp only [setNodeMode, h]
  exact node?_setNode_self fs i _ (node?_size fs i _ h)

theorem store_ok (fs fs' : FileSystem) (i : Nat) (bytes : ByteArray)
    (h : fs.store i bytes = .ok fs') : fs' = fs.fillNode i bytes := by
  unfold store at h
  split at h
  · rename_i hi
    split at h
    · simp only [Except.ok.injEq] at h
      rw [fillNode, hi]
      exact h.symm
    · simp at h
  · simp only [Except.ok.injEq] at h
    exact h.symm

/-! ## The node a path is opened at -/

/-- Opening finds a node that may be written, or makes a new file. -/
theorem openForChange_ok (fs fs' : FileSystem) (path : String) (mode i : Nat)
    (h : fs.openForChange path mode = .ok (i, fs')) :
    (∃ t, fs.reach true path = .ok (.found t) ∧ i = t.last ∧ fs' = fs ∧
      (∀ old bytes, fs.node? i = some (.file old bytes) → fs.mayWrite i old = true)) ∨
    (∃ dir name, fs.reach true path = .ok (.vacant dir name) ∧ i = fs.nodes.size ∧
      fs.owns dir.last = true ∧
      fs' = fs.addNode dir.last name (.file (fs.masked mode) .empty)) := by
  unfold openForChange at h
  cases hr : fs.reach true path with
  | error e => simp [hr, bind, Except.bind] at h
  | ok r =>
    cases r with
    | found t =>
      simp only [hr, bind, Except.bind] at h
      refine Or.inl ⟨t, rfl, ?_⟩
      split at h
      · rename_i old bytes hn
        split at h
        · rename_i hw
          simp only [Except.ok.injEq, Prod.mk.injEq] at h
          obtain ⟨rfl, rfl⟩ := h
          refine ⟨rfl, rfl, fun old' bytes' hn' => ?_⟩
          rw [hn] at hn'
          simp only [Option.some.injEq, Node.file.injEq] at hn'
          exact hn'.1 ▸ hw
        · simp at h
      · simp at h
      · rename_i hn
        simp only [Except.ok.injEq, Prod.mk.injEq] at h
        obtain ⟨rfl, rfl⟩ := h
        exact ⟨rfl, rfl, fun old' bytes' hn' => by simp [hn] at hn'⟩
      · simp at h
    | vacant dir name =>
      simp only [hr, bind, Except.bind, createIn] at h
      refine Or.inr ⟨dir, name, rfl, ?_⟩
      by_cases ho : fs.owns dir.last = true
      · simp only [ho, if_true, Except.ok.injEq, Prod.mk.injEq] at h
        exact ⟨h.1.symm, ho, h.2.symm⟩
      · simp [ho] at h

theorem openForChange_grows (fs fs' : FileSystem) (path : String) (mode i : Nat)
    (h : fs.openForChange path mode = .ok (i, fs')) : Grows fs fs' := by
  rcases openForChange_ok fs fs' path mode i h with ⟨_, _, _, rfl, _⟩ | ⟨dir, name, _, _, _, rfl⟩
  · exact grows_refl fs'
  · exact grows_addNode fs _ _ _ _

/-- A file that is not the one that was opened stays as it was. -/
theorem openForChange_frame (fs fs' : FileSystem) (path : String) (mode i j old : Nat)
    (bytes : ByteArray) (h : fs.openForChange path mode = .ok (i, fs'))
    (hj : fs.node? j = some (.file old bytes)) : fs'.node? j = some (.file old bytes) := by
  rcases openForChange_ok fs fs' path mode i h with ⟨_, _, _, rfl, _⟩ | ⟨dir, name, _, _, _, rfl⟩
  · exact hj
  · have hs := node?_size fs j _ hj
    have hp : (fs.nodes.push (.file (fs.masked mode) .empty))[j]? = fs.nodes[j]? := by
      simp [Array.getElem?_push, Nat.ne_of_lt hs]
    simp only [addNode, addEntry, node?] at hj ⊢
    split
    · rename_i entries hd
      have hne : dir.last ≠ j := by
        rintro rfl
        simp [hp, hj] at hd
      simp only [setNode, Array.getElem?_setIfInBounds, if_neg hne]
      rw [hp]
      exact hj
    · simp only
      rw [hp]
      exact hj

/-! ## Reading -/

theorem mayRead_foreign (fs fs' : FileSystem) (h : fs'.foreign = fs.foreign) (i mode : Nat) :
    fs'.mayRead i mode = fs.mayRead i mode := by
  simp [mayRead, rights, owns, h]

theorem openForReading_ok (fs : FileSystem) (path : String) (i mode : Nat) (bytes : ByteArray)
    (h : fs.node? i = some (.file mode bytes)) :
    fs.openForReading path = .ok i ↔
      (∃ t, fs.resolve path = .ok t ∧ t.last = i) ∧ fs.mayRead i mode = true := by
  unfold openForReading locate
  cases hr : fs.resolve path with
  | error e => simp [Except.map, bind, Except.bind]
  | ok t =>
    simp only [Except.map, bind, Except.bind, Except.ok.injEq, exists_eq_left']
    by_cases ht : t.last = i
    · subst ht
      simp only [h, true_and]
      split <;> simp_all
    · split <;> try split
      all_goals simp_all

theorem fromUTF8?_toUTF8 (text : String) : String.fromUTF8? text.toUTF8 = some text := by
  simp [String.fromUTF8?, String.isValidUTF8, String.fromUTF8]

theorem readText_of_read (fs : FileSystem) (path text : String)
    (h : fs.read path = .ok text.toUTF8) : fs.readText path = .ok text := by
  simp only [readText, h, bind, Except.bind, fromUTF8?_toUTF8]

/-- A path that leads to the same file in both file systems reads the same. -/
theorem read_eq (fs fs' : FileSystem) (path : String) (t : Trail) (hf : fs'.foreign = fs.foreign)
    (h : fs.resolve path = .ok t) (h' : fs'.resolve path = .ok t)
    (hn : fs'.node? t.last = fs.node? t.last) : fs'.read path = fs.read path := by
  have hm := mayRead_foreign fs fs' hf
  simp only [read, openForReading, locate, h, h', Except.map, bind, Except.bind, hn, hm]
  split
  · rfl
  · rename_i i hi
    have ht : i = t.last := by
      split at hi
      · split at hi <;> simp_all
      · simp at hi
      · simp_all
    simp [readNode, ht, hn]

/-! ## Copying -/

theorem setOpenMode_changes (fs fs' : FileSystem) (i mode : Nat)
    (h : fs.setOpenMode i mode = .ok fs') : ChangesOnly i fs fs' := by
  unfold setOpenMode at h
  split at h
  · split at h
    · cases h
      exact setNodeMode_changes fs i mode
    · cases h
  · cases h
    exact changesOnly_refl i fs

/-- Whatever its outcome, only the target has changed. -/
theorem transfer_changes (fs : FileSystem) (i j mode : Nat) :
    ChangesOnly j fs (fs.transfer i j mode).2 := by
  unfold transfer
  split
  · exact changesOnly_refl j fs
  · rename_i given hgiven
    have hmode := setOpenMode_changes fs given j mode hgiven
    split
    · exact hmode
    · split
      · exact hmode
      · split
        · exact hmode
        · rename_i stored hstored
          rw [store_ok given stored j _ hstored]
          exact hmode.trans (fillNode_changes given j _)

/-- A copy does nothing before it has opened both paths. -/
theorem copy_cases (fs : FileSystem) (source target : String) :
    (∃ e, fs.copy source target = (.error e, fs)) ∨
    ∃ i mode bytes j opened, fs.openForReading source = .ok i ∧
      fs.node? i = some (.file mode bytes) ∧ fs.openForChange target mode = .ok (j, opened) ∧
      fs.copy source target = (opened.fillNode j .empty).transfer i j mode := by
  unfold copy
  cases hi : fs.openForReading source with
  | error e => exact Or.inl ⟨e, rfl⟩
  | ok i =>
    dsimp only
    split
    · rename_i mode bytes hn
      cases ho : fs.openForChange target mode with
      | error e =>
        simp only [openForWriting, ho, bind, Except.bind]
        exact Or.inl ⟨e, rfl⟩
      | ok p =>
        simp only [openForWriting, ho, bind, Except.bind]
        exact Or.inr ⟨i, mode, bytes, p.1, p.2, rfl, hn, ho, rfl⟩
    · exact Or.inl ⟨.notRegular, rfl⟩

end ImageTools.FileSystem
