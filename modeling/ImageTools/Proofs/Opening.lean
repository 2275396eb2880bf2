import ImageTools.Proofs.Creation

/-!
# Opening a path to write there

A path can be opened for writing in three ways: it leads to a file, it leads
to a device, or it ends where a file can be made. Opening changes nothing but
that last thing, and the path leads to what was opened. Filling a file
replaces its bytes, whatever they were, and takes away no more than the right
to run in somebody else's name.
-/

set_option autoImplicit false

namespace ImageTools.FileSystem

/-! ## Permission bits -/

theorem withoutPrivilege_self (mode : Nat) :
    withoutPrivilege (withoutPrivilege mode) = withoutPrivilege mode := by
  have hgroup : withoutPrivilege mode &&& 0o010 = mode &&& 0o010 := by
    unfold withoutPrivilege
    split <;> rw [Nat.and_assoc] <;> rfl
  show withoutPrivilege mode &&&
    (if withoutPrivilege mode &&& 0o010 = 0 then 0o3777 else 0o1777) = withoutPrivilege mode
  rw [hgroup]
  unfold withoutPrivilege
  split <;> rw [Nat.and_assoc, Nat.and_self]

/-- The nine bits of owner, group and others stay, and so does the bit after them. -/
theorem withoutPrivilege_mod (mode : Nat) : withoutPrivilege mode % 1024 = mode % 1024 := by
  have h10 : mode &&& 0o1777 = mode % 2 ^ 10 := Nat.and_two_pow_sub_one_eq_mod mode 10
  have h11 : mode &&& 0o3777 = mode % 2 ^ 11 := Nat.and_two_pow_sub_one_eq_mod mode 11
  unfold withoutPrivilege
  split
  · rw [h11]; omega
  · rw [h10]; omega

/-- A mode that gives nobody else's name away is kept. -/
theorem withoutPrivilege_of_lt (mode : Nat) (h : mode < 1024) : withoutPrivilege mode = mode := by
  have h10 : mode &&& 0o1777 = mode % 2 ^ 10 := Nat.and_two_pow_sub_one_eq_mod mode 10
  have h11 : mode &&& 0o3777 = mode % 2 ^ 11 := Nat.and_two_pow_sub_one_eq_mod mode 11
  unfold withoutPrivilege
  split
  · rw [h11]; omega
  · rw [h10]; omega

theorem masked_lt (fs : FileSystem) : fs.masked 0o666 < 1024 :=
  Nat.lt_of_le_of_lt Nat.and_le_left (by decide)

theorem rights_mod (fs fs' : FileSystem) (h : fs'.foreign = fs.foreign) (i mode mode' : Nat)
    (hm : mode' % 1024 = mode % 1024) : fs'.rights i mode' = fs.rights i mode := by
  unfold rights owns
  rw [h]
  split <;> omega

theorem testBit_one (n : Nat) (h : n < 8) : (n &&& 2 != 0) = n.testBit 1 := by
  decide +revert

theorem testBit_two (n : Nat) (h : n < 8) : (n &&& 4 != 0) = n.testBit 2 := by
  decide +revert

theorem testBit_and_zero (m k b : Nat) (hk : k.testBit b = true) (h : m &&& k = 0) :
    m.testBit b = false := by
  have hbit : (m &&& k).testBit b = false := by rw [h]; exact Nat.zero_testBit b
  simpa [Nat.testBit_and, hk] using hbit

/-- A new file has the permission bits that the mask leaves. -/
theorem testBit_masked (fs : FileSystem) (mode b : Nat) (hb : b < 12) (h : mode.testBit b = true)
    (hm : fs.mask.testBit b = false) : (fs.masked mode).testBit b = true := by
  have hall : Nat.testBit 0o7777 b = true := by
    rw [show 0o7777 = 2 ^ 12 - 1 from rfl, Nat.testBit_two_pow_sub_one]
    simpa using hb
  rw [masked, Nat.testBit_and, Nat.testBit_xor, h, hm, hall]
  rfl

theorem rights_testBit (fs : FileSystem) (i mode b : Nat) (ho : fs.owns i = true) (hb : b < 3) :
    (fs.rights i mode).testBit b = mode.testBit (b + 6) := by
  simp only [rights, ho, if_true]
  rw [show mode / 64 % 8 = mode / 2 ^ 6 % 2 ^ 3 from rfl, Nat.testBit_mod_two_pow,
    Nat.testBit_div_two_pow]
  simp [hb]

theorem rights_lt (fs : FileSystem) (i mode : Nat) : fs.rights i mode < 8 := by
  unfold rights
  split <;> exact Nat.mod_lt _ (by decide)

/-- Where the mask leaves the owner the right to write, a new file can be written again. -/
theorem mayWrite_masked (fs : FileSystem) (i : Nat) (ho : fs.owns i = true)
    (hm : fs.mask &&& 0o200 = 0) : fs.mayWrite i (fs.masked 0o666) = true := by
  rw [mayWrite, testBit_one _ (rights_lt fs i _), rights_testBit fs i _ 1 ho (by decide)]
  exact testBit_masked fs 0o666 7 (by decide) (by decide) (testBit_and_zero _ _ 7 (by decide) hm)

/-- Where it leaves the owner the right to read, what has been written can be read. -/
theorem mayRead_masked (fs : FileSystem) (i mode : Nat) (ho : fs.owns i = true)
    (h : mode.testBit 8 = true) (hm : fs.mask &&& 0o400 = 0) :
    fs.mayRead i (fs.masked mode) = true := by
  rw [mayRead, testBit_two _ (rights_lt fs i _), rights_testBit fs i _ 2 ho (by decide)]
  exact testBit_masked fs mode 8 (by decide) h (testBit_and_zero _ _ 8 (by decide) hm)

/-! ## Filling a file -/

def refilled (bytes : ByteArray) : Node → Node
  | .file mode _ => .file (withoutPrivilege mode) bytes
  | n => n

theorem node?_fillNode (fs : FileSystem) (i : Nat) (bytes : ByteArray) (k : Nat) :
    (fs.fillNode i bytes).node? k =
      if k = i then (fs.node? i).map (refilled bytes) else fs.node? k := by
  unfold fillNode
  split
  · rename_i mode old hn
    by_cases hk : k = i
    · subst hk
      simp [node?_setNode_self fs k _ (node?_size fs k _ hn), hn, refilled]
    · rw [node?_setNode_ne fs i k _ (Ne.symm hk), if_neg hk]
  · rename_i hn
    by_cases hk : k = i
    · subst hk
      cases h : fs.node? k with
      | none => simp
      | some n =>
        cases n with
        | file mode old => exact absurd h (hn mode old)
        | _ => simp [refilled]
    · rw [if_neg hk]

theorem fillNode_size (fs : FileSystem) (i : Nat) (bytes : ByteArray) :
    (fs.fillNode i bytes).nodes.size = fs.nodes.size := by
  unfold fillNode
  split <;> simp [setNode]

/-- Filling a file leaves every node as it was, but for that file. -/
theorem fillNode_node (fs : FileSystem) (i k : Nat) (bytes : ByteArray) :
    (fs.fillNode i bytes).node? k = fs.node? k ∨
      ∃ mode held, fs.node? k = some (.file mode held) ∧
        (fs.fillNode i bytes).node? k = some (.file (withoutPrivilege mode) bytes) := by
  rw [node?_fillNode]
  by_cases hk : k = i
  · subst hk
    cases fs.node? k with
    | none => simp
    | some n => cases n <;> simp [refilled]
  · exact Or.inl (if_neg hk)

theorem fillNode_device (fs : FileSystem) (i k : Nat) (d : Device) (bytes : ByteArray) :
    (fs.fillNode i bytes).node? k = some (.device d) ↔ fs.node? k = some (.device d) := by
  rcases fillNode_node fs i k bytes with h | ⟨mode, held, hn, hn'⟩
  · rw [h]
  · simp [hn, hn']

theorem fillNode_of_device (fs : FileSystem) (i : Nat) (d : Device) (bytes : ByteArray)
    (h : fs.node? i = some (.device d)) : fs.fillNode i bytes = fs := by
  simp [fillNode, h]

theorem alike_fillNode (fs : FileSystem) (i : Nat) (bytes : ByteArray) :
    Alike fs (fs.fillNode i bytes) := by
  constructor
  · unfold fillNode
    split <;> rfl
  · intro k
    rw [node?_fillNode]
    by_cases hk : k = i
    · subst hk
      cases fs.node? k with
      | none => simp
      | some n => cases n <;> simp [refilled]
    · simp [hk]

theorem alike_setNodeMode (fs : FileSystem) (i mode : Nat) :
    Alike fs (fs.setNodeMode i mode) := by
  unfold setNodeMode
  split
  · rename_i hn
    refine ⟨rfl, fun k => ?_⟩
    by_cases hk : i = k
    · subst hk
      simp [node?_setNode_self fs i _ (node?_size fs i _ hn), hn]
    · exact Or.inl (node?_setNode_ne fs i k _ hk)
  · exact ⟨rfl, fun _ => Or.inl rfl⟩

structure SameCaller (fs fs' : FileSystem) : Prop where
  workDir : fs'.workDir = fs.workDir
  foreign : fs'.foreign = fs.foreign
  mask : fs'.mask = fs.mask

theorem SameCaller.symm {a b : FileSystem} (h : SameCaller a b) : SameCaller b a :=
  ⟨h.workDir.symm, h.foreign.symm, h.mask.symm⟩

theorem SameCaller.trans {a b c : FileSystem} (h : SameCaller a b) (h' : SameCaller b c) :
    SameCaller a c :=
  ⟨h'.workDir.trans h.workDir, h'.foreign.trans h.foreign, h'.mask.trans h.mask⟩

section

variable {fs fs' : FileSystem} (h : SameCaller fs fs')

include h

theorem SameCaller.owns : fs'.owns = fs.owns := by
  funext i
  simp only [FileSystem.owns, h.foreign]

theorem SameCaller.mayWrite : fs'.mayWrite = fs.mayWrite := by
  funext i mode
  simp only [FileSystem.mayWrite, rights, h.owns]

theorem SameCaller.masked : fs'.masked = fs.masked := by
  funext mode
  simp only [FileSystem.masked, h.mask]

end

/-- What is new comes after everything that is there. -/
theorem owns_new (fs : FileSystem) (dir : Nat) (hd : fs.isDirectory dir = true)
    (ho : fs.owns dir = true) : fs.owns fs.nodes.size = true := by
  have hsize := isDirectory_lt fs dir hd
  simp only [owns, decide_eq_true_eq] at ho ⊢
  omega

theorem ext_nodes (fs fs' : FileSystem) (h : SameCaller fs fs')
    (hn : ∀ k, fs.node? k = fs'.node? k) : fs = fs' := by
  obtain ⟨hw, hf, hm⟩ := h
  have hnodes : fs.nodes = fs'.nodes := Array.ext_getElem? hn
  cases fs
  cases fs'
  simp_all

theorem fillNode_caller (fs : FileSystem) (i : Nat) (bytes : ByteArray) :
    SameCaller fs (fs.fillNode i bytes) := by
  unfold fillNode
  split <;> exact ⟨rfl, rfl, rfl⟩

theorem setNodeMode_caller (fs : FileSystem) (i mode : Nat) :
    SameCaller fs (fs.setNodeMode i mode) := by
  unfold setNodeMode
  split <;> exact ⟨rfl, rfl, rfl⟩

theorem addNode_caller (fs : FileSystem) (dir : Nat) (name : String) (n : Node) :
    SameCaller fs (fs.addNode dir name n) := by
  unfold addNode addEntry
  split <;> exact ⟨rfl, rfl, rfl⟩

/-- What a file held before makes no difference to what it is filled with. -/
theorem fillNode_fillNode (fs : FileSystem) (i : Nat) (old bytes : ByteArray) :
    (fs.fillNode i old).fillNode i bytes = fs.fillNode i bytes := by
  have hcaller := (fillNode_caller fs i old).trans (fillNode_caller (fs.fillNode i old) i bytes)
  refine ext_nodes _ _ (hcaller.symm.trans (fillNode_caller fs i bytes)) fun k => ?_
  simp only [node?_fillNode]
  by_cases hk : k = i
  · cases fs.node? i with
    | none => simp [hk]
    | some n => cases n <;> simp [hk, refilled, withoutPrivilege_self]
  · simp [hk]

theorem fillNode_comm (fs : FileSystem) (i j : Nat) (a b : ByteArray) (h : i ≠ j) :
    (fs.fillNode i a).fillNode j b = (fs.fillNode j b).fillNode i a := by
  have hij := (fillNode_caller fs i a).trans (fillNode_caller (fs.fillNode i a) j b)
  have hji := (fillNode_caller fs j b).trans (fillNode_caller (fs.fillNode j b) i a)
  refine ext_nodes _ _ (hij.symm.trans hji) fun k => ?_
  simp only [node?_fillNode]
  by_cases hi : k = i
  · simp [hi, h]
  · by_cases hj : k = j <;> simp [hi, hj, Ne.symm h]

/-! ## What opening gives -/

/-- Opening `path` gives `i`: the file or the device that the path leads to, or a new empty file
where it ends. -/
inductive Opens (fs : FileSystem) (path : String) (mode : Nat) : Nat → FileSystem → Prop
  | file (t : Trail) (old : Nat) (bytes : ByteArray) :
      fs.reach true path = .ok (.found t) → fs.node? t.last = some (.file old bytes) →
      fs.mayWrite t.last old = true → Opens fs path mode t.last fs
  | device (t : Trail) (d : Device) :
      fs.reach true path = .ok (.found t) → fs.node? t.last = some (.device d) →
      d ≠ .terminal → Opens fs path mode t.last fs
  | made (dir : Trail) (name : String) :
      fs.reach true path = .ok (.vacant dir name) → fs.owns dir.last = true →
      Opens fs path mode fs.nodes.size
        (fs.addNode dir.last name (.file (fs.masked mode) .empty))

theorem openForChange_eq (fs : FileSystem) (path : String) (mode : Nat) :
    fs.openForChange path mode =
      match fs.reach true path with
      | .error e => .error e
      | .ok (.found t) =>
        match fs.node? t.last with
        | some (.file old _) =>
          if fs.mayWrite t.last old then .ok (t.last, fs) else .error .accessDenied
        | some (.device .terminal) => .error .noDevice
        | some (.device _) => .ok (t.last, fs)
        | _ => .error .isDirectory
      | .ok (.vacant dir name) =>
        if fs.owns dir.last then
          .ok (fs.nodes.size, fs.addNode dir.last name (.file (fs.masked mode) .empty))
        else .error .accessDenied := by
  unfold openForChange createIn
  cases fs.reach true path with
  | error e => rfl
  | ok r =>
    cases r with
    | found t => rfl
    | vacant dir name =>
      by_cases ho : fs.owns dir.last = true <;> simp [ho, bind, Except.bind]

theorem openForChange_iff (fs fs' : FileSystem) (path : String) (mode i : Nat) :
    fs.openForChange path mode = .ok (i, fs') ↔ Opens fs path mode i fs' := by
  rw [openForChange_eq]
  constructor
  · intro h
    split at h
    · simp at h
    · rename_i t hr
      split at h
      · rename_i old bytes hn
        split at h
        · rename_i hw
          simp only [Except.ok.injEq, Prod.mk.injEq] at h
          exact h.1 ▸ h.2 ▸ .file t old bytes hr hn hw
        · simp at h
      · simp at h
      · rename_i d hd hn
        simp only [Except.ok.injEq, Prod.mk.injEq] at h
        exact h.1 ▸ h.2 ▸ .device t d hr hn (by rintro rfl; exact hd rfl)
      · simp at h
    · rename_i dir name hr
      split at h
      · rename_i ho
        simp only [Except.ok.injEq, Prod.mk.injEq] at h
        exact h.1 ▸ h.2 ▸ .made dir name hr ho
      · simp at h
  · intro h
    cases h with
    | file t old bytes hr hn hw => simp [hr, hn, hw]
    | device t d hr hn hd =>
      simp only [hr, hn]
    | made dir name hr ho => simp [hr, ho]

section

variable {fs fs' : FileSystem} {path : String} {mode i : Nat}

theorem Opens.grows (h : Opens fs path mode i fs') : Grows fs fs' :=
  openForChange_grows fs fs' path mode i ((openForChange_iff fs fs' path mode i).2 h)

theorem Opens.caller (h : Opens fs path mode i fs') : SameCaller fs fs' := by
  cases h with
  | file => exact ⟨rfl, rfl, rfl⟩
  | device => exact ⟨rfl, rfl, rfl⟩
  | made dir name => exact addNode_caller fs _ _ _

/-- The path leads to what has been opened. -/
theorem Opens.leads (h : Opens fs path mode i fs') :
    ∃ t, fs'.reach true path = .ok (.found t) ∧ t.last = i := by
  cases h with
  | file t old bytes hr => exact ⟨t, hr, rfl⟩
  | device t d hr => exact ⟨t, hr, rfl⟩
  | made dir name hr ho =>
    obtain ⟨hd, -⟩ := reach_vacant fs true path name dir hr
    have hfilled := (reach_addNode fs dir.last name (fs.masked mode) .empty hd true path).1 _ hr
    exact ⟨(name, fs.nodes.size) :: dir, by simpa [Reached.filled] using hfilled, rfl⟩

theorem Opens.kind (h : Opens fs path mode i fs') :
    (∃ m bytes, fs'.node? i = some (.file m bytes)) ∨ ∃ d, fs'.node? i = some (.device d) := by
  cases h with
  | file t old bytes hr hn => exact Or.inl ⟨_, _, hn⟩
  | device t d hr hn => exact Or.inr ⟨_, hn⟩
  | made dir name hr ho =>
    exact Or.inl ⟨_, _, addNode_new fs dir.last name _ (reach_vacant fs true path name dir hr).1⟩

theorem Opens.size (h : Opens fs path mode i fs') : i < fs'.nodes.size := by
  rcases h.kind with ⟨m, bytes, hn⟩ | ⟨d, hn⟩
  · exact node?_size fs' i _ hn
  · exact node?_size fs' i _ hn

/-- Every node but a directory is what it was, and what is new is what has been opened. -/
theorem Opens.keeps (h : Opens fs path mode i fs') (k : Nat) (n : Node)
    (hk : fs.node? k = some n) (hd : fs.isDirectory k = false) : fs'.node? k = some n := by
  cases h with
  | file => exact hk
  | device => exact hk
  | made dir name hr ho =>
    exact addNode_keeps fs dir.last name _ n k (reach_vacant fs true path name dir hr).1 hk hd

end

end ImageTools.FileSystem
