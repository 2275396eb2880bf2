import ImageTools.Proofs.Writing

/-!
# Paths to a file that has just been made

A new file takes the place where a path ended at a missing name. Every path
that ended there leads to the file from now on, every other path leads where
it led, and a path that led nowhere still leads nowhere. What files hold and
which permission bits they have is no part of the way to them.
-/

set_option autoImplicit false

namespace ImageTools

namespace FileSystem

/-! ## A new name in a directory -/

theorem isDirectory_entries (fs : FileSystem) (i : Nat) (h : fs.isDirectory i = true) :
    ∃ entries, fs.node? i = some (.directory entries) := by
  unfold isDirectory at h
  split at h
  · exact ⟨_, ‹_›⟩
  · simp at h

/-- The nodes after a new file has been named in a directory. -/
theorem node?_addNode (fs : FileSystem) (dir : Nat) (name : String) (n : Node)
    (entries : List (String × Nat)) (hd : fs.node? dir = some (.directory entries)) :
    (fs.addNode dir name n).node? fs.nodes.size = some n ∧
    (fs.addNode dir name n).node? dir =
      some (.directory (entries ++ [(name, fs.nodes.size)])) ∧
    ∀ i, i ≠ dir → i ≠ fs.nodes.size → (fs.addNode dir name n).node? i = fs.node? i := by
  have hs := node?_size fs dir _ hd
  have hp : (fs.nodes.push n)[dir]? = some (.directory entries) := by
    rw [Array.getElem?_push, if_neg (Nat.ne_of_lt hs)]
    exact hd
  have ha : fs.addNode dir name n = FileSystem.setNode { fs with nodes := fs.nodes.push n } dir
      (.directory (entries ++ [(name, fs.nodes.size)])) := by
    simp [addNode, addEntry, node?, hp]
  refine ⟨?_, ?_, fun i hi hn => ?_⟩
  · rw [ha, node?_setNode_ne _ _ _ _ (Nat.ne_of_lt hs)]
    simp [node?]
  · rw [ha]
    exact node?_setNode_self _ _ _ (by simp; omega)
  · rw [ha, node?_setNode_ne _ _ _ _ (Ne.symm hi)]
    simp [node?, Array.getElem?_push, hn]

theorem isDirectory_lt (fs : FileSystem) (i : Nat) (h : fs.isDirectory i = true) :
    i < fs.nodes.size := by
  obtain ⟨entries, hn⟩ := isDirectory_entries fs i h
  exact node?_size fs i _ hn

theorem addNode_new (fs : FileSystem) (dir : Nat) (name : String) (n : Node)
    (hd : fs.isDirectory dir = true) :
    FileSystem.node? (fs.addNode dir name n) fs.nodes.size = some n := by
  obtain ⟨entries, hn⟩ := isDirectory_entries fs dir hd
  exact (node?_addNode fs dir name n entries hn).1

/-- What is no directory stays as it is. -/
theorem addNode_keeps (fs : FileSystem) (dir : Nat) (name : String) (n old : Node) (i : Nat)
    (hd : fs.isDirectory dir = true) (hi : fs.node? i = some old)
    (hf : fs.isDirectory i = false) :
    FileSystem.node? (fs.addNode dir name n) i = some old := by
  obtain ⟨entries, hn⟩ := isDirectory_entries fs dir hd
  have hne : i ≠ dir := fun h => by rw [h, hd] at hf; simp at hf
  rw [(node?_addNode fs dir name n entries hn).2.2 i hne (Nat.ne_of_lt (node?_size fs i old hi)),
    hi]

theorem addNode_entry (fs : FileSystem) (dir : Nat) (name : String) (n : Node)
    (hd : fs.isDirectory dir = true) (he : fs.entry? dir name = none) :
    FileSystem.entry? (fs.addNode dir name n) dir name = some fs.nodes.size := by
  obtain ⟨entries, hn⟩ := isDirectory_entries fs dir hd
  simp only [hn, entry?] at he
  simp [(node?_addNode fs dir name n entries hn).2.1, entry?, List.lookup_append, he]

/-! ## Contents and permission bits are no part of a way -/

/-- The same nodes, but for what files hold and their permission bits. -/
structure Alike (fs fs' : FileSystem) : Prop where
  workDir : fs'.workDir = fs.workDir
  nodes : ∀ i, fs'.node? i = fs.node? i ∨
    ((∃ mode bytes, fs.node? i = some (.file mode bytes)) ∧
      ∃ mode bytes, fs'.node? i = some (.file mode bytes))

theorem stride_alike (fs fs' : FileSystem) (h : Alike fs fs') (creating : Bool) (t : Trail)
    (ns : List String) : fs'.stride creating t ns = fs.stride creating t ns := by
  induction ns generalizing t with
  | nil => rfl
  | cons name ns ih =>
    unfold stride
    rcases h.nodes t.last with hn | ⟨⟨_, _, hn⟩, _, _, hn'⟩
    · rw [hn]
      split
      · simp only [ih]
        cases List.lookup name _ with
        | none => rfl
        | some i =>
          rcases h.nodes i with hi | ⟨⟨_, _, hi⟩, _, _, hi'⟩
          · simp only [hi]
          · simp only [hi, hi']
      · rfl
    · simp [hn, hn']

theorem walk_alike (fs fs' : FileSystem) (h : Alike fs fs') (creating : Bool) (links : Nat)
    (t : Trail) (ns : List String) :
    fs'.walk creating links t ns = fs.walk creating links t ns := by
  induction links generalizing t ns with
  | zero => unfold walk; rw [stride_alike fs fs' h]
  | succ links ih => unfold walk; simp only [stride_alike fs fs' h, ih]

theorem reach_alike (fs fs' : FileSystem) (h : Alike fs fs') (creating : Bool) (path : String) :
    fs'.reach creating path = fs.reach creating path := by
  simp only [reach, absoluteNames, h.workDir, walk_alike fs fs' h]

/-! ## The place where a path ends -/

theorem stride_missing (fs : FileSystem) (creating : Bool) (t t' : Trail) (ns rest : List String)
    (name : String) (h : fs.stride creating t ns = .missing t' name rest) :
    fs.isDirectory t'.last = true ∧ fs.entry? t'.last name = none := by
  induction ns generalizing t with
  | nil => simp [stride] at h
  | cons key ns ih =>
    unfold stride at h
    split at h
    · rename_i entries hn
      split at h
      · exact ih t h
      split at h
      · exact ih t.tail h
      split at h
      · simp at h
      split at h
      · simp at h
      split at h
      · rename_i hl
        simp only [Stride.missing.injEq] at h
        obtain ⟨rfl, rfl, -⟩ := h
        simp [isDirectory, entry?, hn, hl]
      · split at h
        · simp at h
        · exact ih _ h
    · simp at h

theorem walk_vacant (fs : FileSystem) (creating : Bool) (links : Nat) (t dir : Trail)
    (ns : List String) (name : String)
    (h : fs.walk creating links t ns = .ok (.vacant dir name)) :
    fs.isDirectory dir.last = true ∧ fs.entry? dir.last name = none := by
  induction links using Nat.strongRecOn generalizing t ns with
  | ind links ih =>
    unfold walk at h
    split at h <;> try simp at h
    · rename_i hm
      exact h.1 ▸ h.2 ▸ stride_missing fs creating t _ ns [] _ hm
    · cases links with
      | zero => simp at h
      | succ links => exact ih links (Nat.lt_succ_self links) _ _ h

theorem reach_vacant (fs : FileSystem) (creating : Bool) (path name : String) (dir : Trail)
    (h : fs.reach creating path = .ok (.vacant dir name)) :
    fs.isDirectory dir.last = true ∧ fs.entry? dir.last name = none := by
  unfold reach at h
  split at h
  · simp at h
  · exact walk_vacant fs creating _ _ _ _ _ h

/-! ## Paths once the file is there -/

end FileSystem

def Reached.filled (dir : Nat) (name : String) (i : Nat) : Reached → Reached
  | .found t => .found t
  | .vacant t key => if t.last = dir ∧ key = name then .found ((key, i) :: t) else .vacant t key

namespace FileSystem

section

variable (fs : FileSystem) (dir : Nat) (name : String) (mode : Nat) (bytes : ByteArray)

/-- Directories have the names that they had, and one of them has the new one. -/
theorem addNode_names (hd : fs.isDirectory dir = true)
    (i : Nat) (es : List (String × Nat)) (hi : fs.node? i = some (.directory es)) :
    ∃ es', (fs.addNode dir name (.file mode bytes)).node? i = some (.directory es') ∧
      ∀ key, es'.lookup key = match es.lookup key with
        | some j => some j
        | none => if i = dir ∧ key = name then some fs.nodes.size else none := by
  obtain ⟨entries, hn⟩ := isDirectory_entries fs dir hd
  obtain ⟨-, hdir, hold⟩ := node?_addNode fs dir name (.file mode bytes) entries hn
  by_cases ht : i = dir
  · rw [ht, hn, Option.some.injEq, Node.directory.injEq] at hi
    subst hi
    refine ⟨_, by rw [ht]; exact hdir, fun key => ?_⟩
    rw [List.lookup_append]
    cases entries.lookup key with
    | some j => rfl
    | none =>
      by_cases hk : key = name
      · simp [hk, ht]
      · have hne : (key == name) = false := by simpa using hk
        simp [hk, List.lookup_cons, hne]
  · have hs : i ≠ fs.nodes.size := Nat.ne_of_lt (node?_size fs _ _ hi)
    refine ⟨es, (hold _ ht hs).trans hi, fun key => ?_⟩
    cases es.lookup key with
    | some j => rfl
    | none => simp [ht]

theorem entry?_addNode (hd : fs.isDirectory dir = true) (i : Nat) (key : String) :
    FileSystem.entry? (fs.addNode dir name (.file mode bytes)) i key =
      match fs.entry? i key with
      | some j => some j
      | none => if i = dir ∧ key = name then some fs.nodes.size else none := by
  obtain ⟨entries, hn⟩ := isDirectory_entries fs dir hd
  by_cases hi : fs.isDirectory i = true
  · obtain ⟨es, hes⟩ := isDirectory_entries fs i hi
    obtain ⟨es', hes', hl⟩ := addNode_names fs dir name mode bytes hd i es hes
    simp only [hes, hes', entry?]
    exact hl key
  · have hne : i ≠ dir := fun h => hi (h ▸ hd)
    have hnone : fs.entry? i key = none := by
      unfold entry?
      split
      · rename_i hes
        simp [isDirectory, hes] at hi
      · rfl
    obtain ⟨hnew, -, hold⟩ := node?_addNode fs dir name (.file mode bytes) entries hn
    rw [hnone]
    by_cases hs : i = fs.nodes.size
    · simp [hs, entry?, hnew, Ne.symm (Nat.ne_of_lt (node?_size fs dir _ hn))]
    · simp only [hold i hne hs, entry?, hne, false_and, if_false]
      exact hnone

theorem stride_addNode (hd : fs.isDirectory dir = true)
    (creating : Bool) (t : Trail) (ns : List String) :
    (fs.addNode dir name (.file mode bytes)).stride creating t ns =
      match fs.stride creating t ns with
      | .missing t' key rest =>
        if t'.last = dir ∧ key = name then
          (fs.addNode dir name (.file mode bytes)).stride creating ((key, fs.nodes.size) :: t') rest
        else .missing t' key rest
      | other => other := by
  have hg := grows_addNode fs dir name mode bytes
  have hnames := addNode_names fs dir name mode bytes hd
  have hnew := addNode_new fs dir name (.file mode bytes) hd
  generalize fs.addNode dir name (.file mode bytes) = fs' at hg hnames hnew ⊢
  induction ns generalizing t with
  | nil => simp [stride]
  | cons key ns ih =>
    have hlast := hg.nodes t.last
    rw [stride.eq_2, stride.eq_2]
    cases hnode : fs.node? t.last with
    | some n =>
      rw [hnode] at hlast
      cases n with
      | directory es =>
        obtain ⟨es', hes', hl'⟩ := hnames _ es hnode
        simp only [hes']
        split
        · exact ih t
        split
        · exact ih t.tail
        split
        · rfl
        split
        · rfl
        rw [hl']
        cases es.lookup key with
        | some i =>
          simp only
          have hk := hg.nodes i
          cases hi : fs.node? i with
          | none =>
            rw [hi] at hk
            rcases hk with hf | ⟨_, _, hf⟩ <;> simp only [hf] <;> exact ih _
          | some n =>
            rw [hi] at hk
            cases n with
            | link target =>
              have hf : fs'.node? i = some (.link target) := hk
              simp [hf]
            | device d =>
              have hf : fs'.node? i = some (.device d) := hk
              simp only [hf]
              exact ih _
            | directory _ =>
              obtain ⟨_, hf, -⟩ := hk
              simp only [hf]
              exact ih _
            | file _ _ =>
              obtain ⟨_, _, hf⟩ := hk
              simp only [hf]
              exact ih _
        | none =>
          by_cases hend : t.last = dir ∧ key = name
          · simp [hend, hnew]
          · simp [hend]
      -- What is no directory now was none before, so no name follows it.
      | file _ _ =>
        obtain ⟨_, _, hf⟩ := hlast
        simp [hf]
      | link target =>
        have hf : fs'.node? t.last = some (.link target) := hlast
        simp [hf]
      | device d =>
        have hf : fs'.node? t.last = some (.device d) := hlast
        simp [hf]
    | none => rcases hnode ▸ hlast with hf | ⟨_, _, hf⟩ <;> simp [hf]

/-- Nothing follows the name of a file. -/
theorem stride_behind_file (creating : Bool) (t : Trail) (key : String) (rest : List String)
    (h : fs.node? t.last = some (.file mode bytes)) :
    fs.stride creating t (key :: rest) = .failed .notDirectory := by
  simp [stride, h]

theorem walk_addNode (hd : fs.isDirectory dir = true)
    (creating : Bool) (links : Nat) (t : Trail) (ns : List String) :
    (∀ r, fs.walk creating links t ns = .ok r →
      (fs.addNode dir name (.file mode bytes)).walk creating links t ns =
        .ok (r.filled dir name fs.nodes.size)) ∧
    (∀ e, fs.walk creating links t ns = .error e →
      ∃ e', (fs.addNode dir name (.file mode bytes)).walk creating links t ns = .error e') := by
  have hnew := addNode_new fs dir name (.file mode bytes) hd
  have hstride := stride_addNode fs dir name mode bytes hd creating
  generalize fs.addNode dir name (.file mode bytes) = fs' at hnew hstride ⊢
  have hend : ∀ t' key, fs'.stride creating ((key, fs.nodes.size) :: t') [] =
      .arrived ((key, fs.nodes.size) :: t') := fun _ _ => rfl
  have hbehind : ∀ t' key next rest,
      fs'.stride creating ((key, fs.nodes.size) :: t') (next :: rest) = .failed .notDirectory :=
    fun t' key next rest => stride_behind_file fs' mode bytes creating _ next rest hnew
  induction links using Nat.strongRecOn generalizing t ns with
  | ind links ih =>
    unfold walk
    rw [hstride]
    cases fs.stride creating t ns with
    | arrived t' => simp [Reached.filled]
    | failed e => simp
    -- The new file is met where the way ended before; behind it there is nothing.
    | missing t' key rest =>
      cases rest with
      | nil => by_cases hk : t'.last = dir ∧ key = name <;> simp [Reached.filled, hk, hend]
      | cons next rest => by_cases hk : t'.last = dir ∧ key = name <;> simp [hk, hbehind]
    | link t' target rest =>
      cases links with
      | zero => simp
      | succ links => exact ih links (Nat.lt_succ_self links) _ _

/-- A new file is found by every path that ended where it was made, and by no
other. -/
theorem reach_addNode (hd : fs.isDirectory dir = true)
    (creating : Bool) (path : String) :
    (∀ r, fs.reach creating path = .ok r →
      (fs.addNode dir name (.file mode bytes)).reach creating path =
        .ok (r.filled dir name fs.nodes.size)) ∧
    (∀ e, fs.reach creating path = .error e →
      ∃ e', (fs.addNode dir name (.file mode bytes)).reach creating path = .error e') := by
  have hnames := absoluteNames_grows fs _ (grows_addNode fs dir name mode bytes) path
  unfold reach
  rw [hnames]
  cases refused? path with
  | some e => simp
  | none => exact walk_addNode fs dir name mode bytes hd creating _ _ _

end

end FileSystem

end ImageTools
