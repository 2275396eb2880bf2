import ImageTools.FileSystem.Access

/-!
# How paths are followed

A path that leads somewhere goes on leading there while files are written
and names are added: links, and the names that are already in a directory,
stay. A path opened for creation leads to the same places as one opened for
looking, unless slashes after its last name forbid it. Following a name
behind a path is following the longer path.
-/

set_option autoImplicit false

namespace ImageTools.FileSystem

/-! ## Changes that lose no name -/

def Kept : Option Node → Option Node → Prop
  | some (.directory entries), n =>
    ∃ more, n = some (.directory more) ∧
      ∀ name i, entries.lookup name = some i → more.lookup name = some i
  | some (.file _ _), n => ∃ mode bytes, n = some (.file mode bytes)
  | some n, n' => n' = some n
  | none, n => n = none ∨ ∃ mode bytes, n = some (.file mode bytes)

structure Grows (fs fs' : FileSystem) : Prop where
  workDir : fs'.workDir = fs.workDir
  foreign : fs'.foreign = fs.foreign
  nodes : ∀ i, Kept (fs.node? i) (fs'.node? i)

theorem kept_refl (n : Option Node) : Kept n n := by
  match n with
  | none => exact Or.inl rfl
  | some (.directory entries) => exact ⟨entries, rfl, fun _ _ h => h⟩
  | some (.file mode bytes) => exact ⟨mode, bytes, rfl⟩
  | some (.link _) => rfl
  | some (.device _) => rfl

theorem kept_trans (a b c : Option Node) (h : Kept a b) (h' : Kept b c) : Kept a c := by
  match a with
  | none =>
    rcases h with rfl | ⟨mode, bytes, rfl⟩
    · exact h'
    · exact Or.inr h'
  | some (.directory entries) =>
    obtain ⟨more, rfl, hmore⟩ := h
    obtain ⟨most, rfl, hmost⟩ := h'
    exact ⟨most, rfl, fun name i hi => hmost name i (hmore name i hi)⟩
  | some (.file _ _) =>
    obtain ⟨mode, bytes, rfl⟩ := h
    exact h'
  | some (.link _) =>
    subst h
    exact h'
  | some (.device _) =>
    subst h
    exact h'

theorem kept_link (a b : Option Node) (target : String) (h : Kept a b) :
    b = some (.link target) ↔ a = some (.link target) := by
  match a with
  | none => rcases h with rfl | ⟨_, _, rfl⟩ <;> simp
  | some (.directory _) =>
    obtain ⟨_, rfl, -⟩ := h
    simp
  | some (.file _ _) =>
    obtain ⟨_, _, rfl⟩ := h
    simp
  | some (.link _) =>
    have hb : b = some (.link _) := h
    rw [hb]
  | some (.device _) =>
    have hb : b = some (.device _) := h
    simp [hb]

theorem grows_refl (fs : FileSystem) : Grows fs fs := ⟨rfl, rfl, fun _ => kept_refl _⟩

theorem Grows.trans {a b c : FileSystem} (h : Grows a b) (h' : Grows b c) : Grows a c :=
  ⟨h'.workDir.trans h.workDir, h'.foreign.trans h.foreign,
    fun i => kept_trans _ _ _ (h.nodes i) (h'.nodes i)⟩

theorem grows_setNode (fs : FileSystem) (i : Nat) (n : Node) (h : Kept (fs.node? i) (some n)) :
    Grows fs (fs.setNode i n) := by
  refine ⟨rfl, rfl, fun j => ?_⟩
  by_cases hj : i = j
  · subst hj
    by_cases hi : i < fs.nodes.size
    · rw [node?_setNode_self fs i n hi]
      exact h
    · have hn : fs.setNode i n = fs := by simp [setNode, Array.setIfInBounds, hi]
      rw [hn]
      exact kept_refl _
  · rw [node?_setNode_ne fs i j n hj]
    exact kept_refl _

theorem grows_addEntry (fs : FileSystem) (dir : Nat) (name : String) (i : Nat) :
    Grows fs (fs.addEntry dir name i) := by
  unfold addEntry
  split
  · rename_i entries h
    apply grows_setNode
    rw [h]
    exact ⟨_, rfl, fun key j hj => by simp [List.lookup_append, hj]⟩
  · exact grows_refl fs

theorem grows_push (fs : FileSystem) (mode : Nat) (bytes : ByteArray) :
    Grows fs { fs with nodes := fs.nodes.push (.file mode bytes) } := by
  refine ⟨rfl, rfl, fun i => ?_⟩
  simp only [node?, Array.getElem?_push]
  split
  · subst i
    simp [Kept]
  · exact kept_refl _

theorem grows_addNode (fs : FileSystem) (dir : Nat) (name : String) (mode : Nat)
    (bytes : ByteArray) : Grows fs (fs.addNode dir name (.file mode bytes)) :=
  (grows_push fs mode bytes).trans (grows_addEntry _ dir name _)

/-! ## Paths in a file system that grows -/

theorem stride_grows (fs fs' : FileSystem) (h : Grows fs fs') (creating : Bool) (t : Trail)
    (ns : List String) :
    (∀ t', fs.stride creating t ns = .arrived t' → fs'.stride creating t ns = .arrived t') ∧
    (∀ t' target rest, fs.stride creating t ns = .link t' target rest →
      fs'.stride creating t ns = .link t' target rest) := by
  induction ns generalizing t with
  | nil => simp [stride]
  | cons name ns ih =>
    have hd := h.nodes t.last
    unfold stride
    match hn : fs.node? t.last with
    | some (.directory entries) =>
      rw [hn] at hd
      obtain ⟨more, hm, hmore⟩ := hd
      simp only [hm]
      split
      · exact ih t
      split
      · exact ih t.tail
      split
      · simp
      split
      · simp
      match hl : entries.lookup name with
      | none => simp
      | some i =>
        have hlink := fun target => kept_link _ _ target (h.nodes i)
        simp only [hmore name i hl]
        split
        · rename_i target hi
          simp [(hlink target).2 hi]
        · rename_i hi
          split
          · rename_i target hi'
            exact absurd ((hlink target).1 hi') (hi target)
          · exact ih _
    | none => simp
    | some (.file _ _) => simp
    | some (.link _) => simp
    | some (.device _) => simp

/-- The names `ns` lead from `t` to `t'` over at most so many links. -/
inductive Leads (fs : FileSystem) (creating : Bool) : Nat → Trail → List String → Trail → Prop
  | arrived {links : Nat} {t t' : Trail} {ns : List String} :
      fs.stride creating t ns = .arrived t' → Leads fs creating links t ns t'
  | link {links : Nat} {t t' stop : Trail} {ns rest : List String} {target : String} :
      fs.stride creating t ns = .link stop target rest →
      Leads fs creating links (startOf stop target) (Path.names target ++ rest) t' →
      Leads fs creating (links + 1) t ns t'

theorem walk_found (fs : FileSystem) (creating : Bool) (links : Nat) (t t' : Trail)
    (ns : List String) :
    fs.walk creating links t ns = .ok (.found t') ↔ Leads fs creating links t ns t' := by
  constructor
  · intro hw
    induction links generalizing t ns with
    | zero =>
      unfold walk at hw
      split at hw <;> simp at hw
      rename_i ha
      exact hw ▸ .arrived ha
    | succ links ih =>
      unfold walk at hw
      split at hw <;> try simp at hw
      · rename_i ha
        exact hw ▸ .arrived ha
      · rename_i hl
        exact .link hl (ih _ _ hw)
  · intro h
    induction h with
    | arrived ha =>
      unfold walk
      rw [ha]
    | link hl _ ih =>
      unfold walk
      rw [hl]
      exact ih

theorem walk_grows (fs fs' : FileSystem) (h : Grows fs fs') (creating : Bool) (links : Nat)
    (t t' : Trail) (ns : List String) (hw : fs.walk creating links t ns = .ok (.found t')) :
    fs'.walk creating links t ns = .ok (.found t') := by
  rw [walk_found] at hw ⊢
  induction hw with
  | arrived ha => exact .arrived ((stride_grows fs fs' h creating _ _).1 _ ha)
  | link hl _ ih => exact .link ((stride_grows fs fs' h creating _ _).2 _ _ _ hl) ih

theorem resolve_ok (fs : FileSystem) (path : String) (t : Trail) :
    fs.resolve path = .ok t ↔
      refused? path = none ∧
        fs.walk false linkLimit [] (fs.absoluteNames path) = .ok (.found t) := by
  unfold resolve reach
  cases refused? path with
  | some e => simp
  | none =>
    simp only [true_and]
    split <;> simp_all

theorem absoluteNames_grows (fs fs' : FileSystem) (h : Grows fs fs') (path : String) :
    fs'.absoluteNames path = fs.absoluteNames path := by
  simp [absoluteNames, h.workDir]

theorem resolve_grows (fs fs' : FileSystem) (h : Grows fs fs') (path : String) (t : Trail)
    (hr : fs.resolve path = .ok t) : fs'.resolve path = .ok t := by
  rw [resolve_ok] at hr ⊢
  rw [absoluteNames_grows fs fs' h]
  exact ⟨hr.1, walk_grows fs fs' h _ _ _ _ _ hr.2⟩

theorem reach_grows (fs fs' : FileSystem) (h : Grows fs fs') (creating : Bool) (path : String)
    (t : Trail) (hr : fs.reach creating path = .ok (.found t)) :
    fs'.reach creating path = .ok (.found t) := by
  unfold reach at hr ⊢
  rw [absoluteNames_grows fs fs' h]
  cases hp : refused? path with
  | some e => simp [hp] at hr
  | none =>
    rw [hp] at hr
    exact walk_grows fs fs' h _ _ _ _ _ hr

theorem parentOf_ok (fs : FileSystem) (path : String) (dir : Trail) (name : String) :
    fs.parentOf path = .ok (dir, name) ↔
      refused? path = none ∧
        fs.walk false linkLimit [] (fs.absoluteNames path).dropLast = .ok (.found dir) ∧
        fs.isDirectory dir.last = true ∧ (fs.absoluteNames path).getLastD "" = name := by
  unfold parentOf
  cases refused? path with
  | some e => simp
  | none =>
    simp only [true_and]
    cases fs.walk false linkLimit [] (fs.absoluteNames path).dropLast with
    | error e => simp [bind, Except.bind]
    | ok r =>
      cases r with
      | vacant _ _ => simp [bind, Except.bind]
      | found t =>
        simp only [bind, Except.bind, Except.ok.injEq, Reached.found.injEq]
        split
        · rename_i hd
          simp only [Except.ok.injEq, Prod.mk.injEq]
          constructor
          · rintro ⟨rfl, rfl⟩
            exact ⟨rfl, hd, rfl⟩
          · rintro ⟨rfl, -, rfl⟩
            exact ⟨rfl, rfl⟩
        · rename_i hd
          simp only [reduceCtorEq, false_iff, not_and]
          rintro rfl hd'
          exact absurd hd' hd

theorem isDirectory_grows (fs fs' : FileSystem) (h : Grows fs fs') (i : Nat)
    (hi : fs.isDirectory i = true) : fs'.isDirectory i = true := by
  have hk := h.nodes i
  unfold isDirectory at hi ⊢
  split at hi
  · rename_i entries hn
    rw [hn] at hk
    obtain ⟨more, hm, -⟩ := hk
    rw [hm]
  · simp at hi

theorem parentOf_grows (fs fs' : FileSystem) (h : Grows fs fs') (path : String) (dir : Trail)
    (name : String) (hp : fs.parentOf path = .ok (dir, name)) :
    fs'.parentOf path = .ok (dir, name) := by
  rw [parentOf_ok] at hp ⊢
  rw [absoluteNames_grows fs fs' h]
  exact ⟨hp.1, walk_grows fs fs' h _ _ _ _ _ hp.2.1, isDirectory_grows fs fs' h _ hp.2.2.1,
    hp.2.2.2⟩

/-! ## Looking and creating -/

theorem stride_creating (fs : FileSystem) (t : Trail) (ns : List String) :
    fs.stride true t ns = .failed .isDirectory ∨ fs.stride true t ns = fs.stride false t ns := by
  induction ns generalizing t with
  | nil => simp [stride]
  | cons name ns ih =>
    unfold stride
    split
    · split
      · exact ih t
      split
      · exact ih t.tail
      split
      · exact Or.inl rfl
      simp only [Bool.false_and, Bool.false_eq_true, if_false]
      split
      · exact Or.inr rfl
      split
      · exact Or.inr rfl
      split
      · exact Or.inr rfl
      · exact ih _
    · exact Or.inr rfl

theorem walk_creating (fs : FileSystem) (links : Nat) (t : Trail) (ns : List String) :
    fs.walk true links t ns = .error .isDirectory ∨
      fs.walk true links t ns = fs.walk false links t ns := by
  induction links using Nat.strongRecOn generalizing t ns with
  | ind links ih =>
    unfold walk
    rcases stride_creating fs t ns with h | h
    · simp [h]
    rw [h]
    cases fs.stride false t ns with
    | arrived => exact Or.inr rfl
    | failed => exact Or.inr rfl
    | missing _ _ rest => cases rest <;> exact Or.inr rfl
    | link stop target rest =>
      cases links with
      | zero => exact Or.inr rfl
      | succ links => exact ih links (Nat.lt_succ_self links) _ _

theorem reach_creating (fs : FileSystem) (path : String) :
    fs.reach true path = .error .isDirectory ∨ fs.reach true path = fs.reach false path := by
  unfold reach
  cases refused? path with
  | some e => exact Or.inr rfl
  | none => exact walk_creating fs _ _ _

theorem resolve_of_reach (fs : FileSystem) (path : String) (t : Trail)
    (h : fs.reach true path = .ok (.found t)) : fs.resolve path = .ok t := by
  rcases reach_creating fs path with h' | h'
  · simp [h] at h'
  · rw [h'] at h
    simp [resolve, h]

/-- Names that end with a slash lead to a directory, or the link they stop at
is followed by names that do. -/
theorem stride_slash (fs : FileSystem) (creating : Bool) (t : Trail) (ns : List String)
    (hs : ns.getLast? = some "") :
    (∀ t', fs.stride creating t ns = .arrived t' → fs.isDirectory t'.last = true) ∧
    (∀ t' target rest, fs.stride creating t ns = .link t' target rest →
      rest.getLast? = some "") := by
  induction ns generalizing t with
  | nil => simp at hs
  | cons name ns ih =>
    have hrest : name ≠ "" → ns.getLast? = some "" := by
      intro hne
      cases ns with
      | nil => simp [hne] at hs
      | cons m ms => simpa [List.getLast?_cons_cons] using hs
    have hnil : name = "" → ns = [] ∨ ns.getLast? = some "" := by
      intro _
      cases ns with
      | nil => exact Or.inl rfl
      | cons m ms => exact Or.inr (by simpa [List.getLast?_cons_cons] using hs)
    unfold stride
    split
    · rename_i entries hd
      split
      · rename_i hidle
        by_cases hempty : name = ""
        · rcases hnil hempty with rfl | hl
          · simp only [stride, Stride.arrived.injEq, reduceCtorEq, false_implies, implies_true,
              and_true]
            rintro t' rfl
            simp [isDirectory, hd]
          · exact ih t hl
        · exact ih t (hrest hempty)
      · rename_i hidle
        have hl := hrest (fun h => hidle (Or.inl h))
        split
        · exact ih _ hl
        split
        · simp
        split
        · simp
        split
        · simp
        split
        · simp only [reduceCtorEq, false_implies, implies_true, Stride.link.injEq, true_and]
          rintro t' target rest ⟨rfl, rfl, rfl⟩
          exact hl
        · exact ih _ hl
    · simp

theorem walk_slash (fs : FileSystem) (creating : Bool) (links : Nat) (t t' : Trail)
    (ns : List String) (hs : ns.getLast? = some "")
    (hw : fs.walk creating links t ns = .ok (.found t')) : fs.isDirectory t'.last = true := by
  rw [walk_found] at hw
  induction hw with
  | arrived ha => exact (stride_slash fs creating _ _ hs).1 _ ha
  | link hl _ ih =>
    have hlast := (stride_slash fs creating _ _ hs).2 _ _ _ hl
    exact ih (by simp [List.getLast?_append, hlast])

theorem slashed_getLast (rest : List String) (h : slashed rest = true) :
    rest.getLast? = some "" := by
  simp only [slashed, Bool.and_eq_true, Bool.not_eq_true', List.all_eq_true, beq_iff_eq] at h
  cases hl : rest.getLast? with
  | none => simp [List.getLast?_eq_none_iff] at hl; simp [hl] at h
  | some name => rw [h.2 name (List.mem_of_getLast? hl)]

/-- Looking at names and creating them differ only where names that end with
a slash follow. -/
theorem stride_file (fs : FileSystem) (t : Trail) (ns : List String) :
    (∀ t', fs.stride false t ns = .arrived t' → fs.isDirectory t'.last = false →
      fs.stride true t ns = .arrived t') ∧
    (∀ t' target rest, fs.stride false t ns = .link t' target rest →
      rest.getLast? = some "" ∨ fs.stride true t ns = .link t' target rest) := by
  induction ns generalizing t with
  | nil => simp [stride]
  | cons name ns ih =>
    unfold stride
    split
    · split
      · exact ih t
      split
      · exact ih t.tail
      simp only [Bool.false_and, Bool.true_and, Bool.false_eq_true, if_false]
      split
      · simp
      split
      · simp
      split
      · simp only [reduceCtorEq, false_implies, implies_true, Stride.link.injEq, true_and]
        rintro t' target rest ⟨rfl, rfl, rfl⟩
        by_cases hs : slashed ns = true
        · exact Or.inl (slashed_getLast ns hs)
        · simp [hs]
      · rename_i i _ _ _
        by_cases hs : slashed ns = true
        · have hl := slashed_getLast ns hs
          have hd := stride_slash fs false ((name, i) :: t) ns hl
          refine ⟨fun t' ha hf => ?_, fun t' target rest ha => Or.inl (hd.2 _ _ _ ha)⟩
          rw [hd.1 t' ha] at hf
          simp at hf
        · simp only [hs, Bool.false_eq_true, if_false]
          exact ih _
    · simp

theorem walk_file (fs : FileSystem) (links : Nat) (t t' : Trail) (ns : List String)
    (hw : fs.walk false links t ns = .ok (.found t')) (hf : fs.isDirectory t'.last = false) :
    fs.walk true links t ns = .ok (.found t') := by
  rw [walk_found] at hw ⊢
  induction hw with
  | arrived ha => exact .arrived ((stride_file fs _ _).1 _ ha hf)
  | link hl hrest ih =>
    rcases (stride_file fs _ _).2 _ _ _ hl with hlast | hlink
    · -- A slash at the end would have led to a directory.
      have hd := walk_slash fs false _ _ _ _ (by simp [List.getLast?_append, hlast])
        ((walk_found fs false _ _ _ _).2 hrest)
      simp [hd] at hf
    · exact .link hlink (ih hf)

/-- A path that leads to something other than a directory leads there, too,
when it is opened for creation. -/
theorem reach_of_resolve (fs : FileSystem) (path : String) (t : Trail)
    (h : fs.resolve path = .ok t) (hf : fs.isDirectory t.last = false) :
    fs.reach true path = .ok (.found t) := by
  rw [resolve_ok] at h
  simp only [reach, h.1]
  exact walk_file fs _ _ _ _ h.2 hf

/-! ## Names behind a path -/

/-- How longer names are followed, in all cases. -/
theorem stride_append (fs : FileSystem) (t : Trail) (ns ms : List String) :
    fs.stride false t (ns ++ ms) =
      match fs.stride false t ns with
      | .arrived t' => fs.stride false t' ms
      | .failed e => .failed e
      | .missing t' name rest => .missing t' name (rest ++ ms)
      | .link t' target rest => .link t' target (rest ++ ms) := by
  induction ns generalizing t with
  | nil => simp [stride]
  | cons name ns ih =>
    rw [List.cons_append, stride.eq_2, stride.eq_2]
    split
    · simp only [Bool.false_and, Bool.false_eq_true, if_false]
      split
      · exact ih t
      split
      · exact ih t.tail
      split
      · rfl
      split
      · rfl
      split
      · rfl
      · exact ih _
    · rfl

theorem walk_append (fs : FileSystem) (links : Nat) (t t' : Trail) (ns : List String)
    (hw : fs.walk false links t ns = .ok (.found t')) :
    ∃ left, ∀ ms, fs.walk false links t (ns ++ ms) = fs.walk false left t' ms := by
  rw [walk_found] at hw
  induction hw with
  | @arrived links t t' ns ha =>
    refine ⟨links, fun ms => ?_⟩
    conv => lhs; unfold walk
    conv => rhs; unfold walk
    rw [stride_append, ha]
  | @link links t t' stop ns rest target hl _ ih =>
    obtain ⟨left, hleft⟩ := ih
    refine ⟨left, fun ms => ?_⟩
    conv => lhs; unfold walk
    rw [stride_append, hl, ← hleft ms, List.append_assoc]

end ImageTools.FileSystem
