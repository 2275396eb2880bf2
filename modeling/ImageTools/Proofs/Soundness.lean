import ImageTools.FileSystem.Tree
import ImageTools.Proofs.Footprint

/-!
# Every name has a node

In a sound file system the root is a directory and every name in a directory
has a node, so whatever a path leads to is there. Laying out files and writing
them keeps a file system sound.
-/

set_option autoImplicit false

namespace ImageTools.FileSystem

structure Sound (fs : FileSystem) : Prop where
  root : fs.isDirectory 0 = true
  named : ∀ dir name i, fs.entry? dir name = some i → i < fs.nodes.size

theorem sound_empty : Sound empty := by
  refine ⟨rfl, fun dir name i he => ?_⟩
  unfold entry? at he
  split at he
  · rename_i entries hn
    obtain ⟨hdir, -⟩ := Array.getElem?_eq_some_iff.1 hn
    have hzero : dir = 0 := by simpa [empty] using hdir
    subst hzero
    have hentries : entries = [] := by simpa [node?, empty] using hn.symm
    simp [hentries] at he
  · simp at he

/-! ## What a path leads to -/

theorem stride_sound (fs : FileSystem) (hs : Sound fs) (creating : Bool) (t : Trail)
    (ns : List String) (ht : ∀ step ∈ t, step.2 < fs.nodes.size) :
    (∀ t', fs.stride creating t ns = .arrived t' → ∀ step ∈ t', step.2 < fs.nodes.size) ∧
    ∀ t' target rest, fs.stride creating t ns = .link t' target rest →
      ∀ step ∈ t', step.2 < fs.nodes.size := by
  induction ns generalizing t with
  | nil => simpa [stride] using ht
  | cons name ns ih =>
    unfold stride
    split
    · rename_i entries hn
      split
      · exact ih t ht
      split
      · exact ih t.tail fun step h => ht step (List.mem_of_mem_tail h)
      split
      · simp
      split
      · simp
      split
      · simp
      · rename_i i hl
        have hi : i < fs.nodes.size := hs.named t.last name i (by simp [hn, hl, entry?])
        split
        · simp only [reduceCtorEq, false_implies, implies_true, Stride.link.injEq, true_and]
          rintro t' _ _ ⟨rfl, -, -⟩
          exact ht
        · apply ih
          rintro step (_ | ⟨_, hstep⟩)
          · exact hi
          · exact ht step hstep
    · simp

theorem walk_sound (fs : FileSystem) (hs : Sound fs) (creating : Bool) (links : Nat)
    (t t' : Trail) (ns : List String) (ht : ∀ step ∈ t, step.2 < fs.nodes.size)
    (h : fs.walk creating links t ns = .ok (.found t')) :
    ∀ step ∈ t', step.2 < fs.nodes.size := by
  rw [walk_found] at h
  induction h with
  | arrived ha => exact (stride_sound fs hs creating _ _ ht).1 _ ha
  | link hl _ ih =>
    refine ih ?_
    unfold startOf
    split
    · simp
    · exact (stride_sound fs hs creating _ _ ht).2 _ _ _ hl

theorem root_lt (fs : FileSystem) (hs : Sound fs) : 0 < fs.nodes.size := by
  obtain ⟨entries, hn⟩ := isDirectory_entries fs 0 hs.root
  exact node?_size fs 0 _ hn

/-- What a path leads to is there. -/
theorem resolve_sound (fs : FileSystem) (hs : Sound fs) (path : String) (t : Trail)
    (h : fs.resolve path = .ok t) : t.last < fs.nodes.size := by
  rw [resolve_ok] at h
  have hall := walk_sound fs hs false _ _ t _ (by simp) h.2
  cases t with
  | nil => exact root_lt fs hs
  | cons step t => exact hall step (by simp)

/-! ## Changes -/

theorem sound_addEntry (fs : FileSystem) (dir : Nat) (name : String) (i : Nat) (hs : Sound fs)
    (hi : i < fs.nodes.size) : Sound (fs.addEntry dir name i) := by
  unfold addEntry
  split
  · rename_i entries hn
    have hsize := node?_size fs dir _ hn
    constructor
    case root =>
      by_cases hz : dir = 0
      · subst hz
        simp [isDirectory, node?_setNode_self fs 0 _ hsize]
      · have hroot := hs.root
        simp only [isDirectory, node?_setNode_ne fs dir 0 _ hz] at hroot ⊢
        exact hroot
    case named =>
      intro dir' name' j he
      show j < (fs.nodes.setIfInBounds _ _).size
      rw [Array.size_setIfInBounds]
      by_cases hd : dir = dir'
      · subst hd
        unfold entry? at he
        rw [node?_setNode_self fs dir _ hsize] at he
        simp only [List.lookup_append, Option.or_eq_some_iff] at he
        rcases he with he | ⟨-, he⟩
        · exact hs.named dir name' j (by simp [hn, he, entry?])
        · simp only [List.lookup_cons, List.lookup_nil] at he
          split at he
          · simp only [Option.some.injEq] at he
            exact he ▸ hi
          · simp at he
      · refine hs.named dir' name' j ?_
        simpa only [node?_setNode_ne fs dir dir' _ hd, entry?] using he
  · exact hs

theorem sound_push (fs : FileSystem) (n : Node) (hs : Sound fs)
    (hn : ∀ entries, n = .directory entries → entries = []) :
    Sound { fs with nodes := fs.nodes.push n } := by
  have hold : ∀ i, i < fs.nodes.size → (fs.nodes.push n)[i]? = fs.nodes[i]? := by
    intro i hi
    rw [Array.getElem?_push, if_neg (Nat.ne_of_lt hi)]
  constructor
  case root =>
    have hroot := hs.root
    simp only [isDirectory, node?, hold 0 (root_lt fs hs)] at hroot ⊢
    exact hroot
  case named =>
    intro dir name i he
    show i < (fs.nodes.push n).size
    rw [Array.size_push]
    by_cases hd : dir < fs.nodes.size
    · have hi := hs.named dir name i (by simpa only [node?, hold dir hd, entry?] using he)
      exact Nat.lt_succ_of_lt hi
    · simp only [node?, Array.getElem?_push, entry?] at he
      split at he
      · rename_i entries hentries
        split at hentries
        · simp only [Option.some.injEq] at hentries
          simp [hn entries hentries] at he
        · rw [Array.getElem?_eq_none (Nat.le_of_not_lt hd)] at hentries
          simp at hentries
      · simp at he

theorem sound_addNode (fs : FileSystem) (dir : Nat) (name : String) (n : Node) (hs : Sound fs)
    (hn : ∀ entries, n = .directory entries → entries = []) : Sound (fs.addNode dir name n) :=
  sound_addEntry _ dir name _ (sound_push fs n hs hn) (by simp)

/-- What files hold and their permission bits play no part. -/
theorem sound_alike (fs fs' : FileSystem) (h : Alike fs fs')
    (hsize : fs'.nodes.size = fs.nodes.size) (hs : Sound fs) : Sound fs' := by
  have hentry : ∀ dir name, fs'.entry? dir name = fs.entry? dir name := by
    intro dir name
    rcases h.nodes dir with hn | ⟨⟨_, _, hn⟩, _, _, hn'⟩
    · simp only [hn, entry?]
    · simp only [hn, hn', entry?]
  constructor
  case root =>
    have hroot := hs.root
    rcases h.nodes 0 with hn | ⟨⟨_, _, hn⟩, -⟩
    · simpa only [isDirectory, hn] using hroot
    · simp [isDirectory, hn] at hroot
  case named =>
    intro dir name i he
    rw [hsize]
    exact hs.named dir name i (hentry dir name ▸ he)

theorem sound_fillNode (fs : FileSystem) (i : Nat) (bytes : ByteArray) (hs : Sound fs) :
    Sound (fs.fillNode i bytes) :=
  sound_alike fs _ (alike_fillNode fs i bytes) (fillNode_size fs i bytes) hs

theorem sound_opens (fs fs' : FileSystem) (path : String) (mode i : Nat) (hs : Sound fs)
    (h : Opens fs path mode i fs') : Sound fs' := by
  cases h with
  | file => exact hs
  | device => exact hs
  | made dir name => exact sound_addNode fs _ _ _ hs (by simp)

theorem sound_write (fs fs' : FileSystem) (path : String) (bytes : ByteArray) (hs : Sound fs)
    (h : fs.write path bytes = .ok fs') : Sound fs' := by
  obtain ⟨i, opened, ho, -, rfl⟩ := (write_iff fs fs' path bytes).1 h
  exact sound_fillNode _ _ _ (sound_opens fs opened path _ i hs ho)

theorem sound_setMode (fs fs' : FileSystem) (path : String) (mode : Nat) (hs : Sound fs)
    (h : fs.setMode path mode = .ok fs') : Sound fs' := by
  unfold setMode at h
  cases hl : fs.locate path with
  | error e => simp [hl, bind, Except.bind] at h
  | ok i =>
    simp only [hl, bind, Except.bind] at h
    split at h
    · simp only [Except.ok.injEq] at h
      subst h
      refine sound_alike fs _ (alike_setNodeMode fs i mode) ?_ hs
      unfold setNodeMode
      split <;> simp [setNode]
    · simp at h

/-! ## Laying out files -/

theorem sound_addAt (fs fs' : FileSystem) (path : String) (n : Node) (hs : Sound fs)
    (hn : ∀ entries, n = .directory entries → entries = []) (h : fs.addAt path n = .ok fs') :
    Sound fs' := by
  unfold addAt at h
  cases hp : fs.parentOf path with
  | error e => simp [hp, bind, Except.bind] at h
  | ok p =>
    simp only [hp, bind, Except.bind] at h
    split at h
    · simp at h
    split at h
    · simp only [Except.ok.injEq] at h
      exact h ▸ sound_addNode fs _ _ n hs hn
    · simp at h

theorem sound_ensure (names : List String) (fs fs' : FileSystem) (path : String) (hs : Sound fs)
    (h : fs.ensure path names = .ok fs') : Sound fs' := by
  induction names generalizing fs path with
  | nil =>
    simp only [ensure, Except.ok.injEq] at h
    exact h ▸ hs
  | cons name names ih =>
    simp only [ensure] at h
    generalize (if path = "" then (if name = "" then "/" else name) else Path.join path name) =
      below at h
    by_cases hd : fs.leadsToDirectory below = true
    · simp only [hd, if_true, bind, Except.bind] at h
      exact ih fs _ hs h
    by_cases he : fs.pathExists below = true
    · simp [hd, he, bind, Except.bind] at h
    · simp only [hd, he, bind, Except.bind] at h
      cases ha : fs.addAt below (.directory []) with
      | error e => simp [ha] at h
      | ok made =>
        simp only [ha] at h
        exact ih made _ (sound_addAt fs made below _ hs (by simp) ha) h

theorem sound_layOutItem (fs fs' : FileSystem) (path : String) (item : Item) (hs : Sound fs)
    (h : fs.layOutItem path item = .ok fs') : Sound fs' := by
  cases item with
  | directory => exact sound_ensure _ fs fs' "" hs h
  | link target => exact sound_addAt fs fs' path _ hs (by simp) h
  | device d => exact sound_addAt fs fs' path _ hs (by simp) h
  | file mode bytes =>
    simp only [layOutItem] at h
    cases hw : fs.write path bytes with
    | error e => simp [hw, bind, Except.bind] at h
    | ok written =>
      simp only [hw, bind, Except.bind] at h
      exact sound_setMode written fs' path mode (sound_write fs written path bytes hs hw) h
  | sameAs other =>
    simp only [layOutItem] at h
    cases hp : fs.parentOf path with
    | error e => simp [hp, bind, Except.bind] at h
    | ok p =>
      cases ho : fs.parentOf other with
      | error e => simp [hp, ho, bind, Except.bind] at h
      | ok q =>
        simp only [hp, ho, bind, Except.bind] at h
        split at h
        · rename_i i hi _
          simp only [Except.ok.injEq] at h
          exact h ▸ sound_addEntry fs _ _ i hs (hs.named _ _ i hi)
        · simp at h
        · simp at h

/-- Whatever is laid out, and wherever that ends. -/
theorem layOut_sound (items : List (String × Item)) (fs : FileSystem) (hs : Sound fs) :
    Sound (fs.layOut items).2 := by
  induction items generalizing fs with
  | nil => exact hs
  | cons item items ih =>
    obtain ⟨path, item⟩ := item
    have hone : Sound (fs.layOutOne path item).2 := by
      unfold layOutOne
      cases ha : fs.ensureAbove path with
      | error e => exact hs
      | ok above =>
        have habove : Sound above := sound_ensure _ fs above "" hs ha
        cases hl : above.layOutItem path item with
        | error e => simpa [hl] using habove
        | ok laid => simpa [hl] using sound_layOutItem above laid path item habove hl
    unfold layOut
    split
    · rename_i laid hl
      exact ih laid (by simpa [hl] using hone)
    · rename_i e laid hl
      simpa [hl] using hone

end ImageTools.FileSystem
