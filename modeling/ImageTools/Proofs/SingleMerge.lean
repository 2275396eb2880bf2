import ImageTools.Merge
import ImageTools.Proofs.Opening

/-!
# Merging a single library

The only library is copied, unless the target leads to it already. Whether
it does is judged by the canonical paths, and a file with two hard links has
two of them: this is exactly where the copy empties the library it was to
copy from. Everywhere else the library keeps its bytes, whatever the outcome.
-/

set_option autoImplicit false

namespace ImageTools

namespace FileSystem

def SameNode (fs : FileSystem) (source target : String) : Prop :=
  ∃ s t, fs.resolve source = .ok s ∧ fs.resolve target = .ok t ∧ s.last = t.last

/-- Both paths lead to one node, under two names. -/
def HardLinked (fs : FileSystem) (source target : String) : Prop :=
  ∃ s t, fs.resolve source = .ok s ∧ fs.resolve target = .ok t ∧ s.last = t.last ∧
    s.path ≠ t.path

end FileSystem

namespace Merger
open FileSystem

theorem merge_single (m : Merger) (arch : Arch) (source target : String) (h : Host) :
    m.merge arch.tag target [source] h =
      ((copySingle h.files source target).1,
        { h with files := (copySingle h.files source target).2 }) := by
  simp [merge, Arch.require, Arch.ofTag?_tag]

theorem sameFile_resolved (fs : FileSystem) (source target : String) (s t : Trail)
    (hs : fs.resolve source = .ok s) (ht : fs.resolve target = .ok t) :
    sameFile fs source target = .ok (s.path == t.path) := by
  simp [sameFile, pathExists, canonical, hs, ht, Except.map, bind, Except.bind]

/-- A copy leaves the source alone if the target does not lead to its node. -/
theorem copy_keeps_source (fs : FileSystem) (source target : String)
    (hd : ¬ SameNode fs source target) :
    (fs.copy source target).2.read source = fs.read source := by
  rcases copy_cases fs source target with ⟨e, hc⟩ | ⟨i, mode, bytes, j, opened, hi, hn, ho, hc⟩
  · rw [hc]
  rw [hc]
  obtain ⟨⟨s, hs, rfl⟩, -⟩ := (openForReading_ok fs source i mode bytes hn).1 hi
  have hj : j ≠ s.last := by
    rcases openForChange_ok fs opened target mode j ho with
      ⟨t, ht, rfl, -, -⟩ | ⟨dir, name, -, rfl, -, -⟩
    · intro he
      exact hd ⟨s, t, hs, resolve_of_reach fs target t ht, he.symm⟩
    · have := node?_size fs _ _ hn
      omega
  have hchanged := (fillNode_changes opened j .empty).trans (transfer_changes _ s.last j mode)
  have hg := (openForChange_grows fs opened target mode j ho).trans hchanged.grows
  apply read_eq fs _ source s hg.foreign hs (resolve_grows fs _ hg source s hs)
  rw [hchanged.others _ hj, hn]
  exact openForChange_frame fs opened target mode j _ _ _ ho hn

/-- A copy of a file to another of its names empties it, also where it fails because
somebody else owns the file. -/
theorem copy_empties (fs : FileSystem) (source target : String) (s t : Trail) (mode : Nat)
    (bytes : ByteArray) (hs : fs.resolve source = .ok s) (ht : fs.resolve target = .ok t)
    (he : s.last = t.last) (hn : fs.node? s.last = some (.file mode bytes))
    (hr : fs.mayRead s.last mode = true) (hw : fs.mayWrite s.last mode = true) :
    (fs.copy source target).1 = (if fs.owns s.last then .ok 0 else .error .notPermitted) ∧
      (fs.copy source target).2.read source = .ok .empty := by
  have hi := (openForReading_ok fs source s.last mode bytes hn).2 ⟨⟨s, hs, rfl⟩, hr⟩
  have hd : fs.isDirectory t.last = false := by simp [isDirectory, ← he, hn]
  have ho : fs.openForChange target mode = .ok (s.last, fs) := by
    simp [openForChange, reach_of_resolve fs target t ht hd, ← he, hn, hw, bind, Except.bind]
  have hemptied := fillNode_file fs s.last mode bytes .empty hn
  have hcopy : fs.copy source target =
      (fs.fillNode s.last .empty).transfer s.last s.last mode := by
    simp [copy, hi, hn, openForWriting, ho, bind, Except.bind]
  have hreads : ∀ fs' mode', Grows fs fs' → fs'.node? s.last = some (.file mode' .empty) →
      mode' % 1024 = mode % 1024 → fs'.read source = .ok .empty := by
    intro fs' mode' hg hnode hm
    have hread : fs'.mayRead s.last mode' = true := by
      rw [mayRead, rights_mod fs fs' hg.foreign s.last mode mode' hm]
      exact hr
    have hopen := (openForReading_ok fs' source s.last mode' .empty hnode).2
      ⟨⟨s, resolve_grows fs fs' hg source s hs, rfl⟩, hread⟩
    simp [FileSystem.read, hopen, readNode, hnode, bind, Except.bind]
  have hfilled := fillNode_changes fs s.last .empty
  have howns : (fs.fillNode s.last .empty).owns s.last = fs.owns s.last := by
    rw [(fillNode_caller fs s.last .empty).owns]
  rw [hcopy]
  by_cases howned : fs.owns s.last = true
  · have hfile := setNodeMode_file _ s.last mode _ _ hemptied
    have hdone : (fs.fillNode s.last .empty).transfer s.last s.last mode =
        (.ok 0, (fs.fillNode s.last .empty).setNodeMode s.last mode) := by
      simp [transfer, setOpenMode, hemptied, howns, howned, readNode, hfile]
    rw [hdone, if_pos howned]
    exact ⟨rfl, hreads _ mode (hfilled.trans (setNodeMode_changes _ s.last mode)).grows hfile rfl⟩
  · have hrefused : (fs.fillNode s.last .empty).transfer s.last s.last mode =
        (.error .notPermitted, fs.fillNode s.last .empty) := by
      simp [transfer, setOpenMode, hemptied, howns, howned]
    rw [hrefused, if_neg howned]
    exact ⟨rfl, hreads _ _ hfilled.grows hemptied (withoutPrivilege_mod mode)⟩

/-- What passes the guard is copied, and fails as the copy fails. -/
theorem copySingle_passed (fs : FileSystem) (source target : String)
    (h : sameFile fs source target = .ok false) :
    copySingle fs source target =
      (((fs.copy source target).1.mapError .system).map .copied, (fs.copy source target).2) := by
  rw [copySingle, h]
  dsimp only
  split <;> (rename_i hc; rw [hc]; rfl)

theorem copySingle_keeps_source (fs : FileSystem) (source target : String)
    (hl : ¬ HardLinked fs source target) :
    (copySingle fs source target).2.read source = fs.read source ∧
      (SameNode fs source target →
        (copySingle fs source target).1 = .error (.sameFile target)) := by
  have hsame : SameNode fs source target → sameFile fs source target = .ok true := by
    rintro ⟨s, t, hs, ht, he⟩
    rw [sameFile_resolved fs source target s t hs ht]
    by_cases hp : s.path = t.path
    · simp [hp]
    · exact absurd ⟨s, t, hs, ht, he, hp⟩ hl
  constructor
  · cases hsf : sameFile fs source target with
    | error e => simp [copySingle, hsf]
    | ok same =>
      cases same with
      | true => simp [copySingle, hsf]
      | false =>
        rw [copySingle_passed fs source target hsf]
        apply copy_keeps_source fs source target
        intro hs
        simp [hsame hs] at hsf
  · intro hs
    simp [copySingle, hsame hs]

/-- What a merge of a single library owes it: the library reads as before, and
a target that leads to the library is refused. -/
def SparesSource (m : Merger) (arch : Arch) (source target : String) (h : Host) : Prop :=
  (m.merge arch.tag target [source] h).2.files.read source = h.files.read source ∧
  (SameNode h.files source target →
    (m.merge arch.tag target [source] h).1 = .error (.sameFile target))

/-- The library is spared exactly if the target is no second name of it. If it
is one, the library is emptied; the merge reports success, or that somebody else
owns the file. -/
theorem spares_source_iff (m : Merger) (arch : Arch) (source target : String) (h : Host) :
    (SparesSource m arch source target h ↔ ¬ HardLinked h.files source target) ∧
    (HardLinked h.files source target → ∀ i mode bytes, h.files.locate source = .ok i →
      h.files.node? i = some (.file mode bytes) → h.files.mayRead i mode = true →
      h.files.mayWrite i mode = true →
        (m.merge arch.tag target [source] h).1 =
          (if h.files.owns i then .ok (.copied 0) else .error (.system .notPermitted)) ∧
        (m.merge arch.tag target [source] h).2.files.read source = .ok .empty) := by
  rw [SparesSource, merge_single]
  have hpassed : ∀ s t, h.files.resolve source = .ok s → h.files.resolve target = .ok t →
      s.path ≠ t.path → sameFile h.files source target = .ok false := by
    intro s t hs ht hp
    rw [sameFile_resolved h.files source target s t hs ht]
    simpa using hp
  refine ⟨⟨?_, copySingle_keeps_source h.files source target⟩, ?_⟩
  · rintro ⟨-, hrefused⟩ ⟨s, t, hs, ht, he, hp⟩
    have hr := hrefused ⟨s, t, hs, ht, he⟩
    rw [copySingle_passed h.files source target (hpassed s t hs ht hp)] at hr
    cases hc : (h.files.copy source target).1 <;> (rw [hc] at hr; cases hr)
  · rintro ⟨s, t, hs, ht, he, hp⟩ i mode bytes hi hn hr hw
    simp only [locate, hs, Except.map, Except.ok.injEq] at hi
    subst hi
    obtain ⟨hc, hread⟩ := copy_empties h.files source target s t mode bytes hs ht he hn hr hw
    rw [copySingle_passed h.files source target (hpassed s t hs ht hp), hc]
    refine ⟨?_, hread⟩
    split <;> rfl

def twoNames : Host where
  files :=
    { nodes := #[.directory [("lib.a", 1), ("other.a", 1)], .file 0o644 "AAAA".toUTF8]
      workDir := "/" }

def bareMerger : Merger where
  settings := {}
  runner := fun call files => (.error (.start call.program .noEntry), files)
  workDir := "."
  draw := Directive.variablePart

theorem second_name_loses_source :
    ¬ SparesSource bareMerger .x86 "lib.a" "other.a" twoNames ∧
    twoNames.files.read "lib.a" = .ok "AAAA".toUTF8 ∧
    (bareMerger.merge "x86" "other.a" ["lib.a"] twoNames).1 = .ok (.copied 0) ∧
    (bareMerger.merge "x86" "other.a" ["lib.a"] twoNames).2.files.read "lib.a" = .ok .empty := by
  have hresult : (bareMerger.merge "x86" "other.a" ["lib.a"] twoNames).1 = .ok (.copied 0) := rfl
  refine ⟨fun hspared => ?_, rfl, hresult, rfl⟩
  have hsame : SameNode twoNames.files "lib.a" "other.a" := ⟨_, _, rfl, rfl, rfl⟩
  have hrefused := hspared.2 hsame
  rw [show Arch.x86.tag = "x86" from rfl, hresult] at hrefused
  simp at hrefused

end Merger

end ImageTools
