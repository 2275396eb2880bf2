import ImageTools.Proofs.Footprint
import ImageTools.Proofs.SingleMerge

/-!
# What a merge of a single library leaves behind

The merge copies the library and does nothing else, or it fails and does
nothing at all. No archiver runs. A copy arrives byte for byte where the
target leads, with the library's permission bits; only the right to run in
somebody else's name is lost when there is something to write. A device takes
the bytes and keeps nothing. One failure leaves a trace: a target that the
caller may write but does not own is emptied before its permission bits are
refused.
-/

set_option autoImplicit false

namespace ImageTools

namespace FileSystem

/-! ## Copying between two files -/

def arrivingMode (mode : Nat) (bytes : ByteArray) : Nat :=
  if bytes.size = 0 then mode else withoutPrivilege mode

theorem arrivingMode_mod (mode : Nat) (bytes : ByteArray) :
    arrivingMode mode bytes % 1024 = mode % 1024 := by
  unfold arrivingMode
  split
  · rfl
  · exact withoutPrivilege_mod mode

theorem arrivingMode_of_lt (mode : Nat) (bytes : ByteArray) (h : mode < 1024) :
    arrivingMode mode bytes = mode := by
  unfold arrivingMode
  split
  · rfl
  · exact withoutPrivilege_of_lt mode h

def transcribed (fs : FileSystem) (j mode : Nat) (bytes : ByteArray) : FileSystem :=
  if bytes.size = 0 then (fs.fillNode j .empty).setNodeMode j mode
  else ((fs.fillNode j .empty).setNodeMode j mode).fillNode j bytes

theorem transcribed_changes (fs : FileSystem) (j mode : Nat) (bytes : ByteArray) :
    ChangesOnly j fs (transcribed fs j mode bytes) := by
  have h := (fillNode_changes fs j .empty).trans (setNodeMode_changes _ j mode)
  unfold transcribed
  split
  · exact h
  · exact h.trans (fillNode_changes _ j bytes)

theorem transcribed_caller (fs : FileSystem) (j mode : Nat) (bytes : ByteArray) :
    SameCaller fs (transcribed fs j mode bytes) := by
  have h := (fillNode_caller fs j .empty).trans (setNodeMode_caller _ j mode)
  unfold transcribed
  split
  · exact h
  · exact h.trans (fillNode_caller _ j bytes)

theorem transcribed_file (fs : FileSystem) (j old mode : Nat) (held bytes : ByteArray)
    (h : fs.node? j = some (.file old held)) :
    (transcribed fs j mode bytes).node? j = some (.file (arrivingMode mode bytes) bytes) := by
  have hfile := setNodeMode_file _ j mode _ _ (fillNode_file fs j old held .empty h)
  unfold transcribed arrivingMode
  split
  · rename_i hz
    have hempty : bytes = .empty := ByteArray.size_eq_zero_iff.1 hz
    rw [hfile, hempty]
  · exact fillNode_file _ j mode .empty bytes hfile

section

variable {fs opened : FileSystem} {source target : String} {i j mode old : Nat}
  {bytes held : ByteArray}

theorem copy_opened (hi : fs.openForReading source = .ok i)
    (hn : fs.node? i = some (.file mode bytes)) (h : Opens fs target mode j opened) :
    fs.copy source target = (opened.fillNode j .empty).transfer i j mode := by
  have ho := (openForChange_iff fs opened target mode j).2 h
  simp only [copy, hi, hn, openForWriting, ho, bind, Except.bind]

/-- A file that somebody else owns does not get the permission bits, and is empty by then. -/
theorem transfer_foreign (hf : opened.node? j = some (.file old held))
    (hown : opened.owns j = false) :
    (opened.fillNode j .empty).transfer i j mode =
      (.error .notPermitted, opened.fillNode j .empty) := by
  have hempty := fillNode_file opened j old held .empty hf
  simp [transfer, setOpenMode, hempty, (fillNode_caller opened j .empty).owns, hown]

/-- The source is another file, so it is read as it was when the target is already empty. -/
theorem transfer_own (hf : opened.node? j = some (.file old held)) (hown : opened.owns j = true)
    (hn : opened.node? i = some (.file mode bytes)) (hother : j ≠ i) :
    (opened.fillNode j .empty).transfer i j mode =
      (.ok bytes.size, transcribed opened j mode bytes) := by
  have hempty := fillNode_file opened j old held .empty hf
  have hgiven := setNodeMode_file _ j mode _ _ hempty
  have hc := (fillNode_changes opened j .empty).trans (setNodeMode_changes _ j mode)
  have hread : ((opened.fillNode j .empty).setNodeMode j mode).readNode i = .ok bytes := by
    simp [readNode, hc.others i hother, hn]
  have hset : (opened.fillNode j .empty).setOpenMode j mode =
      .ok ((opened.fillNode j .empty).setNodeMode j mode) := by
    simp [setOpenMode, hempty, (fillNode_caller opened j .empty).owns, hown]
  unfold transfer transcribed
  rw [hset]
  dsimp only
  rw [hread]
  by_cases hz : bytes.size = 0
  · simp [hz]
  · simp [hz, store, hgiven]

/-- A device has no permission bits to set. -/
theorem transfer_device {d : Device} (hd : opened.node? j = some (.device d))
    (hn : opened.node? i = some (.file mode bytes)) :
    (opened.fillNode j .empty).transfer i j mode =
      if d = .full ∧ bytes.size ≠ 0 then (.error .noSpace, opened)
      else (.ok bytes.size, opened) := by
  rw [fillNode_of_device opened j d _ hd]
  have hfilled := fillNode_of_device opened j d bytes hd
  unfold transfer setOpenMode readNode store
  by_cases hz : bytes.size = 0
  · simp [hd, hn, hz]
  · by_cases hfull : d = .full
    · simp [hd, hn, hz, hfull, ByteArray.isEmpty]
    · simp [hd, hn, hz, hfull, hfilled]

end

def SameCanonical (fs : FileSystem) (source target : String) : Prop :=
  ∃ path, fs.canonical source = .ok path ∧ fs.canonical target = .ok path

def Readable (fs : FileSystem) (source : String) (i mode : Nat) (bytes : ByteArray) : Prop :=
  fs.locate source = .ok i ∧ fs.node? i = some (.file mode bytes) ∧ fs.mayRead i mode = true

def Withheld (fs : FileSystem) (target : String) (j : Nat) : Prop :=
  fs.locate target = .ok j ∧ fs.owns j = false ∧
    ∃ old held, fs.node? j = some (.file old held) ∧ fs.mayWrite j old = true

/-- The source is a file that the caller may read; the target takes what it holds and, if
it is a file, belongs to the caller. -/
def CanCopy (fs : FileSystem) (source target : String) : Prop :=
  (∃ i mode bytes, Readable fs source i mode bytes ∧ Writable fs target bytes) ∧
    ∀ j, ¬ Withheld fs target j

/-- The copy is refused when the target is already empty. -/
def Spoils (fs : FileSystem) (source target : String) (j : Nat) : Prop :=
  (∃ i mode bytes, Readable fs source i mode bytes) ∧ Withheld fs target j

theorem Withheld.reached {fs : FileSystem} {target : String} {j : Nat}
    (h : Withheld fs target j) : ∃ t, fs.reach true target = .ok (.found t) ∧ t.last = j := by
  obtain ⟨hl, -, old, held, hn, -⟩ := h
  obtain ⟨t, ht, rfl⟩ := (locate_ok fs target j).1 hl
  exact ⟨t, reach_of_resolve fs target t ht (by simp [isDirectory, hn]), rfl⟩

theorem Opens.withheld {fs opened : FileSystem} {target : String} {mode j : Nat}
    (h : Opens fs target mode j opened) (k : Nat) :
    Withheld fs target k ↔
      k = j ∧ opened.owns j = false ∧ ∃ old held, opened.node? j = some (.file old held) := by
  constructor
  · intro hk
    obtain ⟨t, ht, rfl⟩ := hk.reached
    obtain ⟨-, hown, old, held, hn, -⟩ := hk
    cases h with
    | file t' old' bytes hr =>
      obtain rfl : t' = t := by simpa [ht] using hr.symm
      exact ⟨rfl, hown, old, held, hn⟩
    | device t' d hr hd =>
      obtain rfl : t' = t := by simpa [ht] using hr.symm
      simp [hd] at hn
    | made dir name hr => simp [ht] at hr
  · rintro ⟨rfl, hown, old, held, hn⟩
    cases h with
    | file t old' bytes hr hn' hw =>
      exact ⟨locate_of_reach fs target t hr, hown, old', bytes, hn', hw⟩
    | device t d hr hd => simp [hd] at hn
    | made dir name hr ho =>
      have hnew := owns_new fs dir.last (reach_vacant fs true target name dir hr).1 ho
      rw [(addNode_caller fs dir.last name _).owns, hnew] at hown
      cases hown

/-- An opened device was there before. -/
theorem Opens.device_kept {fs opened : FileSystem} {target : String} {mode j : Nat} {d : Device}
    (h : Opens fs target mode j opened) (hd : opened.node? j = some (.device d)) :
    fs.locate target = .ok j ∧ opened = fs := by
  rcases h.place with hplace | ⟨rfl, dir, name, hend, -, rfl⟩
  · exact hplace
  · rw [addNode_new fs dir.last name _ (reach_vacant fs true target name dir hend).1] at hd
    cases hd

structure Arrived (fs fs' : FileSystem) (target : String) (i j mode : Nat) (bytes : ByteArray) :
    Prop where
  leads : fs'.locate target = .ok j
  owned : fs'.owns j = true
  holds : fs'.node? j = some (.file (arrivingMode mode bytes) bytes)
  bits : arrivingMode mode bytes % 0o2000 = mode % 0o2000 ∧
    (mode < 0o2000 → arrivingMode mode bytes = mode)
  readable : fs.owns i = fs.owns j ∨ fs'.mayRead j (arrivingMode mode bytes) = true →
    fs'.read target = .ok bytes
  place : fs.locate target = .ok j ∨ fs.node? j = none ∧
    ∃ dir name, fs.reach true target = .ok (.vacant dir name) ∧
      fs'.entry? dir.last name = some j
  only : OnlyAt [target] fs fs'

/-- The source's bytes have been given to the file or the device that the target leads to. -/
def Delivered (fs fs' : FileSystem) (source target : String) (n : Nat) : Prop :=
  ∃ i mode bytes j, fs.locate source = .ok i ∧ fs.node? i = some (.file mode bytes) ∧
    n = bytes.size ∧ fs'.locate target = .ok j ∧
    ((∃ d, fs.node? j = some (.device d)) ∧ fs' = fs ∨ Arrived fs fs' target i j mode bytes)

/-- Only the file behind the target has changed, and the target leads there. -/
theorem transcribed_arrived (fs opened : FileSystem) (target : String) (i j mode old : Nat)
    (bytes held : ByteArray) (h : Opens fs target mode j opened)
    (hi : fs.mayRead i mode = true) (hf : opened.node? j = some (.file old held))
    (hown : opened.owns j = true) :
    Arrived fs (transcribed opened j mode bytes) target i j mode bytes := by
  have hc := transcribed_changes opened j mode bytes
  have hcaller := transcribed_caller opened j mode bytes
  have hholds := transcribed_file opened j old mode held bytes hf
  obtain ⟨t, ht, rfl⟩ := h.leads
  have hresolve := resolve_grows opened _ hc.grows target t (resolve_of_reach opened target t ht)
  have hforeign := (h.caller.trans hcaller).foreign
  constructor
  case leads => exact (locate_ok _ target _).2 ⟨t, hresolve, rfl⟩
  case owned => rw [hcaller.owns, hown]
  case holds => exact hholds
  case bits => exact ⟨arrivingMode_mod mode bytes, arrivingMode_of_lt mode bytes⟩
  case readable =>
    intro hright
    have hread : (transcribed opened t.last mode bytes).mayRead t.last
        (arrivingMode mode bytes) = true := by
      rcases hright with ho | hr
      · have hrights := rights_mod fs _ hforeign t.last mode (arrivingMode mode bytes)
          (arrivingMode_mod mode bytes)
        unfold mayRead at hi ⊢
        rw [hrights]
        simpa [rights, ho] using hi
      · exact hr
    exact read_file _ target t.last _ bytes ((locate_ok _ target _).2 ⟨t, hresolve, rfl⟩) hholds
      hread
  case place =>
    rcases h.place with ⟨hl, -⟩ | ⟨hnew, dir, name, hr, ho, hmade⟩
    · exact Or.inl hl
    · refine Or.inr ⟨?_, dir, name, hr, ?_⟩
      · rw [hnew]
        exact Array.getElem?_eq_none (Nat.le_refl _)
      · obtain ⟨hd, hfree⟩ := reach_vacant fs true target name dir hr
        have hentry : opened.entry? dir.last name = some t.last := by
          rw [hmade, hnew]
          exact addNode_entry fs dir.last name _ hd hfree
        have hne : t.last ≠ dir.last := by
          intro he
          rw [he] at hf
          simp [hf, entry?] at hentry
        simpa only [hc.others _ hne, entry?] using hentry
  case only => exact h.onlyAt hc hcaller

end FileSystem

namespace Merger
open FileSystem

theorem sameFile_iff (fs : FileSystem) (source target : String) :
    sameFile fs source target = .ok true ↔ SameCanonical fs source target := by
  unfold sameFile SameCanonical pathExists canonical
  cases hs : fs.resolve source with
  | error e => cases ht : fs.resolve target <;> simp [Except.map, bind, Except.bind]
  | ok s =>
    cases ht : fs.resolve target with
    | error e => simp [Except.map]
    | ok t =>
      simp only [Except.map, bind, Except.bind, if_true, Except.ok.injEq, beq_iff_eq,
        exists_eq_left']
      exact eq_comm

/-- Where the guard does not refuse, the copy does not reach the source. -/
theorem opens_other (fs : FileSystem) (source target : String) (i mode n : Nat)
    (bytes : ByteArray) (hl : ¬ HardLinked fs source target)
    (hsame : ¬ SameCanonical fs source target) (hi : fs.locate source = .ok i)
    (hn : fs.node? i = some (.file mode bytes)) (j : Nat) (opened : FileSystem)
    (h : Opens fs target n j opened) : j ≠ i := by
  rcases h.place with ⟨htarget, -⟩ | ⟨rfl, -⟩
  · rintro rfl
    obtain ⟨s, hs, hsi⟩ := (locate_ok fs source j).1 hi
    obtain ⟨t, ht, htj⟩ := (locate_ok fs target j).1 htarget
    apply hsame
    by_cases hp : s.path = t.path
    · exact ⟨t.path, by simp [canonical, hs, Except.map, hp], by simp [canonical, ht, Except.map]⟩
    · exact absurd ⟨s, t, hs, ht, hsi.trans htj.symm, hp⟩ hl
  · exact Nat.ne_of_gt (node?_size fs i _ hn)

theorem sameFile_false (fs : FileSystem) (source target : String) (i : Nat)
    (hi : fs.locate source = .ok i) (hsame : ¬ SameCanonical fs source target) :
    sameFile fs source target = .ok false := by
  obtain ⟨s, hs, -⟩ := (locate_ok fs source i).1 hi
  have hguard : sameFile fs source target ≠ .ok true :=
    fun h => hsame ((sameFile_iff fs source target).1 h)
  cases ht : fs.resolve target with
  | error e => simp [sameFile, pathExists, ht]
  | ok t =>
    rw [sameFile_resolved fs source target s t hs ht] at hguard ⊢
    simpa using hguard

section

variable {fs : FileSystem} {source target : String}

theorem copySingle_delivers (hl : ¬ HardLinked fs source target)
    (hsame : ¬ SameCanonical fs source target) (hcan : CanCopy fs source target) :
    ∃ n fs', copySingle fs source target = (.ok (.copied n), fs') ∧
      Delivered fs fs' source target n := by
  obtain ⟨⟨i, mode, bytes, ⟨hi, hn, hr⟩, hw⟩, hfree⟩ := hcan
  have hopen := (openForReading_ok fs source i mode bytes hn).2 ⟨(locate_ok fs source i).1 hi, hr⟩
  obtain ⟨j, opened, ho, hroom⟩ := (writable_iff fs target bytes mode).1 hw
  have hkept := ho.keeps i _ hn (by simp [isDirectory, hn])
  have hcopied : ∀ fs', fs.copy source target = (.ok bytes.size, fs') →
      copySingle fs source target = (.ok (.copied bytes.size), fs') := by
    intro fs' hcopy
    rw [copySingle_passed fs source target (sameFile_false fs source target i hi hsame), hcopy]
    rfl
  have hcopy := copy_opened hopen hn ho
  rcases ho.kind with ⟨old, held, hf⟩ | ⟨d, hd⟩
  · have hown : opened.owns j = true := by
      cases hother : opened.owns j with
      | true => rfl
      | false => exact absurd ((ho.withheld j).2 ⟨rfl, hother, old, held, hf⟩) (hfree j)
    have hother := opens_other fs source target i mode mode bytes hl hsame hi hn j opened ho
    rw [transfer_own hf hown hkept hother] at hcopy
    have harrived := transcribed_arrived fs opened target i j mode old bytes held ho hr hf hown
    exact ⟨_, _, hcopied _ hcopy, i, mode, bytes, j, hi, hn, rfl, harrived.leads, Or.inr harrived⟩
  · obtain ⟨hj, rfl⟩ := ho.device_kept hd
    have hfits : ¬ (d = .full ∧ bytes.size ≠ 0) := by
      rintro ⟨rfl, hz⟩
      exact hz (by simpa [ByteArray.isEmpty] using hroom hd)
    rw [transfer_device hd hkept, if_neg hfits] at hcopy
    exact ⟨_, _, hcopied _ hcopy, i, mode, bytes, j, hi, hn, rfl, hj, Or.inl ⟨⟨d, hd⟩, rfl⟩⟩

theorem copySingle_spoils (hsame : ¬ SameCanonical fs source target) {j : Nat}
    (hspoils : Spoils fs source target j) :
    copySingle fs source target = (.error (.system .notPermitted), fs.fillNode j .empty) := by
  obtain ⟨⟨i, mode, bytes, hi, hn, hr⟩, hj⟩ := hspoils
  have hopen := (openForReading_ok fs source i mode bytes hn).2 ⟨(locate_ok fs source i).1 hi, hr⟩
  obtain ⟨t, ht, rfl⟩ := hj.reached
  obtain ⟨-, hown, old, held, hf, hw⟩ := hj
  rw [copySingle_passed fs source target (sameFile_false fs source target i hi hsame),
    copy_opened hopen hn (.file t old held ht hf hw), transfer_foreign hf hown]
  rfl

theorem copySingle_fails (hsame : ¬ SameCanonical fs source target)
    (hcan : ¬ CanCopy fs source target) (hspoils : ∀ j, ¬ Spoils fs source target j) :
    ∃ e, copySingle fs source target = (.error (.system e), fs) := by
  have hcopy : ∃ e, fs.copy source target = (.error e, fs) := by
    rcases copy_cases fs source target with hfailed | ⟨i, mode, bytes, j, opened, hi, hn, ho, hc⟩
    · exact hfailed
    have h := (openForChange_iff fs opened target mode j).1 ho
    obtain ⟨hs, hr⟩ := (openForReading_ok fs source i mode bytes hn).1 hi
    have hsource : Readable fs source i mode bytes := ⟨(locate_ok fs source i).2 hs, hn, hr⟩
    -- Nobody else's file: then only a lack of room is left.
    have hfree : ∀ k, ¬ Withheld fs target k :=
      fun k hk => hspoils k ⟨⟨i, mode, bytes, hsource⟩, hk⟩
    have hnoRoom : ¬ HasRoom opened j bytes := fun hroom =>
      hcan ⟨⟨i, mode, bytes, hsource, (writable_iff fs target bytes mode).2 ⟨j, opened, h, hroom⟩⟩,
        hfree⟩
    obtain ⟨hfull, hsize⟩ : opened.node? j = some (.device .full) ∧ bytes.size ≠ 0 := by
      simpa [HasRoom, ByteArray.isEmpty] using hnoRoom
    obtain ⟨-, rfl⟩ := h.device_kept hfull
    exact ⟨.noSpace, by rw [hc, transfer_device hfull hn, if_pos ⟨rfl, hsize⟩]⟩
  obtain ⟨e, hcopy⟩ := hcopy
  cases hsf : sameFile fs source target with
  | error e => exact ⟨e, by simp [copySingle, hsf]⟩
  | ok same =>
    cases same with
    | true => exact absurd ((sameFile_iff fs source target).1 hsf) hsame
    | false => exact ⟨e, by rw [copySingle_passed fs source target hsf, hcopy]; rfl⟩

end

/-- Everything that a merge of one library does: it gives the library's bytes
to what the target leads to, or it does nothing. Only a target that the caller may
write but does not own is emptied although the merge fails. -/
theorem merge_single_cases (m : Merger) (arch : Arch) (source target : String) (h : Host)
    (hl : ¬ HardLinked h.files source target) :
    let merged := m.merge arch.tag target [source] h
    merged.2.started = h.started ∧
    (∀ (m' : Merger) (arch' : Arch), m'.merge arch'.tag target [source] h = merged) ∧
    (merged.1 = .error (.sameFile target) ↔ SameCanonical h.files source target) ∧
    ((∃ n, merged.1 = .ok (.copied n)) ↔
      CanCopy h.files source target ∧ ¬ SameCanonical h.files source target) ∧
    (∀ j, Spoils h.files source target j → ¬ SameCanonical h.files source target →
      merged = (.error (.system .notPermitted), { h with files := h.files.fillNode j .empty })) ∧
    match merged.1 with
    | .ok (.copied n) => Delivered h.files merged.2.files source target n
    | .ok (.archived _ _) => False
    | .error e =>
      merged.2 = h ∧ (e = .sameFile target ∨ ∃ failure, e = .system failure) ∨
        ¬ SameCanonical h.files source target ∧ ∃ j, Spoils h.files source target j := by
  intro merged
  have hmerged : merged = ((copySingle h.files source target).1,
      { h with files := (copySingle h.files source target).2 }) :=
    merge_single m arch source target h
  have hall : ∀ (m' : Merger) (arch' : Arch), m'.merge arch'.tag target [source] h = merged :=
    fun m' arch' => (merge_single m' arch' source target h).trans hmerged.symm
  refine ⟨by rw [hmerged], hall, ?_⟩
  by_cases hsame : SameCanonical h.files source target
  · have hrefused : copySingle h.files source target = (.error (.sameFile target), h.files) := by
      simp [copySingle, (sameFile_iff h.files source target).2 hsame]
    simp [hmerged, hrefused, hsame]
  by_cases hcan : CanCopy h.files source target
  · obtain ⟨n, fs', hcopied, hdelivered⟩ := copySingle_delivers hl hsame hcan
    have hfree : ∀ j, ¬ Spoils h.files source target j := fun j hj => hcan.2 j hj.2
    simp [hmerged, hcopied, hsame, hcan, hdelivered, hfree]
  by_cases hspoils : ∃ j, Spoils h.files source target j
  · obtain ⟨j, hj⟩ := hspoils
    have hspoiled : ∀ k, Spoils h.files source target k →
        merged = (.error (.system .notPermitted), { h with files := h.files.fillNode k .empty }) :=
      fun k hk => by rw [hmerged, copySingle_spoils hsame hk]
    have hresult : merged.1 = .error (.system .notPermitted) := by rw [hspoiled j hj]
    refine ⟨by simp [hresult, hsame], by simp [hresult, hcan], fun k hk _ => hspoiled k hk, ?_⟩
    rw [hresult]
    exact Or.inr ⟨hsame, j, hj⟩
  · have hnone : ∀ j, ¬ Spoils h.files source target j := fun j hj => hspoils ⟨j, hj⟩
    obtain ⟨e, hfailed⟩ := copySingle_fails hsame hcan hnone
    simp [hmerged, hfailed, hsame, hcan, hnone]

def dangling : Host where
  files :=
    { nodes := #[.directory [("lib.a", 1), ("out.a", 2)], .file 0o640 "AAAA".toUTF8,
        .link "made.a"]
      workDir := "/" }

theorem dangling_delivered :
    ¬ HardLinked dangling.files "lib.a" "out.a" ∧
    (bareMerger.merge Arch.aarch32.tag "out.a" ["lib.a"] dangling).1 = .ok (.copied 4) ∧
    Delivered dangling.files (bareMerger.merge Arch.aarch32.tag "out.a" ["lib.a"] dangling).2.files
      "lib.a" "out.a" 4 := by
  have hl : ¬ HardLinked dangling.files "lib.a" "out.a" := by
    rintro ⟨_, t, -, ht, -⟩
    have hmissing : dangling.files.resolve "out.a" = .error .noEntry := rfl
    simp [hmissing] at ht
  have hcopied : (bareMerger.merge Arch.aarch32.tag "out.a" ["lib.a"] dangling).1 =
      .ok (.copied 4) := rfl
  have hall := (merge_single_cases bareMerger .aarch32 "lib.a" "out.a" dangling hl).2.2.2.2.2
  simp only [hcopied] at hall
  exact ⟨hl, hcopied, hall⟩

def privileged : Host where
  files :=
    { nodes := #[.directory [("lib.a", 1), ("null", 2)], .file 0o4755 "AAAA".toUTF8,
        .device .null]
      workDir := "/" }

def shared : Host where
  files :=
    { nodes := #[.directory [("out.a", 1), ("lib.a", 2)], .file 0o666 "OLD".toUTF8,
        .file 0o644 "AAAA".toUTF8]
      workDir := "/"
      foreign := 2 }

/-- Two targets that do not keep all that they are given, and one that is emptied in vain. -/
theorem target_keeps_less :
    ¬ HardLinked privileged.files "lib.a" "null" ∧
    (bareMerger.merge "x86" "null" ["lib.a"] privileged).1 = .ok (.copied 4) ∧
    (bareMerger.merge "x86" "null" ["lib.a"] privileged).2.files.read "null" = .ok .empty ∧
    ¬ HardLinked privileged.files "lib.a" "copy.a" ∧
    (bareMerger.merge "x86" "copy.a" ["lib.a"] privileged).1 = .ok (.copied 4) ∧
    privileged.files.locate "lib.a" = .ok 1 ∧
    privileged.files.node? 1 = some (.file 0o4755 "AAAA".toUTF8) ∧
    (bareMerger.merge "x86" "copy.a" ["lib.a"] privileged).2.files.locate "copy.a" = .ok 3 ∧
    (bareMerger.merge "x86" "copy.a" ["lib.a"] privileged).2.files.node? 3 =
      some (.file 0o755 "AAAA".toUTF8) ∧
    ¬ HardLinked shared.files "lib.a" "out.a" ∧
    shared.files.read "out.a" = .ok "OLD".toUTF8 ∧
    (bareMerger.merge "x86" "out.a" ["lib.a"] shared).1 = .error (.system .notPermitted) ∧
    (bareMerger.merge "x86" "out.a" ["lib.a"] shared).2.files.read "out.a" = .ok .empty := by
  have hlib : privileged.files.resolve "lib.a" = .ok [("lib.a", 1)] := rfl
  have hnull : privileged.files.resolve "null" = .ok [("null", 2)] := rfl
  have hcopy : privileged.files.resolve "copy.a" = .error .noEntry := rfl
  have hown : shared.files.resolve "lib.a" = .ok [("lib.a", 2)] := rfl
  have hother : shared.files.resolve "out.a" = .ok [("out.a", 1)] := rfl
  refine ⟨?_, rfl, rfl, ?_, rfl, rfl, rfl, rfl, rfl, ?_, rfl, rfl, rfl⟩
  · rintro ⟨s, t, hs, ht, he, -⟩
    rw [hlib, Except.ok.injEq] at hs
    rw [hnull, Except.ok.injEq] at ht
    simp [← hs, ← ht, Trail.last] at he
  · rintro ⟨_, t, -, ht, -⟩
    simp [hcopy] at ht
  · rintro ⟨s, t, hs, ht, he, -⟩
    rw [hown, Except.ok.injEq] at hs
    rw [hother, Except.ok.injEq] at ht
    simp [← hs, ← ht, Trail.last] at he

end Merger

end ImageTools
