import ImageTools.Proofs.Footprint
import ImageTools.ScriptSet.Write

/-!
# Writing a script set over another

Which files a run opens, and where it stops, depends on the way to them and on
permission bits, not on what files hold. So a run is its openings followed by
its fillings. A second run into the same directory opens the same files, finds
nothing left to make, and fills over all that the first one left.
-/

set_option autoImplicit false

namespace ImageTools

namespace FileSystem

/-! ## Opening does not look into files -/

/-- A file that is there can be filled before or after another one is made. -/
theorem addNode_fillNode (fs : FileSystem) (dir : Nat) (name : String) (n : Node) (i : Nat)
    (bytes : ByteArray) (hd : fs.isDirectory dir = true) (hi : i < fs.nodes.size) :
    (fs.fillNode i bytes).addNode dir name n = (fs.addNode dir name n).fillNode i bytes := by
  obtain ⟨entries, hn⟩ := isDirectory_entries fs dir hd
  have hn' : (fs.fillNode i bytes).node? dir = some (.directory entries) := by
    rw [node?_fillNode]
    split
    · rename_i h
      rw [← h, hn]
      rfl
    · exact hn
  obtain ⟨hnew, hdir, hold⟩ := node?_addNode fs dir name n entries hn
  obtain ⟨hnew', hdir', hold'⟩ := node?_addNode _ dir name n entries hn'
  rw [fillNode_size] at hnew' hdir' hold'
  have hleft := (fillNode_caller fs i bytes).trans (addNode_caller _ dir name n)
  have hright := (addNode_caller fs dir name n).trans (fillNode_caller _ i bytes)
  refine ext_nodes _ _ (hleft.symm.trans hright) fun k => ?_
  have hsize := node?_size fs dir _ hn
  rw [node?_fillNode]
  by_cases hk : k = fs.nodes.size
  · rw [if_neg (by omega), hk, hnew, hnew']
  by_cases hkd : k = dir
  · rw [hkd, hdir', hdir]
    split
    · rename_i h
      rw [← h, hdir]
      rfl
    · rfl
  · rw [hold' k hkd hk, hold k hkd hk, node?_fillNode]
    split
    · rename_i h
      rw [hold i (h ▸ hkd) (h ▸ hk)]
    · rfl

theorem mayWrite_withoutPrivilege (fs : FileSystem) (i mode : Nat) :
    fs.mayWrite i (withoutPrivilege mode) = fs.mayWrite i mode := by
  unfold mayWrite
  rw [rights_mod fs fs rfl i mode _ (withoutPrivilege_mod mode)]

/-- What a file holds does not matter for what is opened. -/
theorem openForChange_fillNode (fs : FileSystem) (path : String) (mode i : Nat)
    (bytes : ByteArray) (hi : i < fs.nodes.size) :
    (fs.fillNode i bytes).openForChange path mode =
      (fs.openForChange path mode).map fun p => (p.1, p.2.fillNode i bytes) := by
  have hcaller := fillNode_caller fs i bytes
  rw [openForChange_eq, openForChange_eq, reach_alike fs _ (alike_fillNode fs i bytes)]
  cases hr : fs.reach true path with
  | error e => rfl
  | ok r =>
    cases r with
    | found t =>
      simp only [hcaller.mayWrite]
      rcases fillNode_node fs i t.last bytes with hn | ⟨old, held, hn, hn'⟩
      · rw [hn]
        split
        · split <;> rfl
        · rfl
        · rfl
        · rfl
      · simp only [hn, hn', mayWrite_withoutPrivilege]
        split <;> rfl
    | vacant dir name =>
      obtain ⟨hd, -⟩ := reach_vacant fs true path name dir hr
      simp only [hcaller.owns, hcaller.masked, fillNode_size,
        addNode_fillNode fs _ name _ i bytes hd hi]
      split <;> rfl

def openToFill (fs : FileSystem) (path : String) : Except SystemError (Nat × FileSystem) :=
  match fs.openForChange path 0o666 with
  | .error e => .error e
  | .ok (i, opened) =>
    if opened.node? i = some (.device .full) then .error .noSpace else .ok (i, opened)

theorem write_openToFill (fs : FileSystem) (path : String) (bytes : ByteArray)
    (hb : bytes.isEmpty = false) :
    fs.write path bytes = (fs.openToFill path).map fun p => p.2.fillNode p.1 bytes := by
  unfold write openToFill openForWriting
  cases fs.openForChange path 0o666 with
  | error e => rfl
  | ok p =>
    obtain ⟨i, opened⟩ := p
    simp only [bind, Except.bind, store]
    by_cases hfull : opened.node? i = some (.device .full)
    · simp [fillNode_of_device opened i .full _ hfull, hfull, hb, Except.map]
    · have hroom : (opened.fillNode i .empty).node? i ≠ some (.device .full) :=
        fun h => hfull ((fillNode_device opened i i .full .empty).1 h)
      split
      · rename_i h
        exact absurd h hroom
      · simp [hfull, Except.map, fillNode_fillNode]

theorem openToFill_fillNode (fs : FileSystem) (path : String) (i : Nat) (bytes : ByteArray)
    (hi : i < fs.nodes.size) :
    (fs.fillNode i bytes).openToFill path =
      (fs.openToFill path).map fun p => (p.1, p.2.fillNode i bytes) := by
  unfold openToFill
  rw [openForChange_fillNode fs path 0o666 i bytes hi]
  cases fs.openForChange path 0o666 with
  | error e => rfl
  | ok p =>
    simp only [Except.map, fillNode_device]
    split <;> rfl

/-! ## Opening once more -/

theorem openToFill_opens (fs opened : FileSystem) (path : String) (i : Nat)
    (h : fs.openToFill path = .ok (i, opened)) :
    Opens fs path 0o666 i opened ∧ opened.node? i ≠ some (.device .full) := by
  unfold openToFill at h
  split at h
  · simp at h
  · rename_i j changed ho
    split at h
    · simp at h
    · rename_i hroom
      simp only [Except.ok.injEq, Prod.mk.injEq] at h
      obtain ⟨rfl, rfl⟩ := h
      exact ⟨(openForChange_iff fs changed path 0o666 j).1 ho, hroom⟩

theorem opens_openToFill (fs opened : FileSystem) (path : String) (i : Nat)
    (h : Opens fs path 0o666 i opened) (hroom : opened.node? i ≠ some (.device .full)) :
    fs.openToFill path = .ok (i, opened) := by
  simp [openToFill, (openForChange_iff fs opened path 0o666 i).2 h, hroom]

/-- What has been opened can be opened again, and then nothing is made. -/
theorem openToFill_again (fs opened : FileSystem) (path : String) (i : Nat)
    (hm : fs.mask &&& 0o200 = 0) (h : fs.openToFill path = .ok (i, opened)) :
    opened.openToFill path = .ok (i, opened) := by
  obtain ⟨hopens, hroom⟩ := openToFill_opens fs opened path i h
  cases hopens with
  | file => exact h
  | device => exact h
  | made dir name hr ho =>
    have hopened : Opens fs path 0o666 _ _ := .made dir name hr ho
    obtain ⟨hd, -⟩ := reach_vacant fs true path name dir hr
    have hnew := addNode_new fs dir.last name (.file (fs.masked 0o666) .empty) hd
    obtain ⟨t, ht, hlast⟩ := hopened.leads
    have hw : FileSystem.mayWrite (fs.addNode dir.last name (.file (fs.masked 0o666) .empty))
        fs.nodes.size (fs.masked 0o666) = true := by
      rw [hopened.caller.mayWrite]
      exact mayWrite_masked fs _ (owns_new fs dir.last hd ho) hm
    refine opens_openToFill _ _ path _ ?_ hroom
    rw [← hlast] at hnew hw ⊢
    exact .file t _ _ ht hnew hw

/-- What is opened without making anything was there and can be written. -/
theorem found_of_openToFill (fs opened : FileSystem) (path : String) (i : Nat)
    (h : fs.openToFill path = .ok (i, opened)) (hsame : opened = fs) :
    ∃ t, fs.reach true path = .ok (.found t) ∧ t.last = i ∧
      ((∃ mode bytes, fs.node? i = some (.file mode bytes) ∧ fs.mayWrite i mode = true) ∨
        ∃ d, fs.node? i = some (.device d) ∧ d ≠ .terminal ∧ d ≠ .full) := by
  obtain ⟨hopens, hroom⟩ := openToFill_opens fs opened path i h
  cases hopens with
  | file t mode bytes hr hn hw => exact ⟨t, hr, rfl, Or.inl ⟨mode, bytes, hn, hw⟩⟩
  | device t d hr hn hd => exact ⟨t, hr, rfl, Or.inr ⟨d, hn, hd, fun hfull => hroom (hfull ▸ hn)⟩⟩
  | made dir name hr ho =>
    have hnew := addNode_new fs dir.last name (.file (fs.masked 0o666) .empty)
      (reach_vacant fs true path name dir hr).1
    rw [hsame] at hnew
    exact absurd (node?_size fs _ _ hnew) (Nat.lt_irrefl _)

/-- Opening another path takes nothing away from what was opened before. -/
theorem openToFill_kept (fs opened : FileSystem) (path other : String) (i j : Nat)
    (h : fs.openToFill path = .ok (i, fs)) (ho : fs.openToFill other = .ok (j, opened)) :
    opened.openToFill path = .ok (i, opened) := by
  obtain ⟨hother, -⟩ := openToFill_opens fs opened other j ho
  obtain ⟨t, hr, rfl, hkind⟩ := found_of_openToFill fs fs path i h rfl
  have hr' := reach_grows fs opened hother.grows true path t hr
  rcases hkind with ⟨mode, bytes, hn, hw⟩ | ⟨d, hn, hd, hfull⟩
  · have hn' := hother.keeps _ _ hn (by simp [isDirectory, hn])
    have hw' : opened.mayWrite t.last mode = true := by rw [hother.caller.mayWrite, hw]
    exact opens_openToFill _ _ _ _ (.file t mode bytes hr' hn' hw') (by simp [hn'])
  · have hn' := hother.keeps _ _ hn (by simp [isDirectory, hn])
    exact opens_openToFill _ _ _ _ (.device t d hr' hn' hd) (by simp [hn', hfull])

/-! ## Filling several files -/

def fillAll (fs : FileSystem) (fills : List (Nat × ByteArray)) : FileSystem :=
  fills.foldl (fun fs fill => fs.fillNode fill.1 fill.2) fs

/-- What a file is filled with is lost if it is filled again later. -/
theorem fillAll_fillNode (fs : FileSystem) (i : Nat) (old : ByteArray)
    (fills : List (Nat × ByteArray)) (h : i ∈ fills.map Prod.fst) :
    (fs.fillNode i old).fillAll fills = fs.fillAll fills := by
  induction fills generalizing fs with
  | nil => simp at h
  | cons fill fills ih =>
    obtain ⟨j, bytes⟩ := fill
    show ((fs.fillNode i old).fillNode j bytes).fillAll fills = (fs.fillNode j bytes).fillAll fills
    -- The file is filled again at once, or this filling can wait for the one that does it.
    by_cases hij : i = j
    · rw [hij, fillNode_fillNode]
    · have hi : i ∈ fills.map Prod.fst := by simpa [hij] using h
      rw [fillNode_comm fs i j old bytes hij]
      exact ih _ hi

theorem fillAll_fillAll (fs : FileSystem) (old fills : List (Nat × ByteArray))
    (h : ∀ i ∈ old.map Prod.fst, i ∈ fills.map Prod.fst) :
    (fs.fillAll old).fillAll fills = fs.fillAll fills := by
  induction old generalizing fs with
  | nil => rfl
  | cons fill old ih =>
    obtain ⟨i, bytes⟩ := fill
    show ((fs.fillNode i bytes).fillAll old).fillAll fills = fs.fillAll fills
    rw [ih (fs.fillNode i bytes) fun j hj => h j (by simp_all)]
    exact fillAll_fillNode fs i bytes fills (h i (by simp))

end FileSystem

namespace ScriptSet
open FileSystem

/-! ## The openings of a run -/

structure Openings where
  result : Except ScriptError (List String)
  nodes : List Nat
  files : FileSystem

def openAll : List String → FileSystem → Openings
  | [], fs => ⟨.ok [], [], fs⟩
  | path :: r, fs =>
    match fs.openToFill path with
    | .error e => ⟨.error (.write path e), [], fs⟩
    | .ok (i, opened) =>
      let rest := openAll r opened
      ⟨rest.result.map (path :: ·), i :: rest.nodes, rest.files⟩

theorem openAll_fillNode (paths : List String) (fs : FileSystem) (i : Nat) (bytes : ByteArray)
    (hi : i < fs.nodes.size) :
    openAll paths (fs.fillNode i bytes) =
      { openAll paths fs with files := (openAll paths fs).files.fillNode i bytes } := by
  induction paths generalizing fs with
  | nil => rfl
  | cons path paths ih =>
    unfold openAll
    rw [openToFill_fillNode fs path i bytes hi]
    cases ho : fs.openToFill path with
    | error e => rfl
    | ok p =>
      obtain ⟨j, opened⟩ := p
      have hsize := (openToFill_opens fs opened path j ho).1.grows.size_le
      simp only [Except.map, ih opened (Nat.lt_of_lt_of_le hi hsize)]

theorem openAll_fillAll (paths : List String) (fs : FileSystem) (fills : List (Nat × ByteArray))
    (h : ∀ i ∈ fills.map Prod.fst, i < fs.nodes.size) :
    openAll paths (fs.fillAll fills) =
      { openAll paths fs with files := (openAll paths fs).files.fillAll fills } := by
  induction fills generalizing fs with
  | nil => rfl
  | cons fill fills ih =>
    obtain ⟨i, bytes⟩ := fill
    have hrest : ∀ j ∈ fills.map Prod.fst, j < (fs.fillNode i bytes).nodes.size := by
      intro j hj
      rw [fillNode_size]
      exact h j (by simp_all)
    show openAll paths ((fs.fillNode i bytes).fillAll fills) = _
    rw [ih _ hrest, openAll_fillNode paths fs i bytes (h i (by simp))]
    rfl

theorem applyAll_error (c : FileChange) (r : List FileChange) (fs : FileSystem) (e : SystemError)
    (h : c.apply fs = .error e) : applyAll (c :: r) fs = (.error (.write c.path e), fs) := by
  rw [applyAll, h]

theorem applyAll_ok (c : FileChange) (r : List FileChange) (fs fs' : FileSystem)
    (h : c.apply fs = .ok fs') :
    applyAll (c :: r) fs = ((applyAll r fs').1.map (c.path :: ·), (applyAll r fs').2) := by
  rw [applyAll, h]

/-- A run that writes something into every file is its openings and its fillings. -/
theorem applyAll_writes (dir : String) (files : List GeneratedFile) (fs : FileSystem)
    (hfull : ∀ file ∈ files, file.contents.toUTF8.isEmpty = false) :
    applyAll (files.map (writeChange dir)) fs =
      let opened := openAll (files.map fun file => Path.join dir file.name) fs
      (opened.result,
        opened.files.fillAll (opened.nodes.zip (files.map fun file => file.contents.toUTF8))) := by
  induction files generalizing fs with
  | nil => rfl
  | cons file files ih =>
    have hwrite := write_openToFill fs (Path.join dir file.name) _ (hfull file (by simp))
    simp only [List.map_cons, applyAll, openAll, writeChange, hwrite]
    cases ho : fs.openToFill (Path.join dir file.name) with
    | error e => rfl
    | ok p =>
      obtain ⟨i, opened⟩ := p
      obtain ⟨hopens, -⟩ := openToFill_opens fs opened _ i ho
      simp only [Except.map]
      rw [ih _ fun other hother => hfull other (by simp [hother])]
      rw [openAll_fillNode _ opened i _ hopens.size]
      rfl

/-! ## A second run over the first -/

theorem openAll_kept (paths : List String) (fs : FileSystem) (path : String) (i : Nat)
    (h : fs.openToFill path = .ok (i, fs)) :
    (openAll paths fs).files.openToFill path = .ok (i, (openAll paths fs).files) := by
  induction paths generalizing fs with
  | nil => exact h
  | cons other paths ih =>
    unfold openAll
    cases ho : fs.openToFill other with
    | error e => exact h
    | ok p => exact ih p.2 (openToFill_kept fs p.2 path other i p.1 h ho)

/-- The second time, the same paths are opened and nothing is made. -/
theorem openAll_again (paths : List String) (fs : FileSystem) (hm : fs.mask &&& 0o200 = 0) :
    openAll paths (openAll paths fs).files = openAll paths fs := by
  induction paths generalizing fs with
  | nil => rfl
  | cons path paths ih =>
    cases ho : fs.openToFill path with
    | error e =>
      have hstop : openAll (path :: paths) fs = ⟨.error (.write path e), [], fs⟩ := by
        simp [openAll, ho]
      rw [hstop, hstop]
    | ok p =>
      obtain ⟨i, opened⟩ := p
      obtain ⟨hopens, -⟩ := openToFill_opens fs opened path i ho
      -- Both times the others are opened after `path`, and they leave what it leads to.
      have hagain := openAll_kept paths opened path i (openToFill_again fs opened path i hm ho)
      have htail := ih opened (hopens.caller.mask ▸ hm)
      simp only [openAll, ho, hagain, htail]

theorem openAll_nodes (paths : List String) (fs : FileSystem) :
    Grows fs (openAll paths fs).files ∧ (openAll paths fs).nodes.length ≤ paths.length ∧
      ∀ i ∈ (openAll paths fs).nodes, i < (openAll paths fs).files.nodes.size := by
  induction paths generalizing fs with
  | nil => exact ⟨grows_refl fs, by simp [openAll], by simp [openAll]⟩
  | cons path paths ih =>
    unfold openAll
    cases ho : fs.openToFill path with
    | error e => exact ⟨grows_refl fs, by simp, by simp⟩
    | ok p =>
      obtain ⟨i, opened⟩ := p
      obtain ⟨hopens, -⟩ := openToFill_opens fs opened path i ho
      obtain ⟨hgrows, hlength, hnodes⟩ := ih opened
      refine ⟨hopens.grows.trans hgrows, by simpa using hlength, ?_⟩
      intro j hj
      rcases List.mem_cons.1 hj with rfl | hj
      · exact Nat.lt_of_lt_of_le hopens.size hgrows.size_le
      · exact hnodes j hj

def pathsOf (dir : String) (files : List GeneratedFile) : List String :=
  files.map fun file => Path.join dir file.name

def filePaths (outDir : String) : List String :=
  (scriptNames ++ [debuggerFileName]).map (Path.join outDir)

theorem render_paths (arch : Arch) (baseDir outDir : String) (s : Settings) :
    pathsOf outDir (render arch baseDir outDir s) = filePaths outDir := rfl

theorem script_full (s : Script) : s.render.toUTF8.isEmpty = false := by
  have h : Script.header ≠ "" := by decide
  simp [ByteArray.isEmpty, Script.render, h]

theorem render_full (arch : Arch) (baseDir outDir : String) (s : Settings) (file : GeneratedFile)
    (h : file ∈ render arch baseDir outDir s) : file.contents.toUTF8.isEmpty = false := by
  simp only [render, List.mem_cons, List.not_mem_nil, or_false] at h
  rcases h with rfl | rfl | rfl | rfl | rfl | rfl | rfl
  case inr.inr.inr.inr.inr.inr => simp [ByteArray.isEmpty, debuggerFile]
  all_goals exact script_full _

theorem generate_fills (tag : String) (arch : Arch) (baseDir outDir : String) (s : Settings)
    (fs : FileSystem) (hr : Arch.require tag = .ok arch) :
    generate tag baseDir outDir s fs =
      let opened := openAll (filePaths outDir) fs
      (opened.result, opened.files.fillAll (opened.nodes.zip
        ((render arch baseDir outDir s).map fun file => file.contents.toUTF8))) := by
  simp only [generate, hr]
  rw [applyAll_writes outDir _ fs (render_full arch baseDir outDir s)]
  rfl

/-- What an earlier run has left in the directory makes no difference, wherever
the two runs end. -/
theorem generate_overwrites (tag base base' out : String) (arch : Arch) (s s' : Settings)
    (fs : FileSystem) (hm : fs.mask &&& 0o200 = 0) :
    generate arch.tag base' out s' (generate tag base out s fs).2 =
      generate arch.tag base' out s' fs := by
  have harch : Arch.require arch.tag = .ok arch := by simp [Arch.require, Arch.ofTag?_tag]
  cases hr : Arch.require tag with
  | error e => simp [generate, hr]
  | ok first =>
    rw [generate_fills tag first base out s fs hr, generate_fills _ arch base' out s' _ harch,
      generate_fills _ arch base' out s' fs harch]
    obtain ⟨-, hlength, hnodes⟩ := openAll_nodes (filePaths out) fs
    have hfst : ∀ (arch : Arch) (base : String) (s : Settings),
        ((openAll (filePaths out) fs).nodes.zip
          ((render arch base out s).map fun file => file.contents.toUTF8)).map Prod.fst =
        (openAll (filePaths out) fs).nodes := fun arch base s => List.map_fst_zip hlength
    simp only
    rw [openAll_fillAll _ _ _ (by rw [hfst]; exact hnodes), openAll_again _ fs hm]
    simp only
    rw [fillAll_fillAll _ _ _ (by rw [hfst, hfst]; exact fun _ h => h)]

def entangled : FileSystem where
  nodes := #[.directory [("out", 1)],
    .directory [("sync.sh", 2), ("build.sh", 3), ("run.sh", 3), ("debug.sh", 4)],
    .link "made.sh", .file 0o4600 "#!/bin/sh\n".toUTF8, .directory []]
  workDir := "/"

theorem entangled_overwritten :
    entangled.mask &&& 0o200 = 0 ∧
    (generate "x86" "base" "out" {} entangled).1 =
      .error (.write "out/debug.sh" .isDirectory) ∧
    generate Arch.aarch32.tag "" "out" {} (generate "x86" "base" "out" {} entangled).2 =
      generate Arch.aarch32.tag "" "out" {} entangled :=
  ⟨rfl, rfl, generate_overwrites "x86" "base" "" "out" .aarch32 {} {} entangled rfl⟩

end ScriptSet

end ImageTools
