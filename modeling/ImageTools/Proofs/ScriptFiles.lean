import ImageTools.Proofs.Overwriting
import ImageTools.Proofs.Separation

/-!
# The files that a script set leaves behind

A run writes the files of the set in turn and stops at the first that it cannot
write. If no two of their paths lead to one file, the files before that one
hold what was rendered for them, and no other file has changed. A device takes
what is written and keeps nothing.
-/

set_option autoImplicit false

namespace ImageTools

namespace FileSystem

/-! ## One write -/

inductive Written (fs fs' : FileSystem) (path : String) (bytes : ByteArray) : Prop
  | device (i : Nat) (d : Device) :
      fs.locate path = .ok i → fs'.locate path = .ok i →
      fs.node? i = some (.device d) → fs'.node? i = some (.device d) →
      Written fs fs' path bytes
  | replaced (i mode : Nat) (held : ByteArray) :
      fs.locate path = .ok i → fs'.locate path = .ok i →
      fs.node? i = some (.file mode held) →
      fs'.node? i = some (.file (withoutPrivilege mode) bytes) →
      withoutPrivilege mode % 0o2000 = mode % 0o2000 →
      (mode < 0o2000 → withoutPrivilege mode = mode) →
      (fs.mayRead i mode = true → fs'.read path = .ok bytes) →
      Written fs fs' path bytes
  | made (i : Nat) (dir : Trail) (name : String) :
      fs.reach true path = .ok (.vacant dir name) → fs'.locate path = .ok i →
      fs.node? i = none → fs'.entry? dir.last name = some i →
      fs'.node? i = some (.file (fs.masked 0o666) bytes) →
      (fs.mask &&& 0o400 = 0 → fs'.read path = .ok bytes) →
      Written fs fs' path bytes

section

variable {fs fs' fs'' : FileSystem} {path : String} {bytes : ByteArray}

theorem written_of_write (hw : fs.write path bytes = .ok fs') : Written fs fs' path bytes := by
  obtain ⟨i, opened, ho, -, rfl⟩ := (write_iff fs fs' path bytes).1 hw
  have hc := fillNode_changes opened i bytes
  have hcaller := ho.caller.trans (fillNode_caller opened i bytes)
  obtain ⟨t, ht, hlast⟩ := ho.leads
  have hleads : (opened.fillNode i bytes).locate path = .ok i :=
    (locate_ok _ path i).2
      ⟨t, resolve_grows opened _ hc.grows path t (resolve_of_reach opened path t ht), hlast⟩
  cases ho with
  | device t d hr hn =>
    rw [fillNode_of_device fs t.last d bytes hn] at hleads ⊢
    exact .device t.last d hleads hleads hn hn
  | file t mode held hr hn =>
    have hholds := fillNode_file fs t.last mode held bytes hn
    refine .replaced t.last mode held (locate_of_reach fs path t hr) hleads hn hholds
      (withoutPrivilege_mod mode) (withoutPrivilege_of_lt mode) fun hread => ?_
    refine read_file _ path t.last _ bytes hleads hholds ?_
    unfold mayRead at hread ⊢
    rwa [rights_mod fs _ hcaller.foreign t.last mode _ (withoutPrivilege_mod mode)]
  | made dir name hr hown =>
    obtain ⟨hd, hfree⟩ := reach_vacant fs true path name dir hr
    have hsize := isDirectory_lt fs dir.last hd
    have hnew := addNode_new fs dir.last name (.file (fs.masked 0o666) .empty) hd
    have hholds := fillNode_file _ fs.nodes.size _ .empty bytes hnew
    rw [withoutPrivilege_of_lt _ (masked_lt fs)] at hholds
    have hentry := addNode_entry fs dir.last name (.file (fs.masked 0o666) .empty) hd hfree
    refine .made fs.nodes.size dir name hr hleads ?_ ?_ hholds fun hm => ?_
    · exact Array.getElem?_eq_none (Nat.le_refl _)
    · simpa only [hc.others dir.last (Nat.ne_of_gt hsize), entry?] using hentry
    · refine read_file _ path _ _ bytes hleads hholds ?_
      rw [mayRead_foreign fs _ hcaller.foreign]
      exact mayRead_masked fs _ 0o666 (owns_new fs dir.last hd hown) (by decide) hm

theorem write_onlyAt (hw : fs.write path bytes = .ok fs') : OnlyAt [path] fs fs' := by
  obtain ⟨i, opened, ho, -, rfl⟩ := (write_iff fs fs' path bytes).1 hw
  exact ho.onlyAt (fillNode_changes opened i bytes) (fillNode_caller opened i bytes)

/-- What has been written stays as long as the path is not moved. -/
theorem Written.later (h : Written fs fs' path bytes) (hg : Grows fs' fs'')
    (hm : Unmoved fs' fs'' path) : Written fs fs'' path bytes := by
  have hread : ∀ i mode, fs'.locate path = .ok i → fs'.node? i = some (.file mode bytes) →
      fs'.read path = .ok bytes → fs''.read path = .ok bytes := by
    intro i mode hl hn hr
    obtain ⟨t, ht, rfl⟩ := (locate_ok fs' path i).1 hl
    have hn' := ((hm.node_iff t.last _ hl (by simp)).2 hn).trans hn.symm
    rw [read_eq fs' fs'' path t hg.foreign ht ((hm.resolve t).2 ht) hn', hr]
  cases h with
  | device i d hl hl' hn hn' =>
    exact .device i d hl ((hm.locate i).2 hl') hn ((hm.node_iff i _ hl' (by simp)).2 hn')
  | replaced i mode held hl hl' hn hn' hbits hmode hr =>
    exact .replaced i mode held hl ((hm.locate i).2 hl') hn
      ((hm.node_iff i _ hl' (by simp)).2 hn') hbits hmode fun h => hread i _ hl' hn' (hr h)
  | made i dir name hv hl' hnone hentry hn' hr =>
    refine .made i dir name hv ((hm.locate i).2 hl') hnone ?_
      ((hm.node_iff i _ hl' (by simp)).2 hn') fun h => hread i _ hl' hn' (hr h)
    obtain ⟨entries, hd⟩ := isDirectory_entries fs _ (reach_vacant fs true path name dir hv).1
    unfold entry? at hentry
    split at hentry
    · rename_i es hes
      have hkept := hg.nodes dir.last
      rw [hes] at hkept
      obtain ⟨more, hmore, hlookup⟩ := hkept
      simp only [hmore, hlookup name i hentry, entry?]
    · simp at hentry

/-- The same write, seen from before another one that did not move the path. -/
theorem Written.earlier (h : Written fs' fs'' path bytes) (hc : SameCaller fs fs')
    (hg : Grows fs fs') (hm : Unmoved fs fs' path) : Written fs fs'' path bytes := by
  cases h with
  | device i d hl hl' hn hn' =>
    have hl := (hm.locate i).1 hl
    exact .device i d hl hl' ((hm.node_iff i _ hl (by simp)).1 hn) hn'
  | replaced i mode held hl hl' hn hn' hbits hmode hr =>
    have hl := (hm.locate i).1 hl
    refine .replaced i mode held hl hl' ((hm.node_iff i _ hl (by simp)).1 hn) hn' hbits hmode ?_
    rwa [mayRead_foreign fs fs' hc.foreign] at hr
  | made i dir name hv hl' hnone hentry hn' hr =>
    refine .made i dir name ((hm.reach _).1 hv) hl' ?_ hentry ?_ (hc.mask ▸ hr)
    · have hle := hg.size_le
      simp only [node?, Array.getElem?_eq_none_iff] at hnone ⊢
      omega
    · simpa only [masked, hc.mask] using hn'

/-- What has been written to is where it was, or it is new. -/
theorem Written.spot (h : Written fs fs' path bytes) (s : Spot) (hs : fs'.spot? path = some s) :
    fs.spot? path = some s ∨ ∃ i, s = .file i ∧ fs.node? i = none := by
  have hfile : ∀ i, fs'.locate path = .ok i → s = .file i ∧
      ∃ mode bytes, fs'.node? i = some (.file mode bytes) := by
    intro i hl
    cases s with
    | file j =>
      obtain ⟨hj, hn⟩ := (spot?_file fs' path j).1 hs
      rw [hl, Except.ok.injEq] at hj
      exact ⟨hj ▸ rfl, hj ▸ hn⟩
    | free dir name => exact absurd hl (locate_free fs' path dir name hs i)
  cases h with
  | device i d hl hl' hn hn' =>
    obtain ⟨-, mode, held, hf⟩ := hfile i hl'
    rw [hn'] at hf
    simp at hf
  | replaced i mode held hl hl' hn =>
    rw [(hfile i hl').1]
    exact Or.inl ((spot?_file fs path i).2 ⟨hl, mode, held, hn⟩)
  | made i dir name hv hl' hnone => exact Or.inr ⟨i, (hfile i hl').1, hnone⟩

end

theorem OnlyAt.cons {fs fs' fs'' : FileSystem} {path : String} {paths : List String}
    (h : OnlyAt [path] fs fs') (hrest : OnlyAt paths fs' fs'')
    (hm : ∀ other ∈ paths, Unmoved fs fs' other) : OnlyAt (path :: paths) fs fs'' := by
  constructor
  case caller => exact h.caller.trans hrest.caller
  case grows => exact h.grows.trans hrest.grows
  case nodes =>
    intro i n hn hd hleads
    have hn' := h.nodes i n hn hd (by simpa using hleads path (by simp))
    have hd' : fs'.isDirectory i = false := by simpa only [isDirectory, hn, hn'] using hd
    refine hrest.nodes i n hn' hd' fun other hother hl => ?_
    exact hleads other (by simp [hother]) (((hm other hother).locate i).1 hl)
  case names =>
    intro dir name i he
    rcases hrest.names dir name i he with he | ⟨other, hother, t, hr, ht⟩
    · rcases h.names dir name i he with he | ⟨other, hother, hend⟩
      · exact Or.inl he
      · rw [List.mem_singleton] at hother
        exact Or.inr ⟨path, by simp, hother ▸ hend⟩
    · exact Or.inr ⟨other, by simp [hother], t, ((hm other hother).reach _).1 hr, ht⟩

end FileSystem

namespace ScriptSet
open FileSystem

/-! ## A run -/

/-- The files have been written, each to its path, and nothing else has been touched. -/
structure WroteAll (dir : String) (files : List GeneratedFile) (fs fs' : FileSystem) : Prop where
  writable : ∀ file ∈ files, Writable fs (Path.join dir file.name) file.contents.toUTF8
  written : ∀ file ∈ files, Written fs fs' (Path.join dir file.name) file.contents.toUTF8
  only : OnlyAt (pathsOf dir files) fs fs'
  unmoved : ∀ path, Clear fs (pathsOf dir files) path → Unmoved fs fs' path

theorem wroteAll_nil (dir : String) (fs : FileSystem) : WroteAll dir [] fs fs :=
  ⟨by simp, by simp, onlyAt_refl _ fs, fun path _ => unmoved_refl fs path⟩

section

variable {fs fs' fs'' : FileSystem} {dir : String} {file : GeneratedFile}
  {files : List GeneratedFile}

theorem write_unmoves (hs : Sound fs) {path : String} {bytes : ByteArray} {paths : List String}
    (hw : fs.write path bytes = .ok fs') (h : Clear fs paths path) :
    (∀ other ∈ paths, Unmoved fs fs' other) ∧ Clear fs' paths path := by
  have hm : ∀ other ∈ paths, Unmoved fs fs' other := fun other ho =>
    write_unmoved fs fs' path other bytes hs hw fun s hp hother => h other ho s hother hp
  refine ⟨hm, fun other ho s hs' hself => ?_⟩
  rw [(hm other ho).spot] at hs'
  rcases (written_of_write hw).spot s hself with hp | ⟨i, rfl, hnone⟩
  · exact h other ho s hs' hp
  · obtain ⟨-, mode, held, hn⟩ := (spot?_file fs other i).1 hs'
    rw [hnone] at hn
    simp at hn

/-- One more file before the others. -/
theorem WroteAll.cons (hs : Sound fs) (hw : fs.write (Path.join dir file.name)
    file.contents.toUTF8 = .ok fs') (hc : Clear fs (pathsOf dir files) (Path.join dir file.name))
    (h : WroteAll dir files fs' fs'') : WroteAll dir (file :: files) fs fs'' := by
  obtain ⟨hm, hc'⟩ := write_unmoves hs hw hc
  have honly := write_onlyAt hw
  have hmem : ∀ other ∈ files, Path.join dir other.name ∈ pathsOf dir files :=
    fun other ho => List.mem_map_of_mem ho
  constructor
  case writable =>
    intro other ho
    rcases List.mem_cons.1 ho with rfl | ho
    · obtain ⟨i, opened, hopens, hroom, -⟩ := (write_iff fs fs' _ _).1 hw
      exact (writable_iff fs _ _ 0o666).2 ⟨i, opened, hopens, hroom⟩
    · exact ((hm _ (hmem other ho)).writable honly.caller _).1 (h.writable other ho)
  case written =>
    intro other ho
    rcases List.mem_cons.1 ho with rfl | ho
    · exact (written_of_write hw).later h.only.grows (h.unmoved _ hc')
    · exact (h.written other ho).earlier honly.caller honly.grows (hm _ (hmem other ho))
  case only => exact honly.cons h.only hm
  case unmoved =>
    intro path hp
    have hfirst : Unmoved fs fs' path :=
      write_unmoved fs fs' _ path _ hs hw (hp _ (by simp [pathsOf]))
    have hrest : Clear fs (pathsOf dir files) path :=
      fun other ho => hp other (List.mem_cons_of_mem _ ho)
    exact hfirst.trans (h.unmoved path (hrest.later hm hfirst))

end

/-- How a run over `files` ends that has written all but `after`. -/
def Ended (dir : String) (files after : List GeneratedFile) (fs : FileSystem)
    (result : Except ScriptError (List String)) : Prop :=
  match after with
  | [] => result = .ok (pathsOf dir files)
  | file :: _ => ¬ Writable fs (Path.join dir file.name) file.contents.toUTF8 ∧
      ∃ e, result = .error (.write (Path.join dir file.name) e)

/-- A run writes the files up to the first that it cannot write. -/
theorem applyAll_wrote (dir : String) (files : List GeneratedFile) (fs : FileSystem)
    (hs : Sound fs) (ha : Apart fs (pathsOf dir files)) :
    ∃ before after, files = before ++ after ∧
      WroteAll dir before fs (applyAll (files.map (writeChange dir)) fs).2 ∧
      Ended dir files after fs (applyAll (files.map (writeChange dir)) fs).1 := by
  induction files generalizing fs with
  | nil => exact ⟨[], [], rfl, wroteAll_nil dir fs, rfl⟩
  | cons file files ih =>
    obtain ⟨hclear, hrest⟩ := (apart_cons fs _ _).1 ha
    cases hw : fs.write (Path.join dir file.name) file.contents.toUTF8 with
    | error e =>
      rw [List.map_cons, applyAll_error _ _ fs e hw]
      refine ⟨[], file :: files, rfl, wroteAll_nil dir fs, fun hwrite => ?_, e, rfl⟩
      obtain ⟨i, opened, ho, hroom⟩ := (writable_iff fs _ _ 0o666).1 hwrite
      have hok := (write_iff fs _ _ _).2 ⟨i, opened, ho, hroom, rfl⟩
      rw [hw] at hok
      simp at hok
    | ok fs' =>
      -- The first write moves none of the other paths, so they are still apart after it.
      obtain ⟨hm, -⟩ := write_unmoves hs hw hclear
      obtain ⟨before, after, rfl, hwrote, hended⟩ :=
        ih fs' (sound_write fs fs' _ _ hs hw) (hrest.later hm)
      have hclear' : Clear fs (pathsOf dir before) (Path.join dir file.name) :=
        fun other ho => hclear other (by simp_all [pathsOf])
      rw [List.map_cons, applyAll_ok _ _ fs fs' hw]
      refine ⟨file :: before, after, rfl, hwrote.cons hs hw hclear', ?_⟩
      cases after with
      | nil =>
        have hok : (applyAll ((before ++ []).map (writeChange dir)) fs').1 =
            .ok (pathsOf dir (before ++ [])) := hended
        rw [hok]
        rfl
      | cons next after =>
        obtain ⟨hnext, e, he⟩ := hended
        have hmoved := hm (Path.join dir next.name) (by simp)
        refine ⟨fun hwrite => hnext ((hmoved.writable ?_ _).2 hwrite), e, by rw [he]; rfl⟩
        exact (write_onlyAt hw).caller

/-- A run writes the set, or the part of it that comes before the first file
that it cannot write. -/
theorem generate_wrote (arch : Arch) (baseDir outDir : String) (s : Settings) (fs : FileSystem)
    (hs : Sound fs) (ha : Apart fs (filePaths outDir)) :
    let ran := generate arch.tag baseDir outDir s fs
    ∃ before after, render arch baseDir outDir s = before ++ after ∧
      WroteAll outDir before fs ran.2 ∧
      (∀ file ∈ after, Unmoved fs ran.2 (Path.join outDir file.name)) ∧
      match after with
      | [] => ran.1 = .ok (filePaths outDir)
      | file :: _ => ¬ Writable fs (Path.join outDir file.name) file.contents.toUTF8 ∧
          ∃ e, ran.1 = .error (.write (Path.join outDir file.name) e) := by
  have hran : generate arch.tag baseDir outDir s fs =
      applyAll ((render arch baseDir outDir s).map (writeChange outDir)) fs := by
    simp [generate, Arch.require, Arch.ofTag?_tag]
  obtain ⟨before, after, hfiles, hwrote, hended⟩ :=
    applyAll_wrote outDir (render arch baseDir outDir s) fs hs (render_paths arch .. ▸ ha)
  have hclear : ∀ file ∈ after, Clear fs (pathsOf outDir before) (Path.join outDir file.name) := by
    rw [← render_paths arch baseDir outDir s, hfiles, pathsOf, List.map_append] at ha
    exact fun file hf => ha.clear _ (List.mem_map_of_mem hf)
  rw [hran]
  refine ⟨before, after, hfiles, hwrote, fun file hf => hwrote.unmoved _ (hclear file hf), ?_⟩
  cases after with
  | nil => exact hended
  | cons file after => exact hended

def blocked : FileSystem where
  nodes := #[.directory [("out", 1)],
    .directory [("build.sh", 2), ("run.sh", 3), ("debug.sh", 4)],
    .file 0o750 "#!/bin/sh\n".toUTF8, .link "made.sh", .directory []]
  workDir := "/"

theorem blocked_wrote :
    Sound blocked ∧ Apart blocked (filePaths "out") ∧
    (generate Arch.x86.tag "base" "out" {} blocked).1 =
      .error (.write "out/debug.sh" .isDirectory) ∧
    ∃ before after, render .x86 "base" "out" {} = before ++ after ∧
      WroteAll "out" before blocked (generate Arch.x86.tag "base" "out" {} blocked).2 := by
  have hlaid : blocked = (empty.layOut [("out/build.sh", .file 0o750 "#!/bin/sh\n".toUTF8),
      ("out/run.sh", .link "made.sh"), ("out/debug.sh", .directory)]).2 := by decide +kernel
  have hs : Sound blocked := hlaid ▸ layOut_sound _ _ sound_empty
  have ha : Apart blocked (filePaths "out") := by decide +kernel
  obtain ⟨before, after, hfiles, hwrote, -⟩ := generate_wrote .x86 "base" "out" {} blocked hs ha
  exact ⟨hs, ha, rfl, before, after, hfiles, hwrote⟩

def unkept : FileSystem where
  nodes := #[.directory [("out", 1)], .directory [("sync.sh", 2), ("build.sh", 3)],
    .device .null, .file 0o4755 "#!/bin/sh\n".toUTF8]
  workDir := "/"

theorem unkept_wrote :
    Sound unkept ∧ Apart unkept (filePaths "out") ∧
    (generate Arch.x86.tag "base" "out" {} unkept).1 = .ok (filePaths "out") ∧
    (∀ file ∈ render .x86 "base" "out" {}, file.contents.toUTF8.isEmpty = false) ∧
    (generate Arch.x86.tag "base" "out" {} unkept).2.read "out/sync.sh" = .ok .empty ∧
    unkept.locate "out/build.sh" = .ok 3 ∧
    unkept.node? 3 = some (.file 0o4755 "#!/bin/sh\n".toUTF8) ∧
    (generate Arch.x86.tag "base" "out" {} unkept).2.locate "out/build.sh" = .ok 3 ∧
    (generate Arch.x86.tag "base" "out" {} unkept).2.node? 3 =
      some (.file 0o755 (build .x86).render.toUTF8) := by
  have hlaid : unkept = (empty.layOut [("out/sync.sh", .device .null),
      ("out/build.sh", .file 0o4755 "#!/bin/sh\n".toUTF8)]).2 := by decide +kernel
  have hs : Sound unkept := hlaid ▸ layOut_sound _ _ sound_empty
  have ha : Apart unkept (filePaths "out") := by decide +kernel
  refine ⟨hs, ha, rfl, render_full .x86 "base" "out" {}, ?_⟩
  refine ⟨rfl, rfl, rfl, rfl, rfl⟩

end ScriptSet

end ImageTools
