import ImageTools.Proofs.PlacesApart
import ImageTools.Proofs.TreePaths

/-!
# Where the script set can be used

Two of the scripts call the others by name, so they have to be started in the
directory that holds them. A relative directory that is written into the set
has then moved: it is looked for there, and not where the set was made.
-/

set_option autoImplicit false

namespace ImageTools

namespace ScriptSet
open ImageTools.Path Shell FileSystem

/-! ## Names in the directory of the set -/

theorem names_below (dir name : String) :
    names (below dir name) = names (dropSlash dir) ++ names name :=
  names_slash (dropSlash dir) name

theorem names_joined (dir name : String) (h : isAbsolute name = false) :
    ∃ front, names (join dir name) = front ++ names name ∧ steps front = steps (names dir) := by
  by_cases hempty : dir = ""
  · subst hempty
    exact ⟨[], by rw [join_empty name h, List.nil_append], rfl⟩
  · refine ⟨names (dropSlash dir), ?_, steps_dropSlash dir⟩
    rw [← (below_join dir name h).2 hempty]
    exact names_below dir name

theorem steps_given (workDir dir name : String) (h : isAbsolute name = false) :
    steps (namesFrom workDir (join dir name)) =
      steps (names (join workDir dir)) ++ steps (names name) := by
  obtain ⟨front, hnames, hfront⟩ := names_joined dir name h
  have habs : isAbsolute (join dir name) = isAbsolute dir := by
    by_cases hempty : dir = ""
    · subst hempty
      rw [join_empty name h, h]
      rfl
    · exact isAbsolute_join dir name hempty h
  rw [steps_join, namesFrom, namesFrom, habs, hnames]
  split <;> simp only [steps_append, hfront, List.append_assoc]

/-- Whether a directory that is given where the set is made is the same where
the set lies. An empty one is written as the root. -/
def Anchored (workDir outDir dir : String) : Prop :=
  if dir = "" then destination (names workDir) = []
  else isAbsolute dir = true ∨
    destination (names (join workDir outDir)) = destination (names workDir)

theorem destination_below_iff (workDir outDir dir name : String) (h : isAbsolute name = false) :
    destination (namesFrom (join workDir outDir) (below dir name)) =
        destination (namesFrom workDir (join dir name)) ↔ Anchored workDir outDir dir := by
  unfold Anchored
  by_cases hempty : dir = ""
  · subst hempty
    have hbelow : isAbsolute (below "" name) = true := by
      simp [below, isAbsolute, dropSlash]
    rw [if_pos rfl, namesFrom, if_pos hbelow, join_empty name h, namesFrom, if_neg (by simp [h]),
      names_below, destination_append_inj]
    exact eq_comm
  rw [if_neg hempty, (below_join dir name h).2 hempty]
  unfold namesFrom
  rw [isAbsolute_join dir name hempty h]
  by_cases habs : isAbsolute dir = true
  · simp [habs]
  · simp [habs, destination_append_inj]

/-! ## Files that the set names -/

def SameFile (fs : FileSystem) (workDir outDir dir name : String) : Prop :=
  { fs with workDir := join workDir outDir }.reach false (below dir name) =
    { fs with workDir := workDir }.reach false (join dir name)

/-- Every file that the set names is the one that was meant. -/
def Located (fs : FileSystem) (arch : Arch) (workDir baseDir outDir : String) : Prop :=
  (∀ name ∈ baseNames, SameFile fs workDir outDir baseDir name) ∧
    ∀ name ∈ outNames arch, SameFile fs workDir outDir outDir name

structure Ordinary (name : String) : Prop where
  relative : isAbsolute name = false
  proper : Proper (names name)
  downward : Downward (names name)
  read : refused? name = none
  rooted : refused? (below "" name) = none

instance decidableOrdinary (name : String) : Decidable (Ordinary name) :=
  decidable_of_iff (isAbsolute name = false ∧ Proper (names name) ∧ Downward (names name) ∧
      refused? name = none ∧ refused? (below "" name) = none)
    ⟨fun ⟨h₁, h₂, h₃, h₄, h₅⟩ => ⟨h₁, h₂, h₃, h₄, h₅⟩,
      fun ⟨h₁, h₂, h₃, h₄, h₅⟩ => ⟨h₁, h₂, h₃, h₄, h₅⟩⟩

theorem baseNames_ordinary : ∀ name ∈ baseNames, Ordinary name := by
  decide

theorem outNames_ordinary (arch : Arch) : ∀ name ∈ outNames arch, Ordinary name := by
  cases arch <;> decide

section

variable (workDir outDir dir name : String)

theorem proper_joined (h : Ordinary name) : Proper (names (join dir name)) := by
  obtain ⟨front, hnames, -⟩ := names_joined dir name h.relative
  rw [hnames]
  exact h.proper.behind front

theorem proper_below (h : Ordinary name) : Proper (names (below dir name)) := by
  rw [names_below]
  exact h.proper.behind _

theorem refused_joined (h : Ordinary name) :
    refused? (below dir name) = refused? (join dir name) := by
  by_cases hempty : dir = ""
  · subst hempty
    rw [join_empty name h.relative, h.rooted, h.read]
  · rw [(below_join dir name h.relative).2 hempty]

theorem sameFile_of_anchored (h : Ordinary name) (ha : Anchored workDir outDir dir)
    (fs : FileSystem) : SameFile fs workDir outDir dir name := by
  apply reach_destination fs
  · exact refused_joined dir name h
  · exact (destination_below_iff workDir outDir dir name h.relative).2 ha
  · exact proper_below dir name h
  · exact proper_joined dir name h

theorem downward_from (path : String) (h : Downward (names dir)) (h' : Downward (names path)) :
    Downward (namesFrom dir path) := by
  unfold namesFrom
  split
  · exact h'
  · exact h.append h'

theorem anchored_of_sameFile (h : Ordinary name) (hw : Downward (names workDir))
    (ho : Downward (names outDir)) (hd : Downward (names dir))
    (hread : refused? (below dir name) = none)
    (hsame : ∀ fs, SameFile fs workDir outDir dir name) : Anchored workDir outDir dir := by
  obtain ⟨front, hnames, hfront⟩ := names_joined dir name h.relative
  have hhome : Downward (names (join workDir outDir)) :=
    (downward_from workDir outDir hw ho).alike (steps_join workDir outDir)
  have hbelow : Downward (names (below dir name)) := by
    rw [names_below]
    exact (hd.alike (steps_dropSlash dir)).append h.downward
  have hjoined : Downward (names (join dir name)) := by
    rw [hnames]
    exact (hd.alike hfront).append h.downward
  apply Classical.byContradiction
  intro hne
  obtain ⟨fs, hfs⟩ := reach_apart (join workDir outDir) workDir (below dir name) (join dir name)
    hread (refused_joined dir name h ▸ hread) (downward_from _ _ hhome hbelow)
    (downward_from _ _ hw hjoined) (proper_below dir name h)
    (fun hplace => hne ((destination_below_iff workDir outDir dir name h.relative).1 hplace))
  exact hfs (hsame fs)

theorem called_by_name (script : String) (h : Ordinary script)
    (hread : refused? (join outDir script) = none) (hcall : refused? ("./" ++ script) = none)
    (fs : FileSystem) :
    { fs with workDir := join workDir outDir }.reach false ("./" ++ script) =
      { fs with workDir := workDir }.reach false (join outDir script) := by
  have hnames : names ("./" ++ script) = ["."] ++ names script := names_slash "." script
  have habs : isAbsolute ("./" ++ script) = false := by simp [isAbsolute]
  apply reach_destination fs
  · rw [hread, hcall]
  · have hsteps : steps (namesFrom (join workDir outDir) ("./" ++ script)) =
        steps (namesFrom workDir (join outDir script)) := by
      rw [steps_given workDir outDir script h.relative, namesFrom, habs, hnames]
      simp only [Bool.false_eq_true, if_false, steps_append]
      rfl
    rw [destination, destination, hsteps]
  · rw [hnames]
    exact h.proper.behind _
  · exact proper_joined outDir script h

end

/-! ## The set in its directory -/

theorem chain_calls (last message : String) :
    ∀ script ∈ ["build.sh", "sync.sh", last],
      ["./" ++ script] ∈ literalCommands (chain ("./" ++ last) message).render := by
  rw [chain, literalCommands_checkedChain _ (by simp)]
  simp

def callers : List (String × String) := [("all.sh", "run.sh"), ("dll.sh", "debug.sh")]

theorem callers_call (arch : Arch) (baseDir outDir : String) (s : Settings) :
    ∀ caller ∈ callers, ∃ file ∈ render arch baseDir outDir s, file.name = caller.1 ∧
      ∀ script ∈ ["build.sh", "sync.sh", caller.2],
        ["./" ++ script] ∈ literalCommands file.contents := by
  have hfile : ∀ i file, (render arch baseDir outDir s)[i]? = some file →
      file ∈ render arch baseDir outDir s := fun i file h => List.mem_of_getElem? h
  intro caller hcaller
  simp only [callers, List.mem_cons, List.not_mem_nil, or_false] at hcaller
  rcases hcaller with rfl | rfl
  · exact ⟨_, hfile 4 _ rfl, rfl, chain_calls "run.sh" "All command failed"⟩
  · exact ⟨_, hfile 5 _ rfl, rfl, chain_calls "debug.sh" "Debug All command failed"⟩

theorem called_ordinary : ∀ caller ∈ callers, ∀ script ∈ ["build.sh", "sync.sh", caller.2],
    Ordinary script ∧ refused? ("./" ++ script) = none := by
  decide

/-- Started where the set lies, its scripts call the set's own. What the set
names is there what was meant if both directories are anchored, and unless they
are it is not in every file system. -/
theorem located_iff_anchored (arch : Arch) (workDir baseDir outDir : String) (s : Settings) :
    render arch baseDir outDir s = renderAt (below baseDir) (below outDir) arch s ∧
    (∀ caller ∈ callers, ∃ file ∈ render arch baseDir outDir s, file.name = caller.1 ∧
      ∀ script ∈ ["build.sh", "sync.sh", caller.2],
        ["./" ++ script] ∈ literalCommands file.contents ∧
        ∀ fs : FileSystem, refused? (join outDir script) = none →
          { fs with workDir := join workDir outDir }.reach false ("./" ++ script) =
            { fs with workDir := workDir }.reach false (join outDir script)) ∧
    (Anchored workDir outDir baseDir ∧ Anchored workDir outDir outDir →
      ∀ fs, Located fs arch workDir baseDir outDir) ∧
    (Downward (names workDir) → Downward (names baseDir) → Downward (names outDir) →
      refused? (below baseDir "base") = none → refused? (below outDir "one.img") = none →
      (∀ fs, Located fs arch workDir baseDir outDir) →
      Anchored workDir outDir baseDir ∧ Anchored workDir outDir outDir) := by
  refine ⟨render_below arch baseDir outDir s, ?_, ?_, ?_⟩
  · intro caller hcaller
    obtain ⟨file, hfile, hname, hcalls⟩ := callers_call arch baseDir outDir s caller hcaller
    refine ⟨file, hfile, hname, fun script hscript => ⟨hcalls script hscript, ?_⟩⟩
    intro fs hread
    obtain ⟨hordinary, hcall⟩ := called_ordinary caller hcaller script hscript
    exact called_by_name workDir outDir script hordinary hread hcall fs
  · rintro ⟨hbase, hout⟩ fs
    constructor
    · intro name hname
      have hordinary := baseNames_ordinary name hname
      exact sameFile_of_anchored workDir outDir baseDir name hordinary hbase fs
    · intro name hname
      have hordinary := outNames_ordinary arch name hname
      exact sameFile_of_anchored workDir outDir outDir name hordinary hout fs
  · intro hw hb ho hreadBase hreadOut hlocated
    have himage : "one.img" ∈ outNames arch := by cases arch <;> decide
    constructor
    · apply anchored_of_sameFile workDir outDir baseDir "base" (by decide) hw ho hb hreadBase
      intro fs
      exact (hlocated fs).1 "base" (by decide)
    · apply anchored_of_sameFile workDir outDir outDir "one.img" (by decide) hw ho ho hreadOut
      intro fs
      exact (hlocated fs).2 "one.img" himage

def imageTree : FileSystem :=
  { nodes := #[.directory [("w", 1)], .directory [("out", 2)], .directory [("one.img", 3)],
      .file 0o644 ByteArray.empty]
    workDir := "/w" }

/-- For a set made in `/w` under the name `out`, the script that is started in
`/w/out` mounts an image that is not there. -/
theorem relative_directory_moves :
    isAbsolute "/w" = true ∧ "out" ≠ "" ∧ ¬ Located imageTree .x86 "/w" "/b" "out" ∧
    imageTree.isFile (join "out" "one.img") = true ∧
    { imageTree with workDir := join "/w" "out" }.pathExists (below "out" "one.img") = false ∧
    ∃ file ∈ render .x86 "/b" "out" {}, file.name = "sync.sh" ∧
      ["sudo", "fuse-ext2", below "out" "one.img", "/b/mountpoint", "-o", "rw+"] ∈
        literalCommands file.contents := by
  have hwritten : { imageTree with workDir := join "/w" "out" }.pathExists
      (below "out" "one.img") = false := by decide
  refine ⟨by decide, by decide, ?_, by decide, hwritten, ?_⟩
  · intro hlocated
    have hsame : SameFile imageTree "/w" "out" "out" "one.img" := hlocated.2 "one.img" (by decide)
    have hmeant : imageTree.pathExists (join "out" "one.img") = true := by decide
    have hboth : { imageTree with workDir := join "/w" "out" }.pathExists (below "out" "one.img") =
        imageTree.pathExists (join "out" "one.img") := by
      unfold pathExists resolve
      rw [hsame]
      rfl
    rw [hwritten, hmeant] at hboth
    exact Bool.false_ne_true hboth
  · refine ⟨{ name := "sync.sh", contents := (sync "/b" "out").render }, ?_, rfl, ?_⟩
    · exact List.mem_cons_self
    · exact sync_mounts "/b" "out"

end ScriptSet

end ImageTools
