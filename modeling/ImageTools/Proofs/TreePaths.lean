import ImageTools.ScriptSet
import ImageTools.Proofs.PathPlaces
import ImageTools.Proofs.SetCommands

/-!
# Paths in the script set

Each path in the generated files lies in one of two trees. The set is spelled
out once more with these paths left open: its text is determined by how they
are written, and determines them. They are written as names joined to the two
directories, apart from the empty directory, which is taken for the root.
-/

set_option autoImplicit false

namespace ImageTools

namespace ScriptSet
open Script Shell

/-! ## The set with its paths left open -/

def baseNames : List String :=
  ["base/dev", "base/proc", "mountpoint", "mountpoint/boot", "mountpoint/proc", "base"]

def outNames : Arch → List String
  | .x86 => ["one.img", "base", "os-image.bin", "base/boot/kernel.bin"]
  | .aarch32 => ["one.img", "base", "base/boot/kernel.bin"]

section

variable (base out : String → String)

def syncAt : Script where
  elevated := true
  steps := [
    .makeDirectory (base "base/dev"),
    .makeDirectory (base "base/proc"),
    .blank,
    .makeDirectory (base "mountpoint"),
    .mount (out "one.img") (base "mountpoint"),
    .abortOnFailure ("Can't mount one.img to " ++ base "mountpoint"),
    .makeDirectory (base "mountpoint/boot"),
    .makeDirectory (base "mountpoint/proc"),
    .copyTree (base "base") (base "mountpoint"),
    .unmountOnFailure (base "mountpoint")
      ("Can't copy " ++ base "base" ++ " to " ++ base "mountpoint"),
    .copyTree (out "base") (base "mountpoint"),
    .unmountOnFailure (base "mountpoint")
      ("Can't copy " ++ out "base" ++ " to " ++ base "mountpoint"),
    .unmount (base "mountpoint"),
    .abortOnFailure ("Can't umount " ++ base "mountpoint"),
    .announce "Sync"]

def machineAt : Arch → List String
  | .x86 =>
    ["-m", "256M", "-fda", out "os-image.bin", "-device", "piix3-ide,id=ide",
      "-drive", "id=disk,file=" ++ out "one.img" ++ ",if=none",
      "-device", "ide-drive,drive=disk,bus=ide.0", "-serial", "mon:stdio",
      "-rtc", "base=utc", "-vga", "std"]
  | .aarch32 =>
    ["-M", "vexpress-a15", "-cpu", "cortex-a15", "-kernel", out "base/boot/kernel.bin",
      "-serial", "mon:stdio", "-vga", "std", "-sd", out "one.img"]

def emulatorAt (arch : Arch) (s : Settings) : Emulator :=
  { program := s.emulator.getD (Emulator.defaultProgram arch), args := machineAt out arch }

/-- The files of the set; the name of a path in a tree stands for the path. -/
def renderAt (arch : Arch) (s : Settings) : List GeneratedFile :=
  let emulator := emulatorAt out arch s
  [ { name := "sync.sh", contents := (syncAt base out).render },
    { name := "build.sh", contents := (build arch).render },
    { name := "run.sh",
      contents := (checkedChain [(emulator.words, "Run command failed")]).render },
    { name := "debug.sh",
      contents :=
        (checkedChain [(emulator.withDebugStub.words, "Debug Run command failed")]).render },
    { name := "all.sh", contents := (chain "./run.sh" "All command failed").render },
    { name := "dll.sh", contents := (chain "./debug.sh" "Debug All command failed").render },
    { name := debuggerFileName,
      contents := "file " ++ out "base/boot/kernel.bin" ++
        "\ntarget remote :" ++ toString Emulator.debugPort ++ "\n" } ]

end

/-! ## The text determines the paths -/

theorem syncAt_paths (base out base' out' : String → String)
    (h : (syncAt base out).render = (syncAt base' out').render) :
    (∀ name ∈ baseNames, base name = base' name) ∧
      out "one.img" = out' "one.img" ∧ out "base" = out' "base" := by
  have hsteps := stepTokens_of_render _ _ h
  simp [syncAt, stepTokens] at hsteps
  obtain ⟨hdev, hproc, hmount, ⟨himage, -⟩, -, hboot, hmountProc, ⟨hbase, -⟩, -, ⟨hout, -⟩, -⟩ :=
    hsteps
  refine ⟨?_, himage, hout⟩
  simp [baseNames, hdev, hproc, hmount, hboot, hmountProc, hbase]

theorem checkedChain_words (words words' : List String) (message message' : String)
    (h : (checkedChain [(words, message)]).render = (checkedChain [(words', message')]).render) :
    words = words' := by
  have hsteps := stepTokens_of_render _ _ h
  have hfirst : words.map wordToken = words'.map wordToken := (List.cons.inj hsteps).1
  exact (List.map_inj_right fun a b hab => (wordToken_inj a b).1 hab).1 hfirst

theorem machineAt_paths (arch : Arch) (out out' : String → String)
    (h : machineAt out arch = machineAt out' arch) : out "one.img" = out' "one.img" ∧
      (arch = .x86 → out "os-image.bin" = out' "os-image.bin") := by
  cases arch with
  | x86 =>
    simp [machineAt] at h
    exact ⟨h.2, fun _ => h.1⟩
  | aarch32 =>
    simp [machineAt] at h
    exact ⟨h.2, by simp⟩

/-- The text of the set holds these paths and no others: it tells how each of
them is written, and nothing else about how names become paths. -/
theorem renderAt_inj (arch : Arch) (base out base' out' : String → String) (s : Settings) :
    renderAt base out arch s = renderAt base' out' arch s ↔
      (∀ name ∈ baseNames, base name = base' name) ∧
        ∀ name ∈ outNames arch, out name = out' name := by
  constructor
  · intro h
    simp only [renderAt, List.cons.injEq, GeneratedFile.mk.injEq, true_and, and_true] at h
    obtain ⟨hsync, hrun, -, hdebugger⟩ := h
    obtain ⟨hbase, himage, hout⟩ := syncAt_paths _ _ _ _ hsync
    have hwords := checkedChain_words _ _ _ _ hrun
    have hmachine := machineAt_paths arch out out' (List.cons.inj hwords).2
    have hkernel : out "base/boot/kernel.bin" = out' "base/boot/kernel.bin" := by
      simpa using hdebugger
    refine ⟨hbase, ?_⟩
    cases arch with
    | x86 => simp [outNames, himage, hout, hkernel, hmachine]
    | aarch32 => simp [outNames, himage, hout, hkernel]
  · rintro ⟨hbase, hout⟩
    simp only [baseNames, List.mem_cons, List.not_mem_nil, or_false, forall_eq_or_imp, forall_eq]
      at hbase
    obtain ⟨hdev, hproc, hmount, hboot, hmountProc, hbase⟩ := hbase
    have hsync : syncAt base out = syncAt base' out' := by
      cases arch <;> simp_all [syncAt, outNames]
    have hmachine : machineAt out arch = machineAt out' arch := by
      cases arch <;> simp_all [machineAt, outNames]
    have hkernel : out "base/boot/kernel.bin" = out' "base/boot/kernel.bin" := by
      cases arch <;> simp_all [outNames]
    simp only [renderAt, emulatorAt, hsync, hmachine, hkernel]

/-! ## How the paths are written -/

def below (dir name : String) : String := Path.dropSlash dir ++ "/" ++ name

theorem render_below (arch : Arch) (baseDir outDir : String) (s : Settings) :
    render arch baseDir outDir s = renderAt (below baseDir) (below outDir) arch s := by
  have hcopy : "/base to " = "/base" ++ " to " := rfl
  have hsync : sync (Path.dropSlash baseDir) (Path.dropSlash outDir) =
      syncAt (below baseDir) (below outDir) := by
    simp [sync, syncAt, below, Emulator.diskImagePath, String.append_assoc, hcopy]
  have hmachine : Emulator.machine arch (Path.dropSlash outDir) =
      machineAt (below outDir) arch := by
    cases arch <;> simp [Emulator.machine, machineAt, below, Emulator.diskImagePath,
      Emulator.floppyImagePath, Emulator.kernelPath, String.append_assoc]
  have hkernel : Emulator.kernelPath (Path.dropSlash outDir) =
      below outDir "base/boot/kernel.bin" := by
    simp [Emulator.kernelPath, below, String.append_assoc]
  simp only [render, renderAt, Emulator.ofArch, emulatorAt, debuggerFile, hsync, hmachine, hkernel]

def rooted (dir : String) : String := if dir = "" then "/" else dir

theorem below_rooted (dir name : String) (h : Path.isAbsolute name = false) :
    below dir name = Path.join (rooted dir) name := by
  by_cases hempty : dir = ""
  · subst hempty
    exact (Path.join_relative "/" name (by decide) h).symm
  · rw [rooted, if_neg hempty]
    exact (Path.join_relative dir name hempty h).symm

theorem below_join (dir name : String) (h : Path.isAbsolute name = false) :
    below dir name = Path.join dir name ↔ dir ≠ "" := by
  constructor
  · rintro hjoin rfl
    have hlength := congrArg String.length hjoin
    simp [below, Path.dropSlash, Path.join, h] at hlength
  · intro hdir
    rw [below_rooted dir name h, rooted, if_neg hdir]

theorem baseNames_relative : ∀ name ∈ baseNames, Path.isAbsolute name = false := by
  decide

theorem outNames_relative (arch : Arch) :
    ∀ name ∈ outNames arch, Path.isAbsolute name = false := by
  cases arch <;> decide

/-- The files mention the paths that joining a name to either directory gives,
as the files themselves are placed, exactly if neither directory is empty. -/
theorem render_joined_iff (arch : Arch) (baseDir outDir : String) (s : Settings) :
    (render arch baseDir outDir s = renderAt (Path.join baseDir) (Path.join outDir) arch s ↔
      baseDir ≠ "" ∧ outDir ≠ "") ∧
    (∀ name ∈ baseNames, below baseDir name = Path.join baseDir name ↔ baseDir ≠ "") ∧
    (∀ name ∈ outNames arch, below outDir name = Path.join outDir name ↔ outDir ≠ "") ∧
    render arch baseDir outDir s =
      renderAt (Path.join (rooted baseDir)) (Path.join (rooted outDir)) arch s := by
  have hbase := fun name hn => below_join baseDir name (baseNames_relative name hn)
  have hout := fun name hn => below_join outDir name (outNames_relative arch name hn)
  refine ⟨?_, hbase, hout, ?_⟩
  · rw [render_below, renderAt_inj]
    constructor
    · rintro ⟨hb, ho⟩
      have himage : "one.img" ∈ outNames arch := by cases arch <;> decide
      exact ⟨(hbase "base" (by decide)).1 (hb _ (by decide)),
        (hout "one.img" himage).1 (ho _ himage)⟩
    · rintro ⟨hb, ho⟩
      exact ⟨fun name hn => (hbase name hn).2 hb, fun name hn => (hout name hn).2 ho⟩
  · rw [render_below, renderAt_inj]
    exact ⟨fun name hn => below_rooted baseDir name (baseNames_relative name hn),
      fun name hn => below_rooted outDir name (outNames_relative arch name hn)⟩

/-- For an empty directory the files are placed in the working directory, but
the script mounts an image of the root. -/
theorem empty_directory_mounts_root :
    render .x86 "b" "" {} ≠ renderAt (Path.join "b") (Path.join "") .x86 {} ∧
    Path.join "" "sync.sh" = "sync.sh" ∧ Path.join "" "one.img" = "one.img" ∧
    ∃ file ∈ render .x86 "b" "" {}, file.name = "sync.sh" ∧
      ["sudo", "fuse-ext2", "/one.img", "b/mountpoint", "-o", "rw+"] ∈
        literalCommands file.contents := by
  refine ⟨?_, rfl, rfl, { name := "sync.sh", contents := (sync "b" "").render }, ?_, rfl, ?_⟩
  · rw [render_below, Ne, renderAt_inj]
    rintro ⟨-, hout⟩
    exact absurd (hout "one.img" (by decide)) (by decide)
  · exact List.mem_cons_self
  · exact sync_mounts "b" ""

end ScriptSet

end ImageTools
