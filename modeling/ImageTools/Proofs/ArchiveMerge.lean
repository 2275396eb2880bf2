import ImageTools.Merge
import ImageTools.Proofs.DirectiveFile

/-!
# Merging several libraries

An archiver runs at most once, and only when everything before it went well:
an ARM merge without a toolchain root and a directive file that cannot be
made both leave the host as it was. The directive that the archiver reads is
complete when it starts, and is taken away however the archiver ends.
-/

set_option autoImplicit false

namespace ImageTools.Merger
open FileSystem

/-! ## What is promised -/

def extraLibs : Arch → Settings → Option (List String)
  | .x86, _ => some []
  | .aarch32, s => s.toolchainRoot.map fun root =>
      [Path.join root (s.runtimeLib.getD Settings.defaultRuntimeLib)]

def directiveText (target : String) (inputs : List String) : String :=
  "CREATE " ++ target ++ "\n" ++
    String.join (inputs.map fun lib => "ADDLIB " ++ lib ++ "\n") ++ "SAVE\nEND\n"

def archiverCall (arch : Arch) (path : String) : Invocation where
  program := Archiver.defaultProgram arch
  args := ["-M"]
  input := some path

def reported (program : String) (inputs : Nat) :
    Except MergeError Outcome → Except MergeError Merged
  | .error e => .error e
  | .ok outcome =>
    if outcome.exitCode = some 0 then .ok (.archived program inputs)
    else .error (.toolFailed program outcome.exitCode (Text.trimEnd outcome.errors))

/-- A merge of `inputs` that ran its archiver on the directive file `path`. -/
structure RanArchiver (m : Merger) (arch : Arch) (target path : String) (inputs : List String)
    (h : Host) (created : FileSystem) (dir : Trail) (name : String)
    (merged : Except MergeError Merged × Host) : Prop where
  placed : ∃ k, path = Path.join
    (if Path.isAbsolute m.workDir then m.workDir else Path.join h.files.workDir m.workDir)
    (Directive.fileName (m.draw k))
  fresh : Fresh h.files created path (directiveText target inputs) dir name
  /-- One tool was started, and nothing has stopped it from reading the
  directive but a mask that hides new files from their owner. -/
  started : ∃ text, merged.2.started = h.started ++ [⟨archiverCall arch path, text⟩] ∧
    (created.mayRead h.files.nodes.size (h.files.masked 0o600) = true →
      text = some (directiveText target inputs))
  result : merged.1 = reported (Archiver.defaultProgram arch) inputs.length
    (m.runner (archiverCall arch path) created).1
  archived_iff : merged.1 = .ok (.archived (Archiver.defaultProgram arch) inputs.length) ↔
    ∃ outcome, (m.runner (archiverCall arch path) created).1 = .ok outcome ∧
      outcome.exitCode = some 0
  /-- Where the archiver left a way to the directive file, the file is gone and
  everything else is as the archiver left it. -/
  removed : ∀ after, (m.runner (archiverCall arch path) created).2 = after →
    after.parentOf path = .ok (dir, name) → after.owns dir.last = true →
    (∀ i, after.entry? dir.last name = some i → after.isDirectory i = false) →
      Dropped after merged.2.files dir.last name
  /-- It left one if it only wrote files and made new ones. -/
  removed_of_grows : Grows created (m.runner (archiverCall arch path) created).2 →
    Dropped (m.runner (archiverCall arch path) created).2 merged.2.files dir.last name

/-! ## The steps of a merge -/

theorem render_merge (target : String) (inputs : List String) :
    Directive.render (Directive.merge target inputs) = directiveText target inputs := by
  have hlines : (inputs.map Directive.Command.addLibrary).map (fun c => c.line ++ "\n") =
      inputs.map fun lib => "ADDLIB " ++ lib ++ "\n" := by
    rw [List.map_map]
    rfl
  rw [Directive.render, Directive.merge, List.map_append, List.map_cons, hlines, String.join_append,
    String.join_cons]
  rfl

theorem ofArch_extraLibs (arch : Arch) (s : Settings) :
    Archiver.ofArch arch s =
      match extraLibs arch s with
      | none => .error (.missingSetting "toolchain_root")
      | some libs => .ok { program := Archiver.defaultProgram arch, runtimeLibs := libs } := by
  cases arch with
  | x86 => rfl
  | aarch32 =>
    simp only [Archiver.ofArch, Settings.runtimeLibPath, extraLibs]
    cases s.toolchainRoot <;> rfl

theorem merge_several (m : Merger) (arch : Arch) (target first second : String)
    (more : List String) (h : Host) :
    m.merge arch.tag target (first :: second :: more) h =
      m.archive arch target (first :: second :: more) h := by
  simp [merge, Arch.require, Arch.ofTag?_tag]

theorem check_reported (program : String) (inputs : Nat) (ended : Except MergeError Outcome) :
    (do
      let outcome ← ended
      let _ ← outcome.check program
      .ok (Merged.archived program inputs)) = reported program inputs ended := by
  cases ended with
  | error e => rfl
  | ok outcome =>
    by_cases hc : outcome.exitCode = some 0
    · simp [Outcome.check, Outcome.success, reported, bind, Except.bind, hc]
    · simp [Outcome.check, Outcome.success, reported, bind, Except.bind, hc]

theorem reported_archived (program : String) (inputs : Nat) (ended : Except MergeError Outcome) :
    reported program inputs ended = .ok (.archived program inputs) ↔
      ∃ outcome, ended = .ok outcome ∧ outcome.exitCode = some 0 := by
  cases ended with
  | error e => simp [reported]
  | ok outcome =>
    by_cases hc : outcome.exitCode = some 0
    · simp [reported, hc]
    · simp [reported, hc]

theorem runArchiver_ran (m : Merger) (arch : Arch) (target path : String) (inputs : List String)
    (h : Host) (created : FileSystem)
    (hc : Directive.createFile h.files m.workDir (Directive.merge target inputs) m.draw =
      .ok (path, created)) :
    ∃ dir name, RanArchiver m arch target path inputs h created dir name
      (m.runArchiver (Archiver.defaultProgram arch) path inputs.length
        { h with files := created }) := by
  obtain ⟨hplaced, dir, name, hfresh⟩ := Directive.createFile_fresh h.files created _ path _ _ hc
  rw [render_merge] at hfresh
  exists dir, name
  have hresult := check_reported (Archiver.defaultProgram arch) inputs.length
    (m.runner (archiverCall arch path) created).1
  constructor
  case placed => exact hplaced
  case fresh => exact hfresh
  case started =>
    refine ⟨_, rfl, fun hr => ?_⟩
    simp [Host.inputText, hfresh.readText hr]
  case result => exact hresult
  case archived_iff =>
    have harchived := reported_archived (Archiver.defaultProgram arch) inputs.length
      (m.runner (archiverCall arch path) created).1
    rw [← hresult] at harchived
    exact harchived
  case removed =>
    rintro after rfl hp ho hd
    exact dropFile_drops _ path name dir hp ho hd
  case removed_of_grows => exact hfresh.dropped

/-- What is known of a merge of `inputs`: the directive file cannot be made, or
the archiver has run on it. -/
def Archives (m : Merger) (arch : Arch) (target : String) (inputs : List String) (h : Host)
    (merged : Except MergeError Merged × Host) : Prop :=
  match Directive.createFile h.files m.workDir (Directive.merge target inputs) m.draw with
  | .error e => merged = (.error (.system e), h)
  | .ok (path, created) =>
    ∃ dir name, RanArchiver m arch target path inputs h created dir name merged

theorem archive_archives (m : Merger) (arch : Arch) (target : String) (sources libs : List String)
    (h : Host) (hlibs : extraLibs arch m.settings = some libs) :
    Archives m arch target (sources ++ libs) h (m.archive arch target sources h) := by
  delta Archives
  simp only [archive, ofArch_extraLibs, hlibs]
  cases hc : Directive.createFile h.files m.workDir
      (Directive.merge target (sources ++ libs)) m.draw with
  | error e => rfl
  | ok p =>
    obtain ⟨path, created⟩ := p
    exact runArchiver_ran m arch target path _ h created hc

theorem Archives.ran {m : Merger} {arch : Arch} {target path : String} {inputs : List String}
    {h : Host} {created : FileSystem} {merged : Except MergeError Merged × Host}
    (ha : m.Archives arch target inputs h merged)
    (hc : Directive.createFile h.files m.workDir (Directive.merge target inputs) m.draw =
      .ok (path, created)) :
    ∃ dir name, RanArchiver m arch target path inputs h created dir name merged := by
  unfold Archives at ha
  rw [hc] at ha
  exact ha

/-- Every merge of two or more libraries ends in one of three ways: the
settings lack the toolchain root, the directive file cannot be made, or the
archiver has run. -/
theorem merge_several_cases (m : Merger) (arch : Arch) (target first second : String)
    (more : List String) (h : Host) :
    match extraLibs arch m.settings with
    | none => m.merge arch.tag target (first :: second :: more) h =
        (.error (.target (.missingSetting "toolchain_root")), h)
    | some libs =>
      let inputs := first :: second :: more ++ libs
      let merged := m.merge arch.tag target (first :: second :: more) h
      match Directive.createFile h.files m.workDir (Directive.merge target inputs) m.draw with
      | .error e => merged = (.error (.system e), h)
      | .ok (path, created) =>
        ∃ dir name, RanArchiver m arch target path inputs h created dir name merged := by
  rw [merge_several]
  cases hlibs : extraLibs arch m.settings with
  | none => simp only [archive, ofArch_extraLibs, hlibs]
  | some libs => exact archive_archives m arch target _ libs h hlibs

def idle (s : Settings) : Merger where
  settings := s
  runner := fun _ fs => (.ok ⟨some 0, "", ""⟩, fs)
  workDir := "/"
  draw := Directive.variablePart

/-- In an empty directory the first name is free. -/
theorem two_libraries_archived :
    let m := idle { toolchainRoot := some "/r", runtimeLib := some "c.a" }
    let host : Host := { files := .empty }
    let path := "/libmergerAAAAAA.mri"
    let text := "CREATE out.a\nADDLIB b.a\nADDLIB b.a\nADDLIB /r/c.a\nSAVE\nEND\n"
    let merged := m.merge "aarch32" "out.a" ["b.a", "b.a"] host
    merged.1 = .ok (.archived "arm-none-eabi-ar" 3) ∧
    merged.2.started = [⟨archiverCall .aarch32 path, some text⟩] ∧
    merged.2.files.entry? 0 "libmergerAAAAAA.mri" = none ∧
    ∃ created dir name, RanArchiver m .aarch32 "out.a" path ["b.a", "b.a", "/r/c.a"] host created
      dir name merged := by
  intro m host path text merged
  have hfree : ∃ created, Directive.createFile .empty "/"
      (Directive.merge "out.a" ["b.a", "b.a", "/r/c.a"]) Directive.variablePart =
        .ok ("/libmergerAAAAAA.mri", created) := ⟨_, rfl⟩
  obtain ⟨created, hfree⟩ := hfree
  have hmade : Directive.createFile host.files m.workDir
      (Directive.merge "out.a" ["b.a", "b.a", "/r/c.a"]) m.draw = .ok (path, created) := hfree
  have hlibs : extraLibs .aarch32 m.settings = some ["/r/c.a"] := by decide +kernel
  have hcases := merge_several_cases m .aarch32 "out.a" "b.a" "b.a" [] host
  simp only [hlibs, List.cons_append, List.nil_append, hmade] at hcases
  obtain ⟨dir, name, hran⟩ := hcases
  exact ⟨hran.archived_iff.2 ⟨_, rfl, rfl⟩, by decide +kernel, by decide +kernel, created, dir,
    name, hran⟩

end ImageTools.Merger
