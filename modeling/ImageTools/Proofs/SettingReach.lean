import ImageTools.Main
import ImageTools.Proofs.SettingFlags

/-!
# Which command a setting reaches

Two calls of the program that differ in one setting are compared, whatever
tools they find. The emulator does not reach the merging of archives, and the
toolchain root reaches neither the scripts nor a merge that needs no runtime
library. A tool inherits the program's variables, so it may read a setting
that the program does not; up to the start of the tool, and from its end on if
it has done the same, the two runs cannot be told apart.
-/

set_option autoImplicit false

namespace ImageTools

/-! ## Settings that are the same but for one -/

namespace Setting

def variableName : Setting → String
  | .toolchainRoot => Settings.rootVariable
  | .emulator => Settings.emulatorVariable

def value : Setting → Settings → Option String
  | .toolchainRoot => Settings.toolchainRoot
  | .emulator => Settings.emulator

theorem other_variableName_ne (x : Setting) : x.other.variableName ≠ x.variableName := by
  cases x <;> decide

structure AgreeBut (x : Setting) (s s' : Settings) : Prop where
  other : x.other.value s = x.other.value s'
  runtimeLib : s.runtimeLib = s'.runtimeLib

theorem value_layered (x : Setting) (s : Settings) (flags : Manifest.Flags) (env : Environment) :
    x.value ((s.withEnvironment env).withFlags flags.toolchainRoot flags.emulator) =
      (x.flag flags <|> Settings.nonEmpty? env x.variableName <|> x.value s) := by
  cases x <;> rfl

/-- The layers of one setting do not mix with those of the other. -/
theorem AgreeBut.layered {x : Setting} {s : Settings} {flags flags' : Manifest.Flags}
    {env env' : Environment} (hflag : x.other.flag flags = x.other.flag flags')
    (henv : ∀ name, name ≠ x.variableName → env name = env' name) :
    x.AgreeBut ((s.withEnvironment env).withFlags flags.toolchainRoot flags.emulator)
      ((s.withEnvironment env').withFlags flags'.toolchainRoot flags'.emulator) := by
  refine ⟨?_, rfl⟩
  simp only [value_layered, Settings.nonEmpty?, hflag,
    henv x.other.variableName x.other_variableName_ne]

def ResolvedBut (x : Setting) (r r' : Except Manifest.LoadError Manifest.Resolved) : Prop :=
  (∃ e, r = .error e ∧ r' = .error e) ∨
  ∃ s s' manifest, x.AgreeBut s s' ∧
    r = .ok { settings := s, manifest := manifest } ∧
    r' = .ok { settings := s', manifest := manifest }

theorem resolvedBut {x : Setting} (fs : FileSystem) (start : String)
    {flags flags' : Manifest.Flags} {env env' : Environment}
    (hflag : x.other.flag flags = x.other.flag flags')
    (henv : ∀ name, name ≠ x.variableName → env name = env' name) :
    x.ResolvedBut (Manifest.resolve fs start flags env)
      (Manifest.resolve fs start flags' env') := by
  simp only [Manifest.resolve]
  cases Manifest.find fs start with
  | none => exact Or.inr ⟨_, _, _, .layered hflag henv, rfl, rfl⟩
  | some path =>
    simp only
    cases Manifest.load fs path with
    | error e => exact Or.inl ⟨_, rfl, rfl⟩
    | ok s => exact Or.inr ⟨_, _, _, .layered hflag henv, rfl, rfl⟩

/-! ## What a command reads of its settings -/

theorem archiver_emulator {s s' : Settings} (arch : Arch) (h : Setting.emulator.AgreeBut s s') :
    Archiver.ofArch arch s = Archiver.ofArch arch s' := by
  have hroot : s.toolchainRoot = s'.toolchainRoot := h.other
  cases arch with
  | x86 => rfl
  | aarch32 => simp only [Archiver.ofArch, Settings.runtimeLibPath, hroot, h.runtimeLib]

theorem render_toolchainRoot {s s' : Settings} (arch : Arch) (baseDir outDir : String)
    (h : Setting.toolchainRoot.AgreeBut s s') :
    ScriptSet.render arch baseDir outDir s = ScriptSet.render arch baseDir outDir s' := by
  have hemulator : s.emulator = s'.emulator := h.other
  simp only [ScriptSet.render, Emulator.ofArch, hemulator]

end Setting

/-! ## Runs that are alike up to what their tool does -/

abbrev Ran (α : Type) : Type := Runner → α × Host

def Host.record (p : Invocation × FileSystem) : Start :=
  { invocation := p.1, text := Host.inputText p.2 p.1 }

/-- Both runs start one tool, or none: with the same words, on the same files
and with the same text to read, whatever the tools do. If the tool does the
same in both, so started, the runs end alike. -/
def Alike {α : Type} (ran ran' : Ran α) (before : List Start) : Prop :=
  ∃ point : Option (Invocation × FileSystem), ∀ tools tools' : Runner,
    (ran tools).2.started = before ++ (point.map Host.record).toList ∧
    (ran' tools').2.started = before ++ (point.map Host.record).toList ∧
    ((∀ p ∈ point, tools p.1 p.2 = tools' p.1 p.2) → ran tools = ran' tools')

namespace Alike

variable {α β : Type} {before : List Start}

theorem const (a : α) (h : Host) : Alike (fun _ => (a, h)) (fun _ => (a, h)) h.started :=
  ⟨none, fun _ _ => ⟨by simp, by simp, fun _ => rfl⟩⟩

/-- What is made of the result alone cannot tell the runs apart. -/
theorem map {ran ran' : Ran α} (f : α → β) (h : Alike ran ran' before) :
    Alike (fun tools => ((f (ran tools).1, (ran tools).2) : β × Host))
      (fun tools => (f (ran' tools).1, (ran' tools).2)) before := by
  obtain ⟨point, hpoint⟩ := h
  refine ⟨point, fun tools tools' => ?_⟩
  obtain ⟨hstarted, hstarted', hsame⟩ := hpoint tools tools'
  exact ⟨hstarted, hstarted', fun htool => by simp only [hsame htool]⟩

end Alike

namespace Merger

variable (workDir : String) (draw : Nat → String)

theorem runArchiver_alike (s s' : Settings) (program path : String) (inputs : Nat) (h : Host) :
    Alike
      (fun tools => runArchiver ⟨s, tools, workDir, draw⟩ program path inputs h)
      (fun tools => runArchiver ⟨s', tools, workDir, draw⟩ program path inputs h) h.started := by
  -- The point is the only start of a tool in a merge, on the files with the directive.
  refine ⟨some ({ program := program, args := ["-M"], input := some path }, h.files), ?_⟩
  intro tools tools'
  refine ⟨rfl, rfl, fun htool => ?_⟩
  have hsame := htool _ rfl
  simp only [runArchiver, Host.start, hsame]

theorem archive_alike {s s' : Settings} (arch : Arch) (target : String) (sources : List String)
    (h : Host) (hs : Archiver.ofArch arch s = Archiver.ofArch arch s') :
    Alike
      (fun tools => archive ⟨s, tools, workDir, draw⟩ arch target sources h)
      (fun tools => archive ⟨s', tools, workDir, draw⟩ arch target sources h) h.started := by
  simp only [archive, hs]
  cases Archiver.ofArch arch s' with
  | error e => exact .const _ h
  | ok archiver =>
    simp only
    cases Directive.createFile h.files workDir
        (Directive.merge target (sources ++ archiver.runtimeLibs)) draw with
    | error e => exact .const _ h
    | ok created =>
      exact runArchiver_alike workDir draw s s' archiver.program created.1
        (sources ++ archiver.runtimeLibs).length { h with files := created.2 }

/-- Only the archiver's tool and libraries come from the settings. -/
theorem merge_alike {s s' : Settings} (tag target : String) (sources : List String) (h : Host)
    (hs : ∀ arch, Arch.require tag = .ok arch →
      Archiver.ofArch arch s = Archiver.ofArch arch s') :
    Alike
      (fun tools => merge ⟨s, tools, workDir, draw⟩ tag target sources h)
      (fun tools => merge ⟨s', tools, workDir, draw⟩ tag target sources h) h.started := by
  simp only [merge]
  cases harch : Arch.require tag with
  | error e => exact .const _ h
  | ok arch =>
    match sources with
    | [] => exact .const _ h
    | [source] => exact .const _ { h with files := (copySingle h.files source target).2 }
    | first :: second :: rest =>
      exact archive_alike workDir draw arch target (first :: second :: rest) h (hs arch harch)

theorem merge_one (m m' : Merger) (tag target source : String) (h : Host) :
    m.merge tag target [source] h = m'.merge tag target [source] h := by
  simp only [merge]

end Merger

/-! ## Two calls of the program -/

def Merger.report (target : String) (sources : List String) :
    Except MergeError Merged → CommandLine.Report
  | .ok _ => CommandLine.succeed []
  | .error e =>
    CommandLine.fail
      (("merging " ++ toString sources.length ++ " archive(s) into " ++ target) :: e.chain)

theorem CommandLine.runMergeLibs_report (sur : CommandLine.Surroundings) (s : Settings)
    (tag target : String) (sources : List String) (h : Host) :
    CommandLine.runMergeLibs sur s tag target sources h =
      let (merged, h) :=
        (Merger.mk s sur.runner h.files.workDir sur.draw).merge tag target sources h
      (Merger.report target sources merged, h) := by
  simp only [CommandLine.runMergeLibs]
  rcases Merger.merge _ tag target sources h with ⟨_ | _, _⟩ <;> rfl

theorem CommandLine.runMergeLibs_one (sur sur' : CommandLine.Surroundings) (s s' : Settings)
    (tag target source : String) (h : Host) :
    CommandLine.runMergeLibs sur s tag target [source] h =
      CommandLine.runMergeLibs sur' s' tag target [source] h := by
  rw [runMergeLibs_report, runMergeLibs_report,
    Merger.merge_one _ (Merger.mk s' sur'.runner h.files.workDir sur'.draw)]

structure Call where
  env : Environment
  words : List String

namespace Call

open CommandLine (Command Report)

def run (c : Call) (draw : Nat → String) (h : Host) : Ran Report := fun tools =>
  CommandLine.run { env := c.env, runner := tools, draw := draw } c.words h

def For (c : Call) (command : Command) : Prop :=
  ∃ flags, CommandLine.read c.words = .run flags command

def Accepted (c : Call) : Prop := ∃ command, c.For command

structure DifferIn (x : Setting) (a b : Call) : Prop where
  env : ∀ name, name ≠ x.variableName → a.env name = b.env name
  words : CommandLine.withoutFlag x.flagName a.words = CommandLine.withoutFlag x.flagName b.words

variable {x : Setting} {command : Command} {a b : Call}

/-- Without the flag the words are the same, so both calls are for one command. -/
theorem DifferIn.read (hd : DifferIn x a b) (ha : a.For command) (hb : b.Accepted) :
    ∃ flags flags', CommandLine.read a.words = .run flags command ∧
      CommandLine.read b.words = .run flags' command ∧ x.other.flag flags = x.other.flag flags' := by
  obtain ⟨flags, hread⟩ := ha
  obtain ⟨command', flags', hread'⟩ := hb
  have hwithout := CommandLine.read_without x hread
  rw [hd.words, CommandLine.read_without x hread'] at hwithout
  obtain ⟨hclear, rfl⟩ := CommandLine.Request.run.inj hwithout
  have hflag (flags : Manifest.Flags) : x.other.flag (x.clear flags) = x.other.flag flags := by
    cases x <;> rfl
  refine ⟨flags, flags', hread, hread', ?_⟩
  rw [← hflag flags, ← hclear, hflag flags']

variable (draw : Nat → String) (h : Host)

/-- A command that needs settings ends at once in both calls, with one report,
or goes on in both with settings that agree. -/
theorem DifferIn.run_cases (hd : DifferIn x a b) (ha : a.For command) (hb : b.Accepted)
    (use : Manifest.Resolved → Ran Report)
    (huse : ∀ env tools flags,
      CommandLine.runCommand { env := env, runner := tools, draw := draw } flags h command =
        CommandLine.withSettings { env := env, runner := tools, draw := draw } flags h
          (use · tools)) :
    (∃ report, a.run draw h = (fun _ => (report, h)) ∧ b.run draw h = fun _ => (report, h)) ∨
    ∃ s s' manifest, x.AgreeBut s s' ∧
      a.run draw h = use { settings := s, manifest := manifest } ∧
      b.run draw h = use { settings := s', manifest := manifest } := by
  obtain ⟨flags, flags', hread, hread', hflag⟩ := hd.read ha hb
  unfold run
  simp only [CommandLine.run, hread, hread', huse, CommandLine.withSettings]
  rcases Setting.resolvedBut h.files h.files.workDir hflag hd.env with
    ⟨e, he, he'⟩ | ⟨s, s', manifest, hagree, hr, hr'⟩
  · exact Or.inl ⟨CommandLine.fail e.chain, by simp only [he], by simp only [he']⟩
  · exact Or.inr ⟨s, s', manifest, hagree, by simp only [hr], by simp only [hr']⟩

theorem DifferIn.merges_alike {tag target : String} {sources : List String}
    (hd : DifferIn x a b) (ha : a.For (.mergeLibs tag target sources)) (hb : b.Accepted)
    (hs : ∀ s s' arch, x.AgreeBut s s' → Arch.require tag = .ok arch →
      Archiver.ofArch arch s = Archiver.ofArch arch s') :
    Alike (a.run draw h) (b.run draw h) h.started := by
  rcases hd.run_cases draw h ha hb
      (fun resolved tools => CommandLine.runMergeLibs
        { env := a.env, runner := tools, draw := draw } resolved.settings tag target sources h)
      (fun _ _ _ => rfl) with ⟨report, ha, hb⟩ | ⟨s, s', manifest, hagree, ha, hb⟩
  · rw [ha, hb]
    exact .const report h
  · rw [ha, hb]
    simp only [CommandLine.runMergeLibs_report]
    exact (Merger.merge_alike h.files.workDir draw tag target sources h
      (fun arch => hs s s' arch hagree)).map (Merger.report target sources)

/-- A command that leaves the tools alone and has no use for the setting. -/
theorem DifferIn.runs_equal (hd : DifferIn x a b) (ha : a.For command) (hb : b.Accepted)
    (use : Settings → Report × Host)
    (huse : ∀ env tools flags,
      CommandLine.runCommand { env := env, runner := tools, draw := draw } flags h command =
        CommandLine.withSettings { env := env, runner := tools, draw := draw } flags h
          fun resolved => use resolved.settings)
    (hs : ∀ s s', x.AgreeBut s s' → use s = use s') (tools tools' : Runner) :
    a.run draw h tools = b.run draw h tools' := by
  rcases hd.run_cases draw h ha hb (fun resolved _ => use resolved.settings) huse with
    ⟨report, ha, hb⟩ | ⟨s, s', manifest, hagree, ha, hb⟩
  · rw [ha, hb]
  · rw [ha, hb]
    exact hs s s' hagree

/-- Each setting reaches the commands it belongs to. The emulator has no part
in a merge, and the toolchain root has none in the scripts, nor in a merge for
x86. The merge of one source is a copy, which takes no setting and no tool. -/
theorem settings_reach_own_commands (a b : Call) (draw : Nat → String) (h : Host)
    (hb : b.Accepted) :
    (∀ tag target sources, a.For (.mergeLibs tag target sources) → DifferIn .emulator a b →
      Alike (a.run draw h) (b.run draw h) h.started) ∧
    (∀ tag baseDir outDir executable, a.For (.buildScripts tag baseDir outDir executable) →
      DifferIn .toolchainRoot a b → ∀ tools tools', a.run draw h tools = b.run draw h tools') ∧
    (∀ target sources, a.For (.mergeLibs Arch.x86.tag target sources) →
      DifferIn .toolchainRoot a b → Alike (a.run draw h) (b.run draw h) h.started) ∧
    (∀ x tag target source, a.For (.mergeLibs tag target [source]) → DifferIn x a b →
      ∀ tools tools', a.run draw h tools = b.run draw h tools') := by
  refine ⟨?_, ?_, ?_, ?_⟩
  · intro tag target sources ha hd
    exact hd.merges_alike draw h ha hb fun s s' arch hagree _ =>
      Setting.archiver_emulator arch hagree
  · intro tag baseDir outDir executable ha hd
    refine hd.runs_equal draw h ha hb
      (CommandLine.runBuildScripts · tag baseDir outDir executable h) (fun _ _ _ => rfl)
      fun s s' hagree => ?_
    have hgenerate : ScriptSet.generate tag baseDir outDir s h.files =
        ScriptSet.generate tag baseDir outDir s' h.files := by
      simp only [ScriptSet.generate, Setting.render_toolchainRoot _ baseDir outDir hagree]
    simp only [CommandLine.runBuildScripts, hgenerate]
  · intro target sources ha hd
    refine hd.merges_alike draw h ha hb fun s s' arch _ harch => ?_
    obtain rfl : Arch.x86 = arch := by simpa [Arch.require, Arch.ofTag?_tag] using harch
    rfl
  · intro x tag target source ha hd
    refine hd.runs_equal draw h ha hb (fun _ => CommandLine.runMergeLibs
      { env := a.env, runner := fun _ fs => (.error .noSources, fs), draw := draw } {} tag target
      [source] h) (fun env tools flags => ?_) fun _ _ _ => rfl
    have hone (resolved : Manifest.Resolved) := CommandLine.runMergeLibs_one
      { env := env, runner := tools, draw := draw }
      { env := a.env, runner := fun _ fs => (.error .noSources, fs), draw := draw }
      resolved.settings {} tag target source h
    simp only [CommandLine.runCommand, hone]

/-! ## Calls that differ -/

def plain (words : List String) : Call := { env := fun _ => none, words := words }

def given (x : Setting) (value : String) (words : List String) : Call :=
  { env := fun name => if name = x.variableName then some value else none, words := words }

theorem differIn_given (x : Setting) (value : String) {words words' : List String}
    (hwords : CommandLine.withoutFlag x.flagName words =
      CommandLine.withoutFlag x.flagName words') :
    DifferIn x (plain words) (given x value words') where
  env := fun name hne => by simp [plain, given, hne]
  words := hwords

def armMerge : Call := plain ["merge-libs", "aarch32", "out.a", "a.a", "b.a"]

def flaggedMerge : Call :=
  given .emulator "qemu" ["merge-libs", "aarch32", "--emulator=other", "out.a", "a.a", "b.a"]

def armScripts : Call := plain ["build-scripts", "aarch32", "base", "out"]

def flaggedScripts : Call :=
  given .toolchainRoot "/tc" ["--toolchain-root", "/opt", "build-scripts", "aarch32", "base", "out"]

def x86Merge : Call := plain ["merge-libs", "x86", "out.a", "a.a", "b.a"]

def rootedMerge : Call := given .toolchainRoot "/tc" x86Merge.words

def armCopy : Call := plain ["merge-libs", "aarch32", "out.a", "a.a"]

def rootedCopy : Call := given .toolchainRoot "/tc" armCopy.words

theorem differing_calls_alike :
    (DifferIn .emulator armMerge flaggedMerge ∧
      Alike (armMerge.run toString { files := .empty })
        (flaggedMerge.run toString { files := .empty }) []) ∧
    (DifferIn .toolchainRoot armScripts flaggedScripts ∧
      ∀ tools tools', armScripts.run toString { files := .empty } tools =
        flaggedScripts.run toString { files := .empty } tools') ∧
    (DifferIn .toolchainRoot x86Merge rootedMerge ∧
      Alike (x86Merge.run toString { files := .empty })
        (rootedMerge.run toString { files := .empty }) []) ∧
    (DifferIn .toolchainRoot armCopy rootedCopy ∧
      ∀ tools tools', armCopy.run toString { files := .empty } tools =
        rootedCopy.run toString { files := .empty } tools') := by
  have hmerge : armMerge.For (.mergeLibs "aarch32" "out.a" ["a.a", "b.a"]) :=
    ⟨{}, by decide +kernel⟩
  have hflagged : flaggedMerge.Accepted :=
    ⟨.mergeLibs "aarch32" "out.a" ["a.a", "b.a"], { emulator := some "other" }, by decide +kernel⟩
  have hscripts : armScripts.For (.buildScripts "aarch32" "base" "out" false) :=
    ⟨{}, by decide +kernel⟩
  have hflagged' : flaggedScripts.Accepted :=
    ⟨.buildScripts "aarch32" "base" "out" false, { toolchainRoot := some "/opt" },
      by decide +kernel⟩
  have hx86 : x86Merge.For (.mergeLibs "x86" "out.a" ["a.a", "b.a"]) := ⟨{}, by decide +kernel⟩
  have hrooted : rootedMerge.Accepted :=
    ⟨.mergeLibs "x86" "out.a" ["a.a", "b.a"], {}, by decide +kernel⟩
  have hcopy : armCopy.For (.mergeLibs "aarch32" "out.a" ["a.a"]) := ⟨{}, by decide +kernel⟩
  have hrooted' : rootedCopy.Accepted :=
    ⟨.mergeLibs "aarch32" "out.a" ["a.a"], {}, by decide +kernel⟩
  have hd : DifferIn .emulator armMerge flaggedMerge :=
    differIn_given .emulator "qemu" (by decide +kernel)
  have hdScripts : DifferIn .toolchainRoot armScripts flaggedScripts :=
    differIn_given .toolchainRoot "/tc" (by decide +kernel)
  have hdX86 : DifferIn .toolchainRoot x86Merge rootedMerge :=
    differIn_given .toolchainRoot "/tc" rfl
  have hdCopy : DifferIn .toolchainRoot armCopy rootedCopy :=
    differIn_given .toolchainRoot "/tc" rfl
  refine ⟨⟨hd, ?_⟩, ⟨hdScripts, ?_⟩, ⟨hdX86, ?_⟩, ⟨hdCopy, ?_⟩⟩
  · exact (settings_reach_own_commands _ _ toString { files := .empty } hflagged).1
      _ _ _ hmerge hd
  · exact (settings_reach_own_commands _ _ toString { files := .empty } hflagged').2.1
      _ _ _ _ hscripts hdScripts
  · exact (settings_reach_own_commands _ _ toString { files := .empty } hrooted).2.2.1
      _ _ hx86 hdX86
  · exact (settings_reach_own_commands _ _ toString { files := .empty } hrooted').2.2.2
      _ _ _ _ hcopy hdCopy

def toolsIn (searchPath : List String) (env : Environment) : Runner :=
  Tool.runner searchPath
    (Program.passedOn (env Settings.rootVariable) (env Settings.emulatorVariable))

def obedientArchiver : Host where
  files :=
    { nodes := #[.directory [("bin", 1), ("sh", 2)], .directory [("i686-elf-ar", 3)],
        .file 0o755 (Tool.Native.image .shell),
        .file 0o755 "#!/sh\nexit $XOS_EMULATOR_PATH\n".toUTF8]
      workDir := "/" }

def numberedMerge : Call := given .emulator "7" x86Merge.words

/-- The tool of a merge may read the emulator setting, though the merge does not. -/
theorem archiver_reads_emulator :
    x86Merge.For (.mergeLibs "x86" "out.a" ["a.a", "b.a"]) ∧ numberedMerge.Accepted ∧
    DifferIn .emulator x86Merge numberedMerge ∧
    (x86Merge.run toString obedientArchiver (toolsIn ["bin"] x86Merge.env)).1 = .ended 0 "" "" ∧
    (numberedMerge.run toString obedientArchiver (toolsIn ["bin"] numberedMerge.env)).1 =
      .ended 1 "" ("error: merging 2 archive(s) into out.a: " ++
        "i686-elf-ar failed (exit code 7): \n") := by
  have hx86 : x86Merge.For (.mergeLibs "x86" "out.a" ["a.a", "b.a"]) := ⟨{}, by decide +kernel⟩
  exact ⟨hx86, ⟨_, hx86⟩, differIn_given .emulator "7" rfl, by decide +kernel, by decide +kernel⟩

end Call

end ImageTools
