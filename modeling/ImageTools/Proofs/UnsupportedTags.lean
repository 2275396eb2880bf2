import ImageTools.CommandLine.Run

/-!
# Unsupported tags

A tag that names no architecture is refused before anything is done for it:
nothing is printed, written or started, whatever else is wrong with the
command. Only a manifest that is of no use is reported in its place, because
the settings are read before the tag.
-/

set_option autoImplicit false

namespace ImageTools

theorem Arch.require_unsupported (tag : String) (hx86 : tag ≠ "x86") (harm : tag ≠ "aarch32") :
    Arch.require tag = .error (.unsupportedArchitecture tag) := by
  have hnone : Arch.ofTag? tag = none := by
    cases h : Arch.ofTag? tag with
    | none => rfl
    | some arch =>
      have htag := (Arch.ofTag?_eq_some tag arch).1 h
      cases arch with
      | x86 => exact absurd htag hx86
      | aarch32 => exact absurd htag harm
  simp [Arch.require, hnone]

theorem Merger.merge_refused (m : Merger) (tag target : String) (sources : List String) (h : Host)
    (e : TargetError) (he : Arch.require tag = .error e) :
    m.merge tag target sources h = (.error (.target e), h) := by
  simp [Merger.merge, he]

theorem ScriptSet.generate_refused (tag baseDir outDir : String) (s : Settings) (fs : FileSystem)
    (e : TargetError) (he : Arch.require tag = .error e) :
    ScriptSet.generate tag baseDir outDir s fs = (.error (.target e), fs) := by
  simp [ScriptSet.generate, he]

namespace CommandLine

def Command.tag? : Command → Option String
  | .mergeLibs tag _ _ => some tag
  | .buildScripts tag _ _ _ => some tag
  | .listArchs => none
  | .describeArch tag => some tag
  | .doctor tag => tag

def Command.attempt : Command → List String
  | .mergeLibs _ target sources =>
    ["merging " ++ toString sources.length ++ " archive(s) into " ++ target]
  | .buildScripts _ _ outDir _ => ["generating scripts in " ++ outDir]
  | .listArchs | .describeArch _ | .doctor _ => []

/-- The error that ends a command with an unsupported tag, outermost text first. -/
def refusal (env : Environment) (flags : Manifest.Flags) (fs : FileSystem) (command : Command)
    (tag : String) : List String :=
  match Manifest.resolve fs fs.workDir flags env with
  | .error e => e.chain
  | .ok _ => command.attempt ++ [TargetError.message (.unsupportedArchitecture tag)]

section Refused

variable (sur : Surroundings) (s : Settings) (tag : String) (h : Host)
variable (hreq : Arch.require tag = .error (.unsupportedArchitecture tag))

include hreq

theorem runMergeLibs_refused (target : String) (sources : List String) :
    runMergeLibs sur s tag target sources h =
      (fail ((Command.mergeLibs tag target sources).attempt ++
        [TargetError.message (.unsupportedArchitecture tag)]), h) := by
  simp [runMergeLibs, Merger.merge_refused _ tag target sources h _ hreq, Command.attempt,
    MergeError.chain, TargetError.chain]

theorem runBuildScripts_refused (baseDir outDir : String) (executable : Bool) :
    runBuildScripts s tag baseDir outDir executable h =
      (fail ((Command.buildScripts tag baseDir outDir executable).attempt ++
        [TargetError.message (.unsupportedArchitecture tag)]), h) := by
  simp [runBuildScripts, ScriptSet.generate_refused tag baseDir outDir s h.files _ hreq,
    Command.attempt, ScriptError.chain, TargetError.chain]

theorem runDescribe_refused :
    runDescribe s tag = fail [TargetError.message (.unsupportedArchitecture tag)] := by
  simp [runDescribe, hreq, TargetError.chain]

theorem runDoctor_refused (resolved : Manifest.Resolved) :
    runDoctor sur resolved (some tag) h =
      (fail [TargetError.message (.unsupportedArchitecture tag)], h) := by
  have hmap : (some tag).mapM Arch.require = .error (.unsupportedArchitecture tag) := by
    rw [Option.mapM_some, hreq]
    rfl
  simp [runDoctor, hmap, TargetError.chain]

theorem runCommand_refused (flags : Manifest.Flags) (command : Command)
    (htag : command.tag? = some tag) :
    runCommand sur flags h command =
      (fail (refusal sur.env flags h.files command tag), h) := by
  cases hres : Manifest.resolve h.files h.files.workDir flags sur.env with
  | error e =>
    have hwith (use : Manifest.Resolved → Report × Host) :
        withSettings sur flags h use = (fail e.chain, h) := by simp [withSettings, hres]
    have hrefusal : refusal sur.env flags h.files command tag = e.chain := by
      simp [refusal, hres]
    cases command with
    | listArchs => simp [Command.tag?] at htag
    | _ => simp only [runCommand, hwith, hrefusal]
  | ok resolved =>
    have hwith (use : Manifest.Resolved → Report × Host) :
        withSettings sur flags h use = use resolved := by simp [withSettings, hres]
    have hrefusal : refusal sur.env flags h.files command tag =
        command.attempt ++ [TargetError.message (.unsupportedArchitecture tag)] := by
      simp [refusal, hres]
    rw [hrefusal]
    cases command with
    | mergeLibs named target sources =>
      obtain rfl : named = tag := by simpa [Command.tag?] using htag
      simp only [runCommand, hwith, runMergeLibs_refused sur _ named h hreq]
    | buildScripts named baseDir outDir executable =>
      obtain rfl : named = tag := by simpa [Command.tag?] using htag
      simp only [runCommand, hwith, runBuildScripts_refused _ named h hreq]
    | listArchs => simp [Command.tag?] at htag
    | describeArch named =>
      obtain rfl : named = tag := by simpa [Command.tag?] using htag
      simp only [runCommand, hwith, runDescribe_refused _ named hreq, Command.attempt,
        List.nil_append]
    | doctor named =>
      obtain rfl : named = some tag := by simpa [Command.tag?] using htag
      simp only [runCommand, hwith, runDoctor_refused sur tag h hreq, Command.attempt,
        List.nil_append]

end Refused

/-- An unsupported tag has no effect. Every command line that names one ends
with status 1 and no output, having started no tool and changed no file, and
merging and generating report the tag before any other error. -/
theorem unsupported_tag_no_effect (tag : String) (hx86 : tag ≠ "x86") (harm : tag ≠ "aarch32") :
    (∀ (sur : Surroundings) (words : List String) (h : Host) (flags : Manifest.Flags)
        (command : Command),
      read words = .run flags command → command.tag? = some tag →
      run sur words h = (.ended 1 "" ("error: " ++
        ": ".intercalate (refusal sur.env flags h.files command tag) ++ "\n"), h)) ∧
    (∀ (m : Merger) (target : String) (sources : List String) (h : Host),
      m.merge tag target sources h = (.error (.target (.unsupportedArchitecture tag)), h)) ∧
    (∀ (baseDir outDir : String) (s : Settings) (fs : FileSystem),
      ScriptSet.generate tag baseDir outDir s fs =
        (.error (.target (.unsupportedArchitecture tag)), fs)) := by
  have hreq := Arch.require_unsupported tag hx86 harm
  refine ⟨?_, ?_, ?_⟩
  · intro sur words h flags command hread htag
    simp only [run, hread]
    exact runCommand_refused sur tag h hreq flags command htag
  · intro m target sources h
    exact m.merge_refused tag target sources h _ hreq
  · intro baseDir outDir s fs
    exact ScriptSet.generate_refused tag baseDir outDir s fs _ hreq

/-- A merge for an architecture that is not known, where there is nothing to merge. -/
theorem mips_tag_no_effect :
    "mips" ≠ "x86" ∧ "mips" ≠ "aarch32" ∧
    run { env := fun _ => none, runner := fun _ fs => (.error .noSources, fs), draw := toString }
        ["merge-libs", "mips", "out.a", "a.a", "b.a"] { files := .empty } =
      (.ended 1 "" ("error: merging 2 archive(s) into out.a: " ++
        "unsupported architecture: 'mips' (supported: x86, aarch32)\n"), { files := .empty }) := by
  have hread : read ["merge-libs", "mips", "out.a", "a.a", "b.a"] =
      .run {} (.mergeLibs "mips" "out.a" ["a.a", "b.a"]) := by decide +kernel
  have hrefusal : refusal (fun _ => none) {} .empty (.mergeLibs "mips" "out.a" ["a.a", "b.a"])
      "mips" = ["merging 2 archive(s) into out.a",
        "unsupported architecture: 'mips' (supported: x86, aarch32)"] := by decide +kernel
  refine ⟨by decide, by decide, ?_⟩
  have hrun := (unsupported_tag_no_effect "mips" (by decide) (by decide)).1
    { env := fun _ => none, runner := fun _ fs => (.error .noSources, fs), draw := toString }
    _ { files := .empty } {} _ hread rfl
  rw [hrun, hrefusal]
  decide +kernel

end CommandLine

end ImageTools
