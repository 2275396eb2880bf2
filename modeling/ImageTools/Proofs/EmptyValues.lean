import ImageTools.Proofs.EmulatorLine
import ImageTools.Proofs.ManifestKeys
import ImageTools.Proofs.SettingReach

/-!
# Empty values

An empty value counts as none given where it comes from a flag, which refuses
it, or from a variable, which is then passed over. A manifest is taken at its
word. So a setting is the empty path exactly if the nearest manifest says so
and no layer above it says anything. Then libraries for ARM are merged with one
that is looked for in the working directory, and the scripts name no emulator.
-/

set_option autoImplicit false

namespace ImageTools

/-! ## Flags -/

def Manifest.Flags.Filled (flags : Manifest.Flags) : Prop :=
  ∀ x : Setting, x.flag flags ≠ some ""

namespace CommandLine

def Given.Filled (given : Given) : Prop :=
  ∀ x : Setting, given.values.lookup x.flagName ≠ some ""

def Scan.Filled : Scan → Prop
  | .finished given => given.Filled
  | .command given _ _ _ => given.Filled
  | _ => True

theorem given_nothing : ({} : Given).Filled := fun _ => nofun

theorem Scan.IsBare.filled {scan : Scan} (h : scan.IsBare) : scan.Filled := by
  cases scan with
  | finished s => exact h.elim
  | command given unchecked n r => exact h.elim
  | _ => trivial

namespace Grammar

variable {g : Grammar} {given s : Given}

theorem accept?_filled {n v : String} (h : g.accept? given n v = some s) (hg : given.Filled) :
    s.Filled := by
  intro x hx
  unfold accept? at h
  split at h
  · rename_i kind hkind
    split at h
    · rename_i haccepted
      cases h
      rw [List.lookup_append, Option.or_eq_some_iff] at hx
      rcases hx with hx | ⟨-, hx⟩
      · exact hg x hx
      · rw [List.lookup_cons] at hx
        split at hx
        · rename_i hname
          obtain rfl : x.flagName = n := by simpa using hname
          rw [kindOf?_flagName] at hkind
          cases hkind
          cases hx
          simp [Kind.accepts] at haccepted
        · cases hx
    · cases h
  · cases h

theorem settle?_filled {unchecked : Option (String × String)}
    (h : g.settle? given unchecked = some s) (hg : given.Filled) : s.Filled := by
  cases unchecked with
  | none =>
    cases h
    exact hg
  | some value => exact accept?_filled h hg

theorem addOperand?_filled {w : String} (h : g.addOperand? given w = some s) (hg : given.Filled) :
    s.Filled := by
  unfold addOperand? at h
  split at h
  · split at h
    · cases h
      exact hg
    · cases h
  · cases h

theorem longFlag_filled {n : String} (h : g.longFlag given n = .inl s) (hg : given.Filled) :
    s.Filled := by
  unfold longFlag at h
  split at h
  · cases h
  split at h
  · cases h
  split at h
  · cases h
    exact hg
  split at h
  · cases h
    exact hg
  · cases h

theorem finish_filled (hg : given.Filled) : (g.finish given).Filled := by
  unfold finish
  split
  · exact hg
  · trivial

theorem scanOperands_filled (hg : given.Filled) (r : List String) :
    (g.scanOperands given r).Filled := by
  induction r generalizing given with
  | nil => exact finish_filled hg
  | cons w r ih =>
    rw [scanOperands]
    split
    · rename_i next hnext
      exact ih (addOperand?_filled hnext hg)
    · trivial

theorem scan_filled (given : Given) (unchecked : Option (String × String)) (words : List String)
    (hg : given.Filled) : (g.scan given unchecked words).Filled := by
  fun_induction Grammar.scan g given unchecked words with
  | case1 given unchecked s hs => exact finish_filled (settle?_filled hs hg)
  | case2 => trivial
  | case3 => exact hg
  | case4 => trivial
  | case5 given unchecked w r hw s hs => exact scanOperands_filled (settle?_filled hs hg) r
  | case6 given unchecked w r hw s hs n v hform next hnext ih =>
    exact ih (accept?_filled hnext (settle?_filled hs hg))
  | case7 => trivial
  | case8 given unchecked w hw s hs n hform kind hk v r hv ih => exact ih (settle?_filled hs hg)
  | case9 => trivial
  | case10 => trivial
  | case11 given unchecked w r hw s hs n hform hk next hnext ih =>
    exact ih (longFlag_filled hnext (settle?_filled hs hg))
  | case12 given unchecked w r hw s hs n hform hk scan hscan => exact (longFlag_bare hscan).filled
  | case13 given unchecked w r hw s hs letters hform scan hscan => exact (cluster_bare hscan).filled
  | case14 given unchecked w r hw s hs letters hform hcluster ih => exact ih (settle?_filled hs hg)
  | case15 given unchecked w r hw s hs hform next hnext ih =>
    exact ih (addOperand?_filled hnext (settle?_filled hs hg))
  | case16 => trivial

end Grammar

section

variable {above flags : Manifest.Flags} {command : Command}

theorem layer_filled {given : Given} (ha : above.Filled) (hg : given.Filled) :
    (layer above given).Filled := by
  intro x
  have hlayer : x.flag (layer above given) =
      (given.values.lookup x.flagName <|> x.flag above) := by
    cases x <;> rfl
  rw [hlayer]
  cases hvalue : given.values.lookup x.flagName with
  | none => exact ha x
  | some v =>
    have hgiven := hg x
    rwa [hvalue] at hgiven

theorem readLeaf_filled {g : Grammar} {words : List String} {command? : Given → Option Command}
    (ha : above.Filled) (h : readLeaf g above words command? = .run flags command) :
    flags.Filled := by
  have hscan := Grammar.scan_filled (g := g) {} none words given_nothing
  unfold readLeaf at h
  split at h
  · cases h
  · cases h
  · cases h
  · cases h
  · rename_i given hfinished
    rw [hfinished] at hscan
    split at h
    · cases h
      exact layer_filled ha hscan
    · cases h

theorem within_filled {g : Grammar} {given : Given} {unchecked : Option (String × String)}
    {deeper : Manifest.Flags → Request} (ha : above.Filled) (hg : given.Filled)
    (hdeeper : ∀ above : Manifest.Flags, above.Filled → deeper above = .run flags command →
      flags.Filled)
    (h : within g above given unchecked deeper = .run flags command) : flags.Filled := by
  unfold within at h
  split at h
  · rename_i s hsettled
    exact hdeeper _ (layer_filled ha (Grammar.settle?_filled hsettled hg)) h
  · split at h <;> cases h

theorem readArch_filled {words : List String} (ha : above.Filled)
    (h : readArch above words = .run flags command) : flags.Filled := by
  have hscan := Grammar.scan_filled (g := arch) {} none words given_nothing
  unfold readArch at h
  split at h
  · cases h
  · cases h
  · cases h
  · cases h
  · rename_i given unchecked name rest hfound
    rw [hfound] at hscan
    split at h
    · exact absurd h (readHelp_ne_run _ _ _ _)
    · refine within_filled ha hscan (fun above ha hdeeper => ?_) h
      split at hdeeper <;> exact readLeaf_filled ha hdeeper

theorem readCommand_filled {name : String} {rest : List String} (ha : above.Filled)
    (h : readCommand name rest above = .run flags command) : flags.Filled := by
  unfold readCommand at h
  split at h
  · exact readLeaf_filled ha h
  split at h
  · exact readLeaf_filled ha h
  split at h
  · exact readArch_filled ha h
  · exact readLeaf_filled ha h

/-- A command line that is accepted has no empty flag. -/
theorem read_filled {words : List String} (h : read words = .run flags command) :
    flags.Filled := by
  have hscan := Grammar.scan_filled (g := top) {} none words given_nothing
  have hnone : ({} : Manifest.Flags).Filled := fun x => by cases x <;> exact nofun
  unfold read at h
  split at h
  · cases h
  · cases h
  · cases h
  · cases h
  · rename_i given unchecked name rest hfound
    rw [hfound] at hscan
    split at h
    · exact absurd h (readHelp_ne_run _ _ _ _)
    · exact within_filled hnone hscan (fun _ ha => readCommand_filled ha) h

end

end CommandLine

/-! ## Variables and manifests -/

namespace Setting

def header : Setting → String
  | .toolchainRoot => "toolchain"
  | .emulator => "emulator"

def key : Setting → String
  | .toolchainRoot => "root"
  | .emulator => "path"

/-- The layers above the manifest say nothing about the setting. -/
def LeftToManifest (x : Setting) (flags : Manifest.Flags) (env : Environment) : Prop :=
  x.flag flags = none ∧ (env x.variableName = none ∨ env x.variableName = some "")

theorem layered_iff (x : Setting) (s : Settings) (flags : Manifest.Flags) (env : Environment)
    (v : Option String) :
    x.value ((s.withEnvironment env).withFlags flags.toolchainRoot flags.emulator) = v ↔
      Manifest.Chosen (x.flag flags) (env x.variableName) (x.value s) v := by
  rw [value_layered, Settings.nonEmpty?, Manifest.chosen_iff]

/-- A setting that is missing or empty is so by the manifest. -/
theorem layered_unset (x : Setting) (s : Settings) {flags : Manifest.Flags} (env : Environment)
    (hflags : flags.Filled) {v : Option String} (hv : v = none ∨ v = some "") :
    x.value ((s.withEnvironment env).withFlags flags.toolchainRoot flags.emulator) = v ↔
      x.LeftToManifest flags env ∧ x.value s = v := by
  rw [layered_iff]
  constructor
  · intro h
    cases h with
    | byFlag hflag =>
      rcases hv with hv | hv
      · cases hv
      · exact absurd (hflag.trans hv) (hflags x)
    | byVariable hflag hvariable hne =>
      rcases hv with hv | hv
      · cases hv
      · exact absurd (Option.some.inj hv) hne
    | byManifest hflag hvariable => exact ⟨⟨hflag, hvariable⟩, rfl⟩
  · rintro ⟨⟨hflag, hvariable⟩, rfl⟩
    exact .byManifest hflag hvariable

end Setting

namespace Manifest

def Writes (fs : FileSystem) (start header name : String) (k : Nat) (text : String) : Prop :=
  ∃ path content es, Nearest fs start path ∧ fs.readText path = .ok content ∧
    Toml.expressionsOf? content = some es ∧ Sets es header name k text

inductive Base (fs : FileSystem) (start : String) : Settings → Prop
  | missing : find fs start = none → Base fs start {}
  | given {path : String} {s : Settings} : find fs start = some path → Gives fs path s →
      Base fs start s

section

variable {fs : FileSystem} {start : String} {flags : Flags} {env : Environment}

theorem resolve_base {r : Resolved} (h : resolve fs start flags env = .ok r) :
    ∃ s, Base fs start s ∧
      r.settings = (s.withEnvironment env).withFlags flags.toolchainRoot flags.emulator := by
  unfold resolve at h
  cases hfind : find fs start with
  | none =>
    simp only [hfind] at h
    cases h
    exact ⟨{}, .missing hfind, rfl⟩
  | some path =>
    simp only [hfind] at h
    rcases broken_or_gives fs path with ⟨e, hbroken⟩ | ⟨s, hgives⟩
    · simp only [load_broken fs path e hbroken] at h
      cases h
    · simp only [load_gives fs path s hgives] at h
      cases h
      exact ⟨s, .given hfind hgives, rfl⟩

theorem not_writes_missing (h : find fs start = none) (header name : String) (k : Nat)
    (v : String) : ¬Writes fs start header name k v := by
  rintro ⟨path, -, -, hnearest, -⟩
  rw [← find_nearest, h] at hnearest
  cases hnearest

theorem writes_iff {path content : String} {es : List Toml.Expression}
    (hfind : find fs start = some path) (hread : fs.readText path = .ok content)
    (hes : Toml.expressionsOf? content = some es) (header name : String) (k : Nat) (v : String) :
    Writes fs start header name k v ↔ Sets es header name k v := by
  constructor
  · rintro ⟨path', content', es', hnearest, hread', hes', hsets⟩
    obtain rfl := Option.some.inj (hfind.symm.trans ((find_nearest fs start path').2 hnearest))
    obtain rfl := Except.ok.inj (hread.symm.trans hread')
    obtain rfl := Option.some.inj (hes.symm.trans hes')
    exact hsets
  · exact fun hsets => ⟨path, content, es, (find_nearest fs start path).1 hfind, hread, hes, hsets⟩

/-- What the lowest layer has is what the nearest manifest sets. -/
theorem Base.writes {s : Settings} (h : Base fs start s) :
    (∀ (x : Setting) (v : String), x.value s = some v ↔ Writes fs start x.header x.key 0 v) ∧
    ∀ v, s.runtimeLib = some v ↔ Writes fs start "toolchain" "runtime-lib" 1 v := by
  cases h with
  | missing hfind =>
    have hnone := not_writes_missing hfind
    exact ⟨fun x v => by cases x <;> exact iff_of_false nofun (hnone _ _ _ v),
      fun v => iff_of_false nofun (hnone _ _ _ v)⟩
  | @given path s hfind hgives =>
    obtain ⟨text, document, hread, hparse, hsettings⟩ := hgives
    obtain ⟨es, hes, -⟩ := Option.bind_eq_some_iff.1 (Toml.parse_expressions text ▸ hparse)
    obtain ⟨toolchain, emulator, htoolchain, hemulator, hroot, hlib, hprogram⟩ :=
      settings?_fields document s hsettings
    have hwrites := writes_iff hfind hread hes
    refine ⟨fun x v => ?_, fun v => ?_⟩
    · cases x with
      | toolchainRoot =>
        exact (hroot ▸ fields_sets hes hparse rfl htoolchain v).trans (hwrites _ _ _ v).symm
      | emulator =>
        exact (hprogram ▸ fields_sets hes hparse rfl hemulator v).trans (hwrites _ _ _ v).symm
    · exact (hlib ▸ fields_sets hes hparse rfl htoolchain v).trans (hwrites _ _ _ v).symm

end

/-- An empty variable is resolved as one that is not set. -/
theorem resolve_variables (fs : FileSystem) (start : String) (flags : Flags) (env : Environment) :
    resolve fs start flags env =
      resolve fs start flags (fun name => (env name).filter (· ≠ "")) := by
  have hvalues : ∀ name,
      Settings.nonEmpty? (fun name => (env name).filter (· ≠ "")) name =
        Settings.nonEmpty? env name := by
    intro name
    simp only [Settings.nonEmpty?, Option.filter_filter, Bool.and_self]
  simp only [resolve, Settings.withEnvironment, hvalues]

end Manifest

/-! ## What an empty setting leads to -/

theorem Path.join_nothing (name : String) : Path.join "" name = name := by
  unfold Path.join
  split <;> simp

namespace Merger

variable {m : Merger} {target : String} {inputs : List String} {h : Host}

theorem Archives.ne_refused {arch : Arch} {merged : Except MergeError Merged × Host}
    (ha : m.Archives arch target inputs h merged) (e : TargetError) :
    merged ≠ (.error (.target e), h) := by
  rintro rfl
  unfold Archives at ha
  split at ha
  · cases ha
  · obtain ⟨dir, name, hran⟩ := ha
    obtain ⟨text, hstarted, -⟩ := hran.started
    simp at hstarted

theorem merge_missingRoot (hroot : m.settings.toolchainRoot = none) (target first second : String)
    (more : List String) (h : Host) :
    m.merge Arch.aarch32.tag target (first :: second :: more) h =
      (.error (.target (.missingSetting "toolchain_root")), h) := by
  rw [merge_several]
  simp only [archive, ofArch_extraLibs, extraLibs, hroot, Option.map_none]

/-- With an empty root the library is looked for in the working directory. -/
theorem merge_emptyRoot (hroot : m.settings.toolchainRoot = some "")
    (target first second : String) (more : List String) (h : Host) :
    m.Archives .aarch32 target
      (first :: second :: more ++ [m.settings.runtimeLib.getD Settings.defaultRuntimeLib]) h
      (m.merge Arch.aarch32.tag target (first :: second :: more) h) := by
  rw [merge_several]
  refine archive_archives m .aarch32 target _ _ h ?_
  rw [extraLibs, hroot, Option.map_some, Path.join_nothing]

end Merger

namespace Script
open Shell

def programWord? (contents : String) : Option String :=
  (tokenLines contents)[headerHeight]?.bind fun line => line.head?.bind Token.text?

theorem programWord_checked (program : String) (args : List String) (message : String) :
    programWord? (ScriptSet.checkedChain [(program :: args, message)]).render = some program := by
  rw [programWord?, firstLine_render _ (.command (program :: args)) [.abortOnFailure message] rfl]
  exact text_wordToken program

end Script

theorem Emulator.program_eq_empty_iff (arch : Arch) (out : String) (s : Settings) :
    (Emulator.ofArch arch out s).program = "" ↔ s.emulator = some "" := by
  have hdefault : Emulator.defaultProgram arch ≠ "" := by
    cases arch <;> decide
  rw [Emulator.ofArch]
  cases s.emulator <;> simp [hdefault]

namespace Manifest
open Script

/-! ## All layers -/

/-- No layer has a toolchain root other than the empty one. -/
def Rootless (fs : FileSystem) (start : String) (flags : Flags) (env : Environment) : Prop :=
  ∀ v, v ≠ "" → flags.toolchainRoot ≠ some v ∧ env Settings.rootVariable ≠ some v ∧
    ¬Writes fs start "toolchain" "root" 0 v

theorem Rootless.leftToManifest {fs : FileSystem} {start : String} {flags : Flags}
    {env : Environment} (h : Rootless fs start flags env) (hflags : flags.Filled) :
    Setting.toolchainRoot.LeftToManifest flags env := by
  constructor
  · show flags.toolchainRoot = none
    rw [Option.eq_none_iff_forall_ne_some]
    intro v hv
    by_cases hempty : v = ""
    · exact hflags .toolchainRoot (hempty ▸ hv)
    · exact (h v hempty).1 hv
  · show env Settings.rootVariable = none ∨ env Settings.rootVariable = some ""
    cases hvariable : env Settings.rootVariable with
    | none => exact Or.inl rfl
    | some v =>
      by_cases hempty : v = ""
      · exact Or.inr (by rw [hempty])
      · exact absurd hvariable (h v hempty).2.1

section

variable {fs : FileSystem} {start : String} {flags : Flags} {env : Environment} {r : Resolved}

theorem resolved_empty (hflags : flags.Filled) (hr : resolve fs start flags env = .ok r)
    (x : Setting) : x.value r.settings = some "" ↔
      x.LeftToManifest flags env ∧ Writes fs start x.header x.key 0 "" := by
  obtain ⟨s, hbase, hs⟩ := resolve_base hr
  rw [hs, x.layered_unset s env hflags (Or.inr rfl), hbase.writes.1]

theorem resolved_runtimeLib (hr : resolve fs start flags env = .ok r) (v : String) :
    r.settings.runtimeLib = some v ↔ Writes fs start "toolchain" "runtime-lib" 1 v := by
  obtain ⟨s, hbase, hs⟩ := resolve_base hr
  rw [hs]
  exact hbase.writes.2 v

/-- Without a root in any layer, the root is missing unless the manifest has an empty one. -/
theorem resolved_rootless (h : Rootless fs start flags env) (hflags : flags.Filled)
    (hr : resolve fs start flags env = .ok r) :
    r.settings.toolchainRoot = none ↔ ¬Writes fs start "toolchain" "root" 0 "" := by
  obtain ⟨s, hbase, hs⟩ := resolve_base hr
  have hwrites := hbase.writes.1 .toolchainRoot
  show Setting.toolchainRoot.value r.settings = none ↔ _
  rw [hs, Setting.toolchainRoot.layered_unset s env hflags (Or.inl rfl),
    Option.eq_none_iff_forall_ne_some]
  constructor
  · rintro ⟨-, hnone⟩ hempty
    exact hnone "" ((hwrites "").2 hempty)
  · refine fun hempty => ⟨h.leftToManifest hflags, fun v hv => ?_⟩
    have hwritten := (hwrites v).1 hv
    by_cases hv : v = ""
    · exact hempty (hv ▸ hwritten)
    · exact (h v hv).2.2 hwritten

end

/-- Nothing but the manifest makes a setting empty. If it does so, and only then, a
merge for ARM goes on without a toolchain root, and the scripts have an empty word
in the place of the emulator. -/
theorem empty_only_by_manifest (fs : FileSystem) (start : String) (flags : Flags)
    (env : Environment) :
    (∀ words command, CommandLine.read words = .run flags command → flags.Filled) ∧
    resolve fs start flags env =
      resolve fs start flags (fun name => (env name).filter (· ≠ "")) ∧
    ∀ r, flags.Filled → resolve fs start flags env = .ok r →
      (∀ x : Setting, x.value r.settings = some "" ↔
        x.LeftToManifest flags env ∧ Writes fs start x.header x.key 0 "") ∧
      (r.settings.runtimeLib = some "" ↔ Writes fs start "toolchain" "runtime-lib" 1 "") ∧
      (Rootless fs start flags env → ∀ m : Merger, m.settings = r.settings →
        ∀ (target first second : String) (more : List String) (h : Host),
          (m.merge Arch.aarch32.tag target (first :: second :: more) h =
              (.error (.target (.missingSetting "toolchain_root")), h) ↔
            ¬Writes fs start "toolchain" "root" 0 "") ∧
          (Writes fs start "toolchain" "root" 0 "" →
            m.Archives .aarch32 target (first :: second :: more ++
              [r.settings.runtimeLib.getD Settings.defaultRuntimeLib]) h
              (m.merge Arch.aarch32.tag target (first :: second :: more) h))) ∧
      ∀ (arch : Arch) (baseDir outDir : String), ∃ sync build run debug rest,
        ScriptSet.render arch baseDir outDir r.settings =
          sync :: build :: run :: debug :: rest ∧
        run.name = "run.sh" ∧ debug.name = "debug.sh" ∧
        ∃ program, programWord? run.contents = some program ∧
          programWord? debug.contents = some program ∧
          (program = "" ↔ Setting.emulator.LeftToManifest flags env ∧
            Writes fs start "emulator" "path" 0 "") := by
  refine ⟨fun _ _ => CommandLine.read_filled, resolve_variables fs start flags env,
    fun r hflags hr => ?_⟩
  have hempty := resolved_empty hflags hr
  refine ⟨hempty, resolved_runtimeLib hr "", ?_, fun arch baseDir outDir => ?_⟩
  · rintro hrootless m hm target first second more h
    have hgoesOn : Writes fs start "toolchain" "root" 0 "" →
        m.Archives .aarch32 target (first :: second :: more ++
          [r.settings.runtimeLib.getD Settings.defaultRuntimeLib]) h
          (m.merge Arch.aarch32.tag target (first :: second :: more) h) := by
      intro hwrites
      have hroot : r.settings.toolchainRoot = some "" :=
        (hempty .toolchainRoot).2 ⟨hrootless.leftToManifest hflags, hwrites⟩
      rw [← hm] at hroot ⊢
      exact Merger.merge_emptyRoot hroot target first second more h
    refine ⟨⟨fun hrefused hwrites => (hgoesOn hwrites).ne_refused _ hrefused, ?_⟩, hgoesOn⟩
    intro hwrites
    have hroot := (resolved_rootless hrootless hflags hr).2 hwrites
    exact Merger.merge_missingRoot (hm ▸ hroot) target first second more h
  · refine ⟨_, _, _, _, _, rfl, rfl, rfl, _, programWord_checked _ _ _,
      programWord_checked _ _ _, ?_⟩
    exact (Emulator.program_eq_empty_iff arch _ r.settings).trans (hempty .emulator)

def emptyText : String :=
  "[toolchain]\nroot = \"\"\nruntime-lib = \"\"\n[emulator]\npath = \"\"\n"

def emptied : Settings where
  toolchainRoot := some ""
  runtimeLib := some ""
  emulator := some ""

theorem emptyText_gives : Gives (manifestHost emptyText) "/xos-build.toml" emptied := by
  have hread : (manifestHost emptyText).read "/xos-build.toml" = .ok emptyText.toUTF8 := rfl
  have hes : Toml.expressionsOf? emptyText = some [.header ["toolchain"],
      .entry ["root"] (.string ""), .entry ["runtime-lib"] (.string ""),
      .header ["emulator"], .entry ["path"] (.string "")] := rfl
  have hdocument : Toml.parse emptyText = some [
      ("toolchain", .table .header [("root", .string ""), ("runtime-lib", .string "")]),
      ("emulator", .table .header [("path", .string "")])] := by
    rw [Toml.parse_expressions, hes]
    rfl
  exact ⟨_, _, FileSystem.readText_of_read _ _ _ hread, hdocument, rfl⟩

theorem emptyText_found : find (manifestHost emptyText) "/" = some "/xos-build.toml" := by
  decide +kernel

theorem emptyText_resolved (flags : Flags) (env : Environment) :
    resolve (manifestHost emptyText) "/" flags env =
      .ok ⟨(emptied.withEnvironment env).withFlags flags.toolchainRoot flags.emulator,
        some "/xos-build.toml"⟩ := by
  simp only [resolve, emptyText_found, load_gives _ _ _ emptyText_gives]

theorem emptyText_writes (v : String) :
    Writes (manifestHost emptyText) "/" "toolchain" "root" 0 v ↔ v = "" := by
  have hbase : Base (manifestHost emptyText) "/" emptied := .given emptyText_found emptyText_gives
  refine (hbase.writes.1 .toolchainRoot v).symm.trans ?_
  exact ⟨fun h => (Option.some.inj h).symm, fun h => h ▸ rfl⟩

def idleArchiver : Runner := fun _ fs => (.ok ⟨some 0, "", ""⟩, fs)

def emptyMerger (s : Settings) : Merger where
  settings := s
  runner := idleArchiver
  workDir := "/"
  draw := toString

/-- With the emulator by a flag, and with empty variables, the root alone is empty. -/
theorem emptied_root_left :
    let flags : Flags := { emulator := some "/q" }
    let env : Environment := fun _ => some ""
    let s := { emptied with emulator := some "/q" }
    let host : Host := { files := manifestHost emptyText }
    CommandLine.read ["--emulator=/q", "arch", "list"] = .run flags .listArchs ∧
    resolve host.files "/" flags env = .ok ⟨s, some "/xos-build.toml"⟩ ∧
    Rootless host.files "/" flags env ∧
    Setting.toolchainRoot.value s = some "" ∧ Setting.emulator.value s ≠ some "" ∧
    (emptyMerger s).Archives .aarch32 "out.a" ["a.a", "b.a", ""] host
      ((emptyMerger s).merge "aarch32" "out.a" ["a.a", "b.a"] host) := by
  intro flags env s host
  obtain ⟨hread, -, hlayers⟩ := empty_only_by_manifest host.files "/" flags env
  have haccepted : CommandLine.read ["--emulator=/q", "arch", "list"] = .run flags .listArchs := by
    decide +kernel
  have hr : resolve host.files "/" flags env = .ok ⟨s, some "/xos-build.toml"⟩ :=
    emptyText_resolved flags env
  have hrootless : Rootless host.files "/" flags env :=
    fun v hv => ⟨nofun, fun h => hv (Option.some.inj h).symm, (emptyText_writes v).not.2 hv⟩
  have hwrites := (emptyText_writes "").2 rfl
  obtain ⟨hempty, -, hmerge, -⟩ := hlayers _ (hread _ _ haccepted) hr
  refine ⟨haccepted, hr, hrootless, ?_, ?_, ?_⟩
  · exact (hempty .toolchainRoot).2 ⟨⟨rfl, Or.inr rfl⟩, hwrites⟩
  · exact fun h => nomatch ((hempty .emulator).1 h).1.1
  · exact (hmerge hrootless (emptyMerger s) rfl "out.a" "a.a" "b.a" [] host).2 hwrites

/-- Without flags and variables the empty texts are the settings: a merge starts the
archiver, and the scripts run the empty word. -/
theorem empty_texts_taken :
    resolve (manifestHost emptyText) "/" {} (fun _ => none) =
      .ok ⟨emptied, some "/xos-build.toml"⟩ ∧
    ((emptyMerger emptied).merge "aarch32" "out.a" ["a.a", "b.a"]
        { files := manifestHost emptyText }).2.started.map
          (fun start => (start.invocation.program, start.text)) =
      [("arm-none-eabi-ar",
        some "CREATE out.a\nADDLIB a.a\nADDLIB b.a\nADDLIB \nSAVE\nEND\n")] ∧
    ∃ sync build run rest,
      ScriptSet.render .x86 "b" "o" emptied = sync :: build :: run :: rest ∧
      run.name = "run.sh" ∧ programWord? run.contents = some "" :=
  ⟨emptyText_resolved _ _, by decide +kernel, _, _, _, _, rfl, rfl, programWord_checked _ _ _⟩

end Manifest

end ImageTools
