import ImageTools.Proofs.WordExpansion
import ImageTools.Proofs.Opening

/-!
# Simple commands in the shell

What `echo`, `[`, `exit` and programs do to the shell that runs them: they
leave a status, and nothing else but the system changes. Programs may do
anything to the files and end in any way, but they leave the shell its output
and send it no signals, and `[` still stands for itself among the files.
-/

set_option autoImplicit false

namespace ImageTools.Shell
open Trace

/-! ## The output -/

def Takes (s : System) (c : Nat) : Prop :=
  ∃ channel, s.channel? c = some channel ∧ channel.use.writes = true ∧ channel.target ≠ .full

/-- What a shell relies on in the system that it shares is still there. -/
structure Keeps (process : Nat) (s s' : System) : Prop where
  signals : s.signalsTo process = [] → s'.signalsTo process = []
  output : ∀ c, Takes s c → Takes s' c
  bracket : Bracketed s.files → Bracketed s'.files

theorem Keeps.refl (process : Nat) (s : System) : Keeps process s s := ⟨id, fun _ => id, id⟩

theorem Keeps.trans {process : Nat} {a b c : System} (h : Keeps process a b)
    (h' : Keeps process b c) : Keeps process a c :=
  ⟨h'.signals ∘ h.signals, fun c => h'.output c ∘ h.output c, h'.bracket ∘ h.bracket⟩

theorem namesIn_alike (fs fs' : FileSystem) (h : FileSystem.Alike fs fs') (dir : String) :
    namesIn fs' dir = namesIn fs dir := by
  have hresolve : fs'.resolve (Text.gather dir) = fs.resolve (Text.gather dir) := by
    rw [FileSystem.resolve, FileSystem.reach_alike fs fs' h, FileSystem.resolve]
  unfold namesIn
  rw [hresolve]
  cases fs.resolve (Text.gather dir) with
  | error e => rfl
  | ok t => rcases h.nodes t.last with hn | ⟨⟨_, _, hn⟩, _, _, hn'⟩ <;> simp [*]

theorem bracketed_alike (fs fs' : FileSystem) (h : FileSystem.Alike fs fs') (hb : Bracketed fs) :
    Bracketed fs' := by
  have hpaths : ∀ fs, fittingPaths fs false "" (splitSlashes bracket.unescape) =
      (fittingNames bracket (namesIn fs ".")).map ("" ++ ·) := fun _ => rfl
  unfold Bracketed pathsOf at hb ⊢
  rwa [hpaths, namesIn_alike fs fs' h, ← hpaths]

theorem takes_setTarget (s : System) (c d : Nat) (target : Channel.Target) (h : Takes s c)
    (ht : target ≠ .full) : Takes (s.setTarget d target) c := by
  obtain ⟨channel, hc, hw, hfull⟩ := h
  unfold System.setTarget
  cases hd : s.channel? d with
  | none => exact ⟨channel, hc, hw, hfull⟩
  | some other =>
    by_cases heq : c = d
    · subst heq
      obtain rfl := Option.some.inj (hd.symm.trans hc)
      have hsize : c < s.channels.size := by
        rw [System.channel?, Array.getElem?_eq_some_iff] at hc
        exact hc.1
      exact ⟨{ other with target := target }, by simp [System.channel?, hsize], hw, ht⟩
    · exact ⟨channel, by simpa [System.channel?, Ne.symm heq] using hc, hw, hfull⟩

theorem write_keeps (process : Nat) (s s' : System) (c : Nat) (bytes : ByteArray)
    (h : s.write c bytes = .ok s') : Keeps process s s' := by
  have htarget : ∀ target files, target ≠ .full → FileSystem.Alike s.files files →
      Keeps process s ({ s with files := files }.setTarget c target) := by
    intro target files ht halike
    have hsame : (System.setTarget { s with files := files } c target).signals = s.signals ∧
        (System.setTarget { s with files := files } c target).files = files := by
      unfold System.setTarget
      split <;> exact ⟨rfl, rfl⟩
    constructor
    · rw [System.signalsTo, System.signalsTo, hsame.1]
      exact id
    · exact fun d hd => takes_setTarget { s with files := files } d c target hd ht
    · rw [hsame.2]
      exact bracketed_alike _ _ halike
  have halike : FileSystem.Alike s.files s.files := ⟨rfl, fun _ => Or.inl rfl⟩
  unfold System.write at h
  split at h
  · cases h
  · split at h
    · cases h
    · split at h
      · obtain rfl := Except.ok.inj h
        exact .refl process s
      · split at h
        · obtain rfl := Except.ok.inj h
          exact .refl process s
        · cases h
        · obtain rfl := Except.ok.inj h
          exact htarget _ s.files (by simp) halike
        · split at h
          · obtain rfl := Except.ok.inj h
            exact htarget _ _ (by simp) (FileSystem.alike_fillNode _ _ _)
          · obtain rfl := Except.ok.inj h
            exact .refl process s

theorem write_ok (s : System) (c : Nat) (bytes : ByteArray) (h : Takes s c) :
    ∃ s', s.write c bytes = .ok s' := by
  obtain ⟨channel, hc, hw, ht⟩ := h
  unfold System.write
  simp only [hc, hw, Bool.not_true, Bool.false_eq_true, if_false]
  split
  · exact ⟨s, rfl⟩
  · split
    · exact ⟨_, rfl⟩
    · rename_i hfull
      exact absurd hfull ht
    · exact ⟨_, rfl⟩
    · split <;> exact ⟨_, rfl⟩

namespace Action

theorem write_runs (own : Descriptors) (s : System) (process descriptor : Nat)
    (bytes : List UInt8) :
    ∃ b s', (∀ m : Machine, m.own = own → m.system = s →
        write descriptor bytes m = (.ok b, { m with system := s' })) ∧ Keeps process s s' ∧
      ((∃ c, own.get? descriptor = some c ∧ Takes s c) → b = true) := by
  cases hc : own.get? descriptor with
  | none =>
    refine ⟨bytes.isEmpty, s, ?_, .refl _ _, by simp⟩
    rintro m rfl rfl
    unfold write
    rw [get_bind, hc]
    rfl
  | some c =>
    cases hw : s.write c (ByteArray.mk bytes.toArray) with
    | ok s' =>
      refine ⟨true, s', ?_, write_keeps _ _ _ _ _ hw, by simp⟩
      rintro m rfl rfl
      unfold write
      simp only [get_bind, hc, hw]
      rfl
    | error e =>
      refine ⟨false, s, ?_, .refl _ _, ?_⟩
      · rintro m rfl rfl
        unfold write
        simp only [get_bind, hc, hw]
        rfl
      · rintro ⟨d, hd, htakes⟩
        obtain rfl := Option.some.inj hd
        obtain ⟨s', hs⟩ := write_ok s c (ByteArray.mk bytes.toArray) htakes
        rw [hs] at hw
        cases hw

theorem printError_runs (m : Machine) (text : String) :
    ∃ s, printError text m = (.ok (), { m with system := s }) ∧ Keeps m.self m.system s := by
  obtain ⟨b, s, hrun, hkeeps, -⟩ := write_runs m.own m.system m.self 2 (Text.bytesOf text)
  exact ⟨s, bind_ok _ _ m _ b (hrun m rfl rfl), hkeeps⟩

theorem complain_runs (m : Machine) (text : String) :
    ∃ s, complain text m = (.ok (), { m with system := s }) ∧ Keeps m.self m.system s := by
  obtain ⟨s, hrun, hkeeps⟩ := printError_runs m (complaintHead m ++ text ++ "\n")
  exact ⟨s, (bind_ok _ _ m m m rfl).trans hrun, hkeeps⟩

theorem inFrame_congr {α : Type} (x y : Action α) (m : Machine)
    (h : x { m with frames := [] :: m.frames } = y { m with frames := [] :: m.frames }) :
    inFrame x m = inFrame y m := by
  unfold inFrame
  rw [modify_bind, modify_bind, run_afterwards, run_afterwards, h]

/-- A frame in which nothing is saved changes nothing. -/
theorem inFrame_unsaved {α : Type} (x : Action α) (m m' : Machine) (result : Except Jump α)
    (h : x { m with frames := [] :: m.frames } = (result, { m' with frames := [] :: m.frames })) :
    inFrame x m = (result, { m' with frames := m.frames }) := by
  unfold inFrame
  rw [modify_bind, run_afterwards, h]
  rfl

theorem print_runs (own : Descriptors) (s : System) (process : Nat) (text : String)
    (h : ∃ c, own.get? 1 = some c ∧ Takes s c) :
    ∃ s', (∀ m : Machine, m.own = own → m.system = s →
        print text m = (.ok (), { m with system := s' })) ∧ Keeps process s s' := by
  obtain ⟨b, s', hrun, hkeeps, hb⟩ := write_runs own s process 1 (Text.bytesOf text)
  obtain rfl := hb h
  exact ⟨s', fun m ho hs => (bind_ok _ _ m _ true (hrun m ho hs)).trans rfl, hkeeps⟩

end Action

namespace Builtin

section
variable (e : Evaluator) (place : Place) (fatal : Bool) (name : String) (args : List String)
  (m m' : Machine)

theorem call_ok (status : Nat) (hmute : m'.mute = false)
    (h : action e place name args { m with context := some name, mute := false } =
      (.ok status, m')) :
    call e place fatal name args m =
      (.ok (), { m' with status := status, context := m.context, mute := m.mute }) := by
  unfold call
  rw [Action.get_bind, Action.set_bind, Action.attempt_bind, Action.run_afterwards,
    Action.bind_ok _ _ _ m' status h, Action.get_bind, hmute]
  rfl

theorem call_finish
    (h : action e place name args { m with context := some name, mute := false } =
      (.error .finish, m')) :
    call e place fatal name args m =
      (.error .finish, { m' with context := m.context, mute := m.mute }) := by
  unfold call
  rw [Action.get_bind, Action.set_bind, Action.attempt_bind, Action.run_afterwards,
    Action.bind_error _ _ _ m' _ h]
  rfl

end

theorem test_truth (fs : FileSystem) (a b : String) :
    Test.truth fs [a, "-ne", b] = Test.compare a b fun x y => x != y := by
  cases h : Test.compare a b fun x y => x != y <;>
    simp [Test.truth, Test.evaluate, Test.binary, Test.operator?, Test.lexeme, Test.unaryNames,
      Test.binaryNames, h, bind, Except.bind, Except.map]

theorem doTest_ok (m : Machine) (args : List String) (holds : Bool)
    (h : Trace.test? args = some holds) :
    doTest true args m = (.ok (if holds then 0 else 1), m) := by
  unfold Trace.test? at h
  split at h
  · rename_i a b
    have htrue : Test.truth m.system.files [a, "-ne", b] = .ok holds := by
      rw [test_truth]
      cases hc : Test.compare a b fun x y => x != y with
      | error e => simp [hc, Except.toOption] at h
      | ok c => simpa [hc, Except.toOption] using h
    have hclose : "]".startsWith "]" = true := by decide +kernel
    have hlast : [a, "-ne", b, "]"].getLast? = some "]" := rfl
    have hwords : [a, "-ne", b, "]"].dropLast = [a, "-ne", b] := rfl
    simp only [doTest, hlast, Option.any_some, hclose, Bool.not_true, Bool.and_false,
      Bool.false_eq_true, if_false, if_true, hwords]
    rw [Action.get_bind, htrue]
    rfl
  · cases h

theorem doEcho_ok (own : Descriptors) (s : System) (process : Nat) (args : List String)
    (h : ∃ c, own.get? 1 = some c ∧ Takes s c) :
    ∃ s', (∀ m : Machine, m.own = own → m.system = s →
        doEcho args m = (.ok 0, { m with system := s' })) ∧ Keeps process s s' := by
  obtain ⟨s', hrun, hkeeps⟩ :=
    Action.print_runs own s process (String.ofList (Print.echo args)) h
  exact ⟨s', fun m ho hs => (Action.bind_ok _ _ m _ () (hrun m ho hs)).trans rfl, hkeeps⟩

theorem doExit_finish (m : Machine) (args : List String) (status : UInt8)
    (h : Trace.exitStatus? args = some status) :
    ∃ n, doExit args m = (.error .finish, { m with status := n }) ∧ n % 256 = status.toNat := by
  unfold Trace.exitStatus? at h
  split at h
  · rename_i text
    obtain ⟨n, hn, rfl⟩ := Option.map_eq_some_iff.1 h
    refine ⟨n, ?_, by simp⟩
    have hnumber : Action.number text m = (.ok n, m) := by
      rw [Action.number, hn]
      rfl
    exact (Action.bind_ok _ _ m m n hnumber).trans (Action.bind_ok _ _ m _ () rfl)
  · cases h

end Builtin

/-! ## Programs -/

/-- What the programs that are started leave to the shell. -/
def Gentle (launch : Launcher) : Prop :=
  ∀ path p s after ending, launch path p s = .ok (after, ending) →
    Keeps p.parent s (after.seenFrom s) ∧ Builtin.statusOf ending < 256

namespace Evaluator

theorem startFirst_gentle (launch : Launcher) (hl : Gentle launch) (p : Process) (s after : System)
    (ending : Ending) (paths : List String) (e : SystemError)
    (h : startFirst launch p s paths e = .ok (after, ending)) :
    Keeps p.parent s (after.seenFrom s) ∧ Builtin.statusOf ending < 256 := by
  induction paths generalizing e with
  | nil => cases h
  | cons path paths ih =>
    unfold startFirst at h
    split at h
    · dsimp only at h
      split at h
      · rename_i hfirst
        rw [h] at hfirst
        exact hl _ { p with words := shellPath :: path :: p.words.tail } s after ending hfirst
      · exact ih _ h
    · dsimp only at h
      split at h
      · rename_i hfirst
        rw [h] at hfirst
        exact hl path p s after ending hfirst
      · exact ih _ h

theorem runJobs_none (m : Machine) (h : m.jobs = []) : Builtin.runJobs m = (.ok (), m) := by
  unfold Builtin.runJobs
  rw [Action.get_bind, h]
  rfl

theorem makeRoom_none (m : Machine) (h : m.jobs = []) : Builtin.makeRoom m = (.ok (), m) := by
  have hsame : { m with jobs := m.jobs.filter fun j => j.slot != Builtin.freeSlot m.jobs } = m := by
    cases m
    cases h
    rfl
  unfold Builtin.makeRoom
  rw [Action.run_modify, hsame]

theorem report_runs (m : Machine) (ending : Ending) :
    ∃ s, Builtin.report ending m = (.ok (), { m with system := s }) ∧
      Keeps m.self m.system s := by
  unfold Builtin.report
  split
  · exact ⟨m.system, rfl, .refl _ _⟩
  · split
    · exact Action.printError_runs m _
    · exact ⟨m.system, rfl, .refl _ _⟩

theorem settle_runs (m : Machine) (ending : Ending) :
    ∃ s, settle ending m =
        (.ok (), { m with status := Builtin.statusOf ending, system := s }) ∧
      Keeps m.self m.system s := by
  obtain ⟨s, hrun, hkeeps⟩ := report_runs m ending
  exact ⟨s, (Action.bind_ok _ _ m _ () hrun).trans rfl, hkeeps⟩

theorem complainMissing_runs (m : Machine) (words : List String) (e : SystemError) :
    ∃ s, complainMissing words e m =
        (.ok (), { m with status := missingStatus e, system := s }) ∧
      Keeps m.self m.system s := by
  obtain ⟨s, hrun, hkeeps⟩ := Action.complain_runs m (words.headD "" ++ ": " ++ missingText e)
  exact ⟨s, (Action.bind_ok _ _ m _ () hrun).trans rfl, hkeeps⟩

theorem obey_none (m : Machine) (h : m.system.signalsTo m.self = []) :
    Action.obey m = (.ok (), m) := by
  unfold Action.obey
  rw [Action.get_bind, h]
  rfl

theorem noteEnd_none (m : Machine) (h : m.traps = []) : Action.noteEnd m = (.ok (), m) := by
  unfold Action.noteEnd
  rw [Action.run_modify, h]
  rfl

section
variable (e : Evaluator) (place : Place) (hplace : place.last = false) (words paths : List String)
  (m : Machine) (hj : m.jobs = [])

include hplace hj

theorem start_found (after : System) (ending : Ending)
    (h : startFirst e.launch (processOf m m.system.newProcess.1 m.self words)
      m.system.newProcess.2 paths .noEntry = .ok (after, ending)) :
    start e place words paths m = (do
      set { m with system := (after.endProcess m.system.newProcess.1).seenFrom m.system }
      Action.noteEnd
      Action.obey
      settle ending : Action Unit) m := by
  unfold start
  rw [Action.bind_ok _ _ m m () (runJobs_none m hj), Action.get_bind, hplace,
    if_neg (by simp), Action.bind_ok _ _ m m () (makeRoom_none m hj), Action.get_bind]
  simp only [h]

theorem start_missing (error : SystemError)
    (h : startFirst e.launch (processOf m m.system.newProcess.1 m.self words)
      m.system.newProcess.2 paths .noEntry = .error error) :
    start e place words paths m = complainMissing words error m := by
  unfold start
  rw [Action.bind_ok _ _ m m () (runJobs_none m hj), Action.get_bind, hplace,
    if_neg (by simp), Action.bind_ok _ _ m m () (makeRoom_none m hj), Action.get_bind]
  simp only [h]

end

/-- A program that is started leaves a status, and changes nothing but the system. -/
theorem start_runs (launch : Launcher) (hl : Gentle launch) (place : Place)
    (hplace : place.last = false) (words paths : List String) (m : Machine)
    (hj : m.jobs = []) (ht : m.traps = []) (hs : m.system.signalsTo m.self = []) :
    ∃ status s, (∀ run, start { launch := launch, run := run } place words paths m =
        (.ok (), { m with status := status, system := s })) ∧
      status < 256 ∧ Keeps m.self m.system s := by
  cases hfirst : startFirst launch (processOf m m.system.newProcess.1 m.self words)
      m.system.newProcess.2 paths .noEntry with
  | ok done =>
    obtain ⟨after, ending⟩ := done
    obtain ⟨hkeeps, hstatus⟩ := startFirst_gentle launch hl _ _ _ _ _ _ hfirst
    have hended : Keeps m.self m.system
        ((after.endProcess m.system.newProcess.1).seenFrom m.system) := by
      refine ⟨fun h => ?_, hkeeps.output, hkeeps.bracket⟩
      have hleft : after.signalsTo m.self = [] := hkeeps.signals h
      change (after.endProcess _).signalsTo m.self = []
      simp only [System.signalsTo, System.endProcess, List.map_eq_nil_iff,
        List.filter_eq_nil_iff] at hleft ⊢
      exact fun p hp => hleft p (List.mem_filter.1 hp).1
    let m' : Machine :=
      { m with system := (after.endProcess m.system.newProcess.1).seenFrom m.system }
    obtain ⟨s, hrun, hsettled⟩ := settle_runs m' ending
    refine ⟨_, s, fun run => ?_, hstatus, hended.trans hsettled⟩
    rw [start_found _ place hplace words paths m hj after ending hfirst, Action.set_bind,
      Action.bind_ok _ _ m' m' () (noteEnd_none m' ht),
      Action.bind_ok _ _ m' m' () (obey_none m' (hended.signals hs)), hrun]
  | error e =>
    obtain ⟨s, hrun, hkeeps⟩ := complainMissing_runs m words e
    refine ⟨missingStatus e, s, fun run => ?_, ?_, hkeeps⟩
    · exact (start_missing _ place hplace words paths m hj e hfirst).trans hrun
    unfold missingStatus
    split <;> decide

/-! ## Simple commands -/

variable (e : Evaluator) (place : Place)

theorem trace_off (channels : Descriptors) (assigned : List (String × String))
    (words : List String) (m : Machine) (ho : m.options = []) :
    e.trace channels assigned words m = (.ok (), m) := by
  unfold trace Machine.isOn
  rw [Action.get_bind, ho]
  rfl

theorem withChannels_none {α : Type} (action : Action α) (m : Machine) :
    withChannels [] action m = action m := by
  unfold withChannels
  rw [Action.get_bind, Action.run_afterwards]
  rfl

/-- A command without redirections and assignments is the command that its words name. -/
theorem runNamed_bare (name : String) (args : List String) (m : Machine) (hexec : name ≠ "exec")
    (hf : m.functions = []) (ho : m.options = []) :
    e.runNamed place { fields := name :: args, rest := [] } [] [] m =
      if isSpecial name then e.dispatch place { fields := name :: args, rest := [] } m
      else Action.inFrame (e.dispatch place { fields := name :: args, rest := [] }) m := by
  have hkeeps : keepsChannels { fields := name :: args, rest := [] } = false := by
    simp [keepsChannels, hexec]
  have hrun : ∀ m' : Machine, m'.options = [] → (do
      let assigned ← e.assignAll (!isSpecial name) false []
      e.trace m.own assigned (name :: args)
      e.dispatch place { fields := name :: args, rest := [] } : Action Unit) m' =
        e.dispatch place { fields := name :: args, rest := [] } m' := by
    intro m' ho'
    rw [assignAll, Action.pure_bind, Action.bind_ok _ _ m' m' () (trace_off e _ _ _ m' ho')]
  unfold runNamed
  rw [Action.get_bind]
  simp only [hkeeps, Bool.false_and, Bool.false_eq_true, if_false, hf, List.lookup_nil,
    Option.isSome_none, Bool.not_false, Bool.and_true, List.headD_cons]
  rw [Redirect.prepare, List.mapM_nil, Action.pure_bind, withChannels_none, Redirect.establishAll,
    Action.pure_bind, if_pos rfl]
  split
  · exact hrun m ho
  · exact Action.inFrame_congr _ _ m (hrun { m with frames := [] :: m.frames } ho)

theorem dispatch_builtin (name : String) (args : List String) (m : Machine)
    (hf : m.functions = []) (hb : isBuiltin name = true) :
    e.dispatch place { fields := name :: args, rest := [] } m =
      Builtin.call e place (isSpecial name) name args m := by
  have hmeaning : m.meaning true m.searchPath name = .builtin := by
    simp [Machine.meaning, hf, hb]
  unfold dispatch
  rw [Action.get_bind]
  simp only [List.drop_zero, List.headD_cons, List.tail_cons, decide_true, Bool.true_and,
    Bool.false_eq_true, if_false, hmeaning]

theorem remember_known (m : Machine) (name : String) (paths : List String) :
    ∃ known, m.remember name paths = { m with known := known } := by
  unfold Machine.remember
  split
  · split
    · exact ⟨m.known, rfl⟩
    · exact ⟨_, rfl⟩
  · exact ⟨m.known, rfl⟩

/-- A program that is called leaves a status, and changes nothing but the system. -/
theorem dispatch_program (launch : Launcher) (hl : Gentle launch) (hplace : place.last = false)
    (name : String) (args : List String) (m : Machine) (hf : m.functions = []) (hj : m.jobs = [])
    (ht : m.traps = []) (hs : m.system.signalsTo m.self = []) (hb : isBuiltin name = false) :
    ∃ status known s, (∀ run, dispatch { launch := launch, run := run } place
        { fields := name :: args, rest := [] } m =
          (.ok (), { m with status := status, known := known, system := s })) ∧
      status < 256 ∧ Keeps m.self m.system s := by
  have hmeaning : m.meaning true m.searchPath name = m.program m.searchPath name := by
    simp [Machine.meaning, hf, hb]
  have hprogram : (∃ paths, m.program m.searchPath name = .program paths) ∨
      ∃ e, m.program m.searchPath name = .unknown e := by
    unfold Machine.program
    split
    · exact Or.inl ⟨_, rfl⟩
    · split
      · exact Or.inl ⟨_, rfl⟩
      · exact Or.inr ⟨_, rfl⟩
  rcases hprogram with ⟨paths, hpaths⟩ | ⟨error, herror⟩
  · obtain ⟨known, hknown⟩ := remember_known m name paths
    obtain ⟨status, s, hrun, hstatus, hkeeps⟩ := start_runs launch hl place hplace
      (name :: args) paths { m with known := known } hj ht hs
    refine ⟨status, known, s, fun run => ?_, hstatus, hkeeps⟩
    unfold dispatch
    rw [Action.get_bind]
    simp only [List.drop_zero, List.headD_cons, decide_true, Bool.false_eq_true, if_false,
      hmeaning, hpaths]
    rw [Action.modify_bind, hknown, hrun]
  · obtain ⟨s, hrun, hkeeps⟩ := Action.complain_runs m (name ++ ": " ++ missingText error)
    refine ⟨127, (m.forget name).known, s, fun run => ?_, by decide, hkeeps⟩
    unfold dispatch
    rw [Action.get_bind]
    simp only [List.drop_zero, List.headD_cons, decide_true, Bool.false_eq_true, if_false,
      hmeaning, herror]
    rw [Action.bind_ok _ _ m _ () hrun, Action.modify_bind]
    rfl

end Evaluator
end ImageTools.Shell
