import ImageTools.Proofs.CommandEvaluation

/-!
# The trace of a run

A trace knows of programs only what a world says. The shell runs them on a
file system. For the commands that have a meaning in both, the shell's run has
the trace that belongs to the world in which every program ends and leaves the
files as it did in that run.
-/

set_option autoImplicit false

namespace ImageTools.Shell
open Trace

/-! ## What both see -/

/-- Nothing but the text, and what separates fields, decides what the shell does next. -/
structure Calm (m : Machine) : Prop where
  options : m.options = []
  functions : m.functions = []
  traps : m.traps = []
  jobs : m.jobs = []
  aliases : m.aliases = []
  documents : m.documents = #[]
  writable : ∀ name v, m.binding? name = some v → v.readOnly = false
  signals : m.system.signalsTo m.self = []
  output : ∃ c, m.own.get? 1 = some c ∧ Takes m.system c
  bracket : Bracketed m.system.files

structure Settled (m : Machine) : Prop extends Calm m where
  separators : m.separators = Trace.separators

structure Shows (known : List String) (t : Trace) (m : Machine) : Prop extends Settled m where
  running : t.ended = false
  status : m.status = t.status.toNat
  values : Knows known t m

structure Same (m m' : Machine) : Prop where
  options : m'.options = m.options
  functions : m'.functions = m.functions
  traps : m'.traps = m.traps
  jobs : m'.jobs = m.jobs
  aliases : m'.aliases = m.aliases
  documents : m'.documents = m.documents
  bindings : m'.bindings = m.bindings
  own : m'.own = m.own
  self : m'.self = m.self

theorem Settled.same {m : Machine} (h : Settled m) (m' : Machine) (hs : Same m m')
    (hk : Keeps m.self m.system m'.system) : Settled m' := by
  obtain ⟨ho, hf, ht, hj, ha, hd, hb, hown, hself⟩ := hs
  have hbinding : ∀ name, m'.binding? name = m.binding? name := fun name => by
    rw [Machine.binding?, hb, Machine.binding?]
  refine ⟨⟨?_, ?_, ?_, ?_, ?_, ?_, fun name v hv => ?_, ?_, ?_, hk.bracket h.bracket⟩, ?_⟩
  · rw [ho, h.options]
  · rw [hf, h.functions]
  · rw [ht, h.traps]
  · rw [hj, h.jobs]
  · rw [ha, h.aliases]
  · rw [hd, h.documents]
  · exact h.writable name v ((hbinding name).symm.trans hv)
  · rw [hself]
    exact hk.signals h.signals
  · obtain ⟨c, hc, htakes⟩ := h.output
    exact ⟨c, by rw [hown, hc], hk.output c htakes⟩
  · rw [← h.separators, Machine.separators, Machine.valueOf?, hbinding]
    rfl

/-- The shell's progress is in none of the fields that have to stay. -/
theorem same_update (m : Machine) (system : System) (name : String) (args : List String)
    (status substituted line reached : Nat) (found : List (String × String)) :
    Same m { m with
      system := system, name := name, args := args, status := status, substituted := substituted
      line := line, reached := reached, known := found } :=
  ⟨rfl, rfl, rfl, rfl, rfl, rfl, rfl, rfl, rfl⟩

theorem Knows.same {known : List String} {t t' : Trace} {m m' : Machine} (h : Knows known t m)
    (hb : m'.bindings = m.bindings) (ht : t'.bindings = t.bindings) : Knows known t' m' := by
  intro name hname
  rw [Machine.valueOf?, Machine.binding?, hb, ht]
  exact h name hname

theorem Shows.same {known : List String} {t : Trace} {m : Machine} (h : Shows known t m)
    (m' : Machine) (hs : Same m m') (hk : Keeps m.self m.system m'.system)
    (hstatus : m'.status = m.status) : Shows known t m' :=
  { h.toSettled.same m' hs hk with
    running := h.running
    status := hstatus.trans h.status
    values := h.values.same hs.bindings rfl }

theorem Shows.mono {later : List String} {t : Trace} {m : Machine} (h : Shows later t m)
    (known : List String) (hk : ∀ name ∈ known, name ∈ later) : Shows known t m :=
  { h with values := fun name hname => h.values name (hk name hname) }

/-! ## Worlds that tell of a run -/

abbrev Record := List (UInt8 × FileSystem)

def World.Tells (w : World) : Nat → FileSystem → Record → Prop
  | k, fs, [] => w.Sees k fs
  | k, fs, (status, after) :: r => w.Sees k fs ∧ w.statuses k = status ∧ w.Tells (k + 1) after r

def filesAfter (fs : FileSystem) : Record → FileSystem
  | [] => fs
  | (_, after) :: r => filesAfter after r

theorem World.Tells.sees {w : World} {k : Nat} {fs : FileSystem} {r : Record}
    (h : w.Tells k fs r) : w.Sees k fs := by
  cases r with
  | nil => exact h
  | cons p r => exact h.1

theorem tells_append (w : World) (k : Nat) (fs : FileSystem) (r r' : Record) :
    w.Tells k fs (r ++ r') ↔ w.Tells k fs r ∧ w.Tells (k + r.length) (filesAfter fs r) r' := by
  induction r generalizing k fs with
  | nil => exact ⟨fun h => ⟨h.sees, h⟩, fun h => h.2⟩
  | cons p r ih =>
    obtain ⟨status, after⟩ := p
    rw [List.cons_append, World.Tells, World.Tells, ih, filesAfter, List.length_cons,
      Nat.add_assoc, Nat.add_comm 1]
    constructor
    · rintro ⟨hsees, hstatus, hr, hr'⟩
      exact ⟨⟨hsees, hstatus, hr⟩, hr'⟩
    · rintro ⟨⟨hsees, hstatus, hr⟩, hr'⟩
      exact ⟨hsees, hstatus, hr, hr'⟩

theorem filesAfter_append (fs : FileSystem) (r r' : Record) :
    filesAfter fs (r ++ r') = filesAfter (filesAfter fs r) r' := by
  induction r generalizing fs with
  | nil => rfl
  | cons p r ih => exact ih p.2

def worldOf (fs : FileSystem) (r : Record) : World where
  statuses k := (r[k]?).elim 0 (·.1)
  names k := pathsOf (filesAfter fs (r.take k))

theorem worldOf_tells (fs : FileSystem) (before r : Record) :
    (worldOf fs (before ++ r)).Tells before.length (filesAfter fs before) r := by
  have hsees : ∀ before later : Record,
      (worldOf fs (before ++ later)).Sees before.length (filesAfter fs before) :=
    fun before later p => by simp [worldOf]
  induction r generalizing before with
  | nil => exact hsees before []
  | cons p r ih =>
    refine ⟨hsees before (p :: r), by simp [worldOf], ?_⟩
    have hrest := ih (before ++ [p])
    rw [List.append_assoc, List.length_append, filesAfter_append] at hrest
    exact hrest

/-! ## Runs that follow each other -/

/-- An action does to the machine what `exec` does to the trace, in every world that tells of
what the action left. Commands may have to be nested `d` deep. -/
structure Follows (d : Nat) (known : List String) (exec : World → Option Trace) (t : Trace)
    (action : Nat → Action Unit) (m : Machine) (r : Record) (t' : Trace) (m' : Machine) : Prop where
  told : ∀ w : World, w.Tells t.events.length m.system.files r → exec w = some t'
  events : t'.events.length = t.events.length + r.length
  files : m'.system.files = filesAfter m.system.files r
  runs : ∀ depth, d ≤ depth → action depth m = (if t'.ended then .error .finish else .ok (), m')
  settled : Settled m'
  status : m'.status % 256 = t'.status.toNat
  shows : t'.ended = false → Shows known t' m'

def Followed (d : Nat) (known : List String) (exec : World → Option Trace) (t : Trace)
    (action : Nat → Action Unit) (m : Machine) : Prop :=
  ∃ r t' m', Follows d known exec t action m r t' m'

theorem Followed.deeper {d : Nat} {known : List String} {exec : World → Option Trace} {t : Trace}
    {action : Nat → Action Unit} {m : Machine} (h : Followed d known exec t action m)
    (later : Nat) (hd : d ≤ later) : Followed later known exec t action m := by
  obtain ⟨r, t', m', h⟩ := h
  exact ⟨r, t', m', { h with runs := fun depth hdepth => h.runs depth (Nat.le_trans hd hdepth) }⟩

theorem Followed.mono {d : Nat} {later : List String} {exec : World → Option Trace} {t : Trace}
    {action : Nat → Action Unit} {m : Machine} (h : Followed d later exec t action m)
    (known : List String) (hk : ∀ name ∈ known, name ∈ later) :
    Followed d known exec t action m := by
  obtain ⟨r, t', m', h⟩ := h
  exact ⟨r, t', m', { h with shows := fun hended => (h.shows hended).mono known hk }⟩

theorem Followed.bind {d : Nat} {known later : List String} {exec : World → Option Trace}
    {t : Trace} {action : Nat → Action Unit} {m : Machine}
    (h : Followed d known exec t action m) (next : World → Trace → Option Trace)
    (after : Nat → Action Unit)
    (hnext : ∀ t' m', Shows known t' m' → Followed d later (next · t') t' after m') :
    Followed d later (fun w => (exec w).bind (goOn (next w))) t
      (fun depth => do action depth; after depth) m := by
  obtain ⟨r, t', m', h⟩ := h
  cases hended : t'.ended with
  | true =>
    refine ⟨r, t', m', ⟨fun w hw => ?_, h.events, h.files, fun depth hd => ?_, h.settled, h.status,
      by simp [hended]⟩⟩
    · rw [h.told w hw, Option.bind_some, goOn, if_pos hended]
    · rw [Action.bind_error _ _ m m' .finish (by rw [h.runs depth hd, hended]; rfl), hended]
      rfl
  | false =>
    obtain ⟨r', t'', m'', h'⟩ := hnext t' m' (h.shows hended)
    refine ⟨r ++ r', t'', m'', ⟨fun w hw => ?_, ?_, ?_, fun depth hd => ?_, h'.settled, h'.status,
      h'.shows⟩⟩
    · obtain ⟨hr, hr'⟩ := (tells_append w _ _ r r').1 hw
      rw [h.told w hr, Option.bind_some, goOn_running _ _ hended]
      rw [← h.events, ← h.files] at hr'
      exact h'.told w hr'
    · rw [h'.events, h.events, List.length_append, Nat.add_assoc]
    · rw [h'.files, h.files, filesAfter_append]
    · have hfirst : action depth m = (.ok (), m') := by
        rw [h.runs depth hd, hended]
        rfl
      rw [Action.bind_ok _ _ m m' () hfirst, h'.runs depth hd]

/-! ## Simple commands -/

def isCallable : List String → Bool
  | [] => true
  | name :: args =>
    if name = "exit" then (exitStatus? args).isSome
    else if name = "[" then (test? args).isSome
    else name = "echo" || !isBuiltin name

def evaluator (launch : Launcher) (depth : Nat) : Evaluator :=
  { launch := launch, run := run launch depth }

section
variable (launch : Launcher) (run : Place → Command → Action Unit) (place : Place) (name : String)
  (args : List String) (m : Machine) (hf : m.functions = []) (ho : m.options = [])

include hf ho

theorem runNamed_builtin (e : Evaluator) (hn : isSpecial name = false) (hb : isBuiltin name = true)
    (status : Nat) (s : System)
    (h : ∀ m' : Machine, m'.system = m.system → m'.own = m.own →
      Builtin.action e place name args m' = (.ok status, { m' with system := s })) :
    e.runNamed place { fields := name :: args, rest := [] } [] [] m =
      (.ok (), { m with status := status, system := s }) := by
  have hexec : name ≠ "exec" := by
    rintro rfl
    cases hn
  rw [Evaluator.runNamed_bare e place name args m hexec hf ho, if_neg (by simp [hn])]
  refine Action.inFrame_unsaved _ m { m with status := status, system := s } _ ?_
  refine (Evaluator.dispatch_builtin e place name args { m with frames := [] :: m.frames } hf
    hb).trans ?_
  exact Builtin.call_ok e place _ name args { m with frames := [] :: m.frames } _ status rfl
    (h _ rfl rfl)

theorem runNamed_program (hl : Gentle launch) (hplace : place.last = false) (hj : m.jobs = [])
    (ht : m.traps = []) (hs : m.system.signalsTo m.self = []) (hb : isBuiltin name = false) :
    ∃ status known s, (∀ run, Evaluator.runNamed { launch := launch, run := run } place
        { fields := name :: args, rest := [] } [] [] m =
          (.ok (), { m with status := status, known := known, system := s })) ∧
      status < 256 ∧ Keeps m.self m.system s := by
  have hn : isSpecial name = false := by
    unfold isBuiltin at hb
    exact (Bool.or_eq_false_iff.1 hb).1
  have hexec : name ≠ "exec" := by
    rintro rfl
    cases hn
  obtain ⟨status, known, s, hrun, hstatus, hkeeps⟩ := Evaluator.dispatch_program place launch hl
    hplace name args { m with frames := [] :: m.frames } hf hj ht hs hb
  refine ⟨status, known, s, fun run => ?_, hstatus, hkeeps⟩
  rw [Evaluator.runNamed_bare _ place name args m hexec hf ho, if_neg (by simp [hn])]
  exact Action.inFrame_unsaved _ m { m with status := status, known := known, system := s } _
    (hrun run)

theorem runNamed_exit (status : UInt8) (h : exitStatus? args = some status) :
    ∃ n, (∀ e : Evaluator, e.runNamed place { fields := "exit" :: args, rest := [] } [] [] m =
        (.error .finish, { m with status := n })) ∧ n % 256 = status.toNat := by
  obtain ⟨n, hrun, hn⟩ := Builtin.doExit_finish { m with context := some "exit", mute := false }
    args status h
  refine ⟨n, fun e => ?_, hn⟩
  have hspecial : isSpecial "exit" = true := rfl
  rw [Evaluator.runNamed_bare e place "exit" args m (by decide) hf ho, if_pos hspecial,
    Evaluator.dispatch_builtin e place "exit" args m hf rfl]
  exact Builtin.call_finish e place _ "exit" args m _ hrun

end

theorem Followed.of_eq {d : Nat} {known : List String} {exec exec' : World → Option Trace}
    {t : Trace} {action action' : Nat → Action Unit} {m m' : Machine}
    (h : Followed d known exec' t action' m') (hfiles : m'.system.files = m.system.files)
    (hexec : ∀ w : World, w.Sees t.events.length m.system.files → exec w = exec' w)
    (hruns : ∀ depth, action depth m = action' depth m') : Followed d known exec t action m := by
  obtain ⟨r, t', m'', h⟩ := h
  have htold := h.told
  have hafter := h.files
  rw [hfiles] at htold hafter
  exact ⟨r, t', m'', { h with
    told := fun w hw => (hexec w hw.sees).trans (htold w hw)
    files := hafter
    runs := fun depth hd => (hruns depth).trans (h.runs depth hd) }⟩

/-- An action that leaves everything but the status, the files and what nothing looks at. -/
theorem Followed.step {d : Nat} {known : List String} {exec : World → Option Trace} {t : Trace}
    {action : Nat → Action Unit} {m : Machine} (h : Shows known t m) (r : Record) (t' : Trace)
    (m' : Machine)
    (htold : ∀ w : World, w.Tells t.events.length m.system.files r → exec w = some t')
    (hevents : t'.events.length = t.events.length + r.length)
    (hfiles : m'.system.files = filesAfter m.system.files r)
    (hruns : ∀ depth, action depth m = (.ok (), m')) (hended : t'.ended = false)
    (hstatus : m'.status = t'.status.toNat) (hb : t'.bindings = t.bindings) (hsame : Same m m')
    (hkeeps : Keeps m.self m.system m'.system) : Followed d known exec t action m := by
  have hsettled := h.toSettled.same m' hsame hkeeps
  refine ⟨r, t', m', ⟨htold, hevents, hfiles, fun depth _ => ?_, hsettled, ?_, fun _ => ?_⟩⟩
  · rw [hruns depth, hended]
    rfl
  · rw [hstatus]
    exact Nat.mod_eq_of_lt t'.status.toNat_lt
  · exact { hsettled with
      running := hended
      status := hstatus
      values := h.values.same hsame.bindings hb }

theorem Followed.still {d : Nat} {known : List String} {exec : World → Option Trace} {t : Trace}
    {action : Nat → Action Unit} {m : Machine} (h : Shows known t m)
    (hexec : ∀ w, exec w = some t) (hruns : ∀ depth, action depth m = (.ok (), m)) :
    Followed d known exec t action m :=
  Followed.step h [] t m (fun w _ => hexec w) rfl rfl hruns h.running h.status rfl
    (same_update ..) (.refl _ _)

section
variable (launch : Launcher) (known : List String) (t : Trace) (m : Machine) (place : Place)

theorem exit_follows (h : Shows known t m) (args : List String) (status : UInt8)
    (hs : exitStatus? args = some status) :
    Followed 0 known (fun w => perform? w t ("exit" :: args)) t
      (fun depth => (evaluator launch depth).runNamed place { fields := "exit" :: args, rest := [] }
        [] []) m := by
  obtain ⟨n, hrun, hn⟩ := runNamed_exit place args m h.functions h.options status hs
  have hsettled := h.toSettled.same { m with status := n } (same_update ..) (.refl _ _)
  refine ⟨[], { t with status := status, ended := true }, { m with status := n }, ⟨fun w _ => ?_,
    rfl, rfl, fun depth _ => hrun _, hsettled, hn, by simp⟩⟩
  rw [perform?, if_pos rfl, hs]
  rfl

theorem test_follows (h : Shows known t m) (args : List String) (holds : Bool)
    (hh : test? args = some holds) :
    Followed 0 known (fun w => perform? w t ("[" :: args)) t
      (fun depth => (evaluator launch depth).runNamed place { fields := "[" :: args, rest := [] }
        [] []) m := by
  have hrun : ∀ e : Evaluator, e.runNamed place { fields := "[" :: args, rest := [] } [] [] m =
      (.ok (), { m with status := if holds then 0 else 1, system := m.system }) :=
    fun e => runNamed_builtin place "[" args m h.functions h.options e rfl rfl _ _
      fun m' hs _ => by
        rw [← hs]
        exact Builtin.doTest_ok m' args holds hh
  refine Followed.step h [] (t.withStatus (if holds then 0 else 1))
    { m with status := if holds then 0 else 1 } (fun w _ => ?_) rfl rfl (fun depth => hrun _)
    h.running ?_ rfl (same_update ..) (.refl _ _)
  · rw [perform?, if_neg (by decide), if_pos rfl, hh]
    rfl
  · cases holds <;> rfl

theorem echo_follows (h : Shows known t m) (args : List String) :
    Followed 0 known (fun w => perform? w t ("echo" :: args)) t
      (fun depth => (evaluator launch depth).runNamed place { fields := "echo" :: args, rest := [] }
        [] []) m := by
  obtain ⟨s, hecho, hkeeps⟩ := Builtin.doEcho_ok m.own m.system m.self args h.output
  have hrun : ∀ e : Evaluator, e.runNamed place { fields := "echo" :: args, rest := [] } [] [] m =
      (.ok (), { m with status := 0, system := s }) :=
    fun e => runNamed_builtin place "echo" args m h.functions h.options e rfl rfl _ _
      fun m' hs ho => hecho m' ho hs
  refine Followed.step h [(0, s.files)] (t.print args) { m with status := 0, system := s }
    (fun w _ => ?_) (by simp [Trace.print]) rfl (fun depth => hrun _) h.running rfl rfl
    (same_update ..) hkeeps
  rw [perform?, if_neg (by decide), if_neg (by decide), if_pos rfl]

theorem program_follows (hl : Gentle launch) (hplace : place.last = false) (h : Shows known t m)
    (name : String) (args : List String) (hb : isBuiltin name = false) :
    Followed 0 known (fun w => perform? w t (name :: args)) t
      (fun depth => (evaluator launch depth).runNamed place { fields := name :: args, rest := [] }
        [] []) m := by
  have hother : ∀ other, isBuiltin other = true → name ≠ other := by
    rintro other hbuiltin rfl
    rw [hb] at hbuiltin
    cases hbuiltin
  obtain ⟨status, found, s, hrun, hstatus, hkeeps⟩ := runNamed_program launch place name args m
    h.functions h.options hl hplace h.jobs h.traps h.signals hb
  let t' : Trace := { t with
    events := t.events ++ [⟨name :: args, UInt8.ofNat status⟩], status := UInt8.ofNat status }
  refine Followed.step h [(UInt8.ofNat status, s.files)] t'
    { m with status := status, known := found, system := s } (fun w hw => ?_) (by simp [t']) rfl
    (fun depth => hrun _) h.running ?_ rfl (same_update ..) hkeeps
  · rw [perform?, if_neg (hother "exit" rfl), if_neg (hother "[" rfl), if_neg (hother "echo" rfl),
      Trace.call, hw.2.1]
  · exact (Nat.mod_eq_of_lt hstatus).symm

theorem runNamed_follows (hl : Gentle launch) (hplace : place.last = false)
    (h : Shows known t m) (name : String) (args : List String)
    (hc : isCallable (name :: args) = true) :
    Followed 0 known (fun w => perform? w t (name :: args)) t
      (fun depth => (evaluator launch depth).runNamed place { fields := name :: args, rest := [] }
        [] []) m := by
  simp only [isCallable] at hc
  by_cases hexit : name = "exit"
  · subst hexit
    rw [if_pos rfl] at hc
    obtain ⟨status, hstatus⟩ := Option.isSome_iff_exists.1 hc
    exact exit_follows launch known t m place h args status hstatus
  by_cases htest : name = "["
  · subst htest
    rw [if_neg hexit, if_pos rfl] at hc
    obtain ⟨holds, hholds⟩ := Option.isSome_iff_exists.1 hc
    exact test_follows launch known t m place h args holds hholds
  by_cases hecho : name = "echo"
  · subst hecho
    exact echo_follows launch known t m place h args
  · have hb : isBuiltin name = false := by
      simpa [hexit, htest, hecho] using hc
    exact program_follows launch known t m place hl hplace h name args hb

theorem callable_head (words : List String) (h : isCallable words = true) :
    ∀ name ∈ words.head?, name ≠ "command" ∧ isDeclaring name = false := by
  intro name hname
  obtain ⟨args, rfl⟩ : ∃ args, words = name :: args := List.head?_eq_some_iff.1 hname
  have hother : ∀ other, isBuiltin other = true → other ≠ "exit" → other ≠ "[" →
      other ≠ "echo" → name ≠ other := by
    rintro other hb hexit htest hecho rfl
    simp [isCallable, hexit, htest, hecho, hb] at h
  have hcommand := hother "command" rfl (by decide) (by decide) (by decide)
  have halias := hother "alias" rfl (by decide) (by decide) (by decide)
  have hexport := hother "export" rfl (by decide) (by decide) (by decide)
  have hlocal := hother "local" rfl (by decide) (by decide) (by decide)
  have hreadonly := hother "readonly" rfl (by decide) (by decide) (by decide)
  exact ⟨hcommand, by simp [isDeclaring, halias, hexport, hlocal, hreadonly]⟩

theorem runNameless_bare (e : Evaluator) (m : Machine) (ho : m.options = []) :
    e.runNameless [] [] m = (.ok (), { m with status := m.substituted }) := by
  unfold Evaluator.runNameless
  rw [Action.get_bind, Redirect.prepare, List.mapM_nil, Action.pure_bind,
    Evaluator.withChannels_none, Redirect.establishAll, Action.pure_bind, if_pos rfl,
    Evaluator.assignAll, Action.pure_bind,
    Action.bind_ok _ _ m m () (Evaluator.trace_off e _ _ _ m ho)]
  rfl

def fieldsIn (t : Trace) (fs : FileSystem) (words : List Word) : List String :=
  (t.patterns words).flatMap (pathsOf fs)

theorem namesOf_fieldsIn (w : World) (t : Trace) (fs : FileSystem) (words : List Word)
    (hs : w.Sees t.events.length fs) (hb : Bracketed fs) (hp : ∀ p ∈ t.patterns words, Clear p) :
    (t.patterns words).flatMap (namesOf w t) = fieldsIn t fs words := by
  unfold fieldsIn
  rw [List.flatMap_def, List.flatMap_def, List.map_congr_left fun p hmem =>
    namesOf_clear w t fs p hs hb (hp p hmem)]

def isPlainWord (known : List String) (word : Word) : Bool :=
  word.length ≤ pieceLimit && word.all (Piece.isPlain known)

theorem simpleBy_plain (w : World) (fs : FileSystem) (words : List Word)
    (hs : w.Sees t.events.length fs) (hb : Bracketed fs)
    (hw : ∀ word ∈ words, isPlainWord known word = true) (hp : ∀ p ∈ t.patterns words, Clear p) :
    simpleBy? w (perform? w) t [] words [] = perform? w t (fieldsIn t fs words) := by
  have hplain : ∀ word ∈ words, word.all (Piece.isPlain known) = true :=
    fun word hword => (Bool.and_eq_true_iff.1 (hw word hword)).2
  rw [simpleBy?, arguments_plain w known t words hplain, namesOf_fieldsIn w t fs words hs hb hp]
  rfl

theorem runSimple_plain (e : Evaluator) (line : Nat) (words : List Word)
    (h : Shows known t { m with line := line, substituted := 0 })
    (hw : ∀ word ∈ words, isPlainWord known word = true)
    (hc : isCallable (fieldsIn t m.system.files words) = true) :
    e.runSimple place line [] words [] m =
      (if (fieldsIn t m.system.files words).isEmpty then e.runNameless [] []
        else e.runNamed place { fields := fieldsIn t m.system.files words, rest := [] } [] [])
          { m with line := line, substituted := 0 } := by
  let m₁ : Machine := { m with line := line, substituted := 0 }
  have hword : ∀ word ∈ words, expandWord e.substitute word m₁ =
      (.ok (fieldsIn t m.system.files [word]), m₁) := fun word hword => by
    have hplain := Bool.and_eq_true_iff.1 (hw word hword)
    exact expandWord_plain _ known t m₁ h.values h.status h.options h.separators word
      (of_decide_eq_true hplain.1) hplain.2
  have hfields : words.flatMap (fun word => fieldsIn t m.system.files [word]) =
      fieldsIn t m.system.files words := by
    simp [fieldsIn, Trace.patterns, List.flatMap_assoc]
  have hwords := Evaluator.readWords_expanded e.substitute m₁ _ words hword
    (by rw [hfields]; exact callable_head _ hc)
  rw [hfields] at hwords
  unfold Evaluator.runSimple
  rw [Action.modify_bind, Action.bind_ok _ _ m₁ m₁ _ hwords]

theorem runSimple_follows (hl : Gentle launch) (hplace : place.last = false) (line : Nat)
    (words : List Word) (h : Shows known t m) (hw : ∀ word ∈ words, isPlainWord known word = true)
    (hp : ∀ p ∈ t.patterns words, Clear p)
    (hc : ∀ w, isCallable ((t.patterns words).flatMap (namesOf w t)) = true) :
    Followed 0 known (fun w => simpleBy? w (perform? w) t [] words []) t
      (fun depth => (evaluator launch depth).runSimple place line [] words []) m := by
  let m₁ : Machine := { m with line := line, substituted := 0 }
  have h₁ : Shows known t m₁ := h.same m₁ (same_update ..) (.refl _ _) rfl
  have hcall : isCallable (fieldsIn t m.system.files words) = true := by
    rw [← namesOf_fieldsIn ⟨fun _ => 0, fun _ => pathsOf m.system.files⟩ t _ words (fun _ => rfl)
      h.bracket hp]
    exact hc _
  have hexec := fun w hs => simpleBy_plain known t w m.system.files words hs h.bracket hw hp
  have hrun := fun depth => runSimple_plain known t m place (evaluator launch depth) line words h₁
    hw hcall
  cases hfields : fieldsIn t m.system.files words with
  | nil =>
    rw [hfields] at hexec hrun
    refine Followed.step h [] (t.withStatus 0) { m₁ with status := 0 } (fun w hs => hexec w hs) rfl
      rfl (fun depth => ?_) h.running rfl rfl (same_update ..) (.refl _ _)
    exact (hrun depth).trans (runNameless_bare (evaluator launch depth) m₁ h₁.options)
  | cons name args =>
    rw [hfields] at hexec hrun hcall
    exact (runNamed_follows launch known t m₁ place hl hplace h₁ name args hcall).of_eq rfl hexec
      hrun

end

/-! ## Assignments -/

theorem lookup_replaced (bindings : List (String × Variable)) (name other : String) (v : Variable)
    (h : (bindings.lookup name).isSome = true) :
    (bindings.map fun p => if p.1 = name then (name, v) else p).lookup other =
      if other = name then some v else bindings.lookup other := by
  have hothers : ∀ bindings : List (String × Variable), other ≠ name →
      (bindings.map fun p => if p.1 = name then (name, v) else p).lookup other =
        bindings.lookup other := by
    intro bindings hne
    have hskip : (other == name) = false := beq_false_of_ne hne
    induction bindings with
    | nil => rfl
    | cons p bindings ih =>
      rw [List.map_cons, List.lookup_cons, List.lookup_cons, ih]
      by_cases hkey : p.1 = name
      · rw [if_pos hkey, hkey, hskip]
      · rw [if_neg hkey]
  by_cases hother : other = name
  · rw [if_pos hother, hother]
    clear hothers
    induction bindings with
    | nil => cases h
    | cons p bindings ih =>
      by_cases hkey : p.1 = name
      · simp [hkey]
      · have hne : (name == p.1) = false := by simpa using Ne.symm hkey
        rw [List.lookup_cons, hne] at h
        rw [List.map_cons, if_neg hkey, List.lookup_cons, hne]
        exact ih h
  · rw [if_neg hother, hothers bindings hother]

theorem setVariable_binding (m : Machine) (name : String) (v : Variable) :
    ∃ bindings found index place, m.setVariable name v = { m with
        bindings := bindings, known := found, optionIndex := index, optionPlace := place } ∧
      ∀ other, bindings.lookup other =
        if other = name then some v else m.bindings.lookup other := by
  let bindings :=
    if (m.binding? name).isSome then m.bindings.map fun p => if p.1 = name then (name, v) else p
    else m.bindings ++ [(name, v)]
  have hrefresh : ∃ found index place, { m with bindings := bindings }.refresh name =
      { m with
        bindings := bindings, known := found, optionIndex := index, optionPlace := place } := by
    unfold Machine.refresh
    split
    · exact ⟨[], m.optionIndex, m.optionPlace, rfl⟩
    · split
      · exact ⟨m.known, _, none, rfl⟩
      · exact ⟨m.known, m.optionIndex, m.optionPlace, rfl⟩
  obtain ⟨found, index, place, hrefreshed⟩ := hrefresh
  refine ⟨bindings, found, index, place, hrefreshed, fun other => ?_⟩
  cases hold : m.binding? name with
  | some old =>
    have hset : (m.bindings.lookup name).isSome = true := by
      rw [← Machine.binding?, hold]
      rfl
    simp only [bindings, hold, Option.isSome_some, if_true]
    exact lookup_replaced m.bindings name other v hset
  | none =>
    have hnew : m.bindings.lookup name = none := hold
    simp only [bindings, hold, Option.isSome_none, Bool.false_eq_true, if_false,
      List.lookup_append]
    by_cases hother : other = name
    · simp [hother, hnew]
    · have hskip : (other == name) = false := beq_false_of_ne hother
      rw [if_neg hother, List.lookup_cons, hskip, List.lookup_nil, Option.or_none]

theorem valueOf_setVariable (m : Machine) (name other : String) (v : Variable) :
    (m.setVariable name v).valueOf? other =
      if other = name then v.value else m.valueOf? other := by
  obtain ⟨bindings, found, index, place, hset, hlookup⟩ := setVariable_binding m name v
  rw [hset, Machine.valueOf?, Machine.binding?, hlookup]
  split <;> rfl

theorem system_setVariable (m : Machine) (name : String) (v : Variable) :
    (m.setVariable name v).system = m.system := by
  obtain ⟨bindings, found, index, place, hset, -⟩ := setVariable_binding m name v
  rw [hset]

theorem Calm.set {m : Machine} (h : Calm m) (name : String) (v : Variable)
    (hv : v.readOnly = false) : Calm (m.setVariable name v) := by
  obtain ⟨bindings, found, index, place, hset, hlookup⟩ := setVariable_binding m name v
  rw [hset]
  refine { h with writable := fun other old hold => ?_ }
  rw [Machine.binding?, hlookup] at hold
  split at hold
  · obtain rfl := Option.some.inj hold
    exact hv
  · exact h.writable other old hold

theorem Settled.set {m : Machine} (h : Settled m) (name : String) (v : Variable)
    (hv : v.readOnly = false) (hn : name ≠ "IFS") : Settled (m.setVariable name v) := by
  refine ⟨h.toCalm.set name v hv, ?_⟩
  rw [Machine.separators, valueOf_setVariable, if_neg (Ne.symm hn)]
  exact h.separators

theorem change_value (m : Machine) (name value : String) (f : Variable → Variable)
    (hn : name ≠ "OPTIND")
    (hr : ∀ v, m.binding? name = some v → v.readOnly = false)
    (hf : ∀ v, (f v).value = some value ∧ (f v).readOnly = v.readOnly) :
    ∃ v : Variable, v.value = some value ∧ v.readOnly = false ∧
      Action.change name f m = (.ok (), m.setVariable name v) := by
  have hold : ((m.binding? name).getD {}).readOnly = false := by
    cases hb : m.binding? name with
    | some v => exact hr v hb
    | none => rfl
  obtain ⟨hvalue, hreadOnly⟩ := hf ((m.binding? name).getD {})
  refine ⟨{ f ((m.binding? name).getD {}) with
    exported := (f ((m.binding? name).getD {})).exported || m.isOn 'a' }, hvalue,
    hreadOnly.trans hold, ?_⟩
  have hsuits : Action.suits name (f ((m.binding? name).getD {})).value = true := by
    simp [Action.suits, hn]
  unfold Action.change
  rw [Action.get_bind]
  simp only [hold, Bool.false_eq_true, if_false, hsuits, if_true]
  rfl

def isFree (name : String) : Bool := name != "IFS" && name != "OPTIND"

theorem runNameless_assigns (m : Machine) (name value : String) (word : Word)
    (ho : m.options = []) (hn : name ≠ "OPTIND")
    (hr : ∀ v, m.binding? name = some v → v.readOnly = false) :
    ∃ v : Variable, v.value = some value ∧ v.readOnly = false ∧
      ∀ e : Evaluator, expandValue e.substitute word m = (.ok value, m) →
        e.runNameless [(name, word)] [] m =
          (.ok (), { m.setVariable name v with status := m.substituted }) := by
  obtain ⟨v, hvalue, hreadOnly, hchange⟩ := change_value m name value
    (fun v => { v with value := some value, exported := v.exported || false || false }) hn hr
    fun v => ⟨rfl, rfl⟩
  refine ⟨v, hvalue, hreadOnly, fun e hv => ?_⟩
  have hassign : e.assignAll false false [(name, word)] m =
      (.ok [(name, value)], m.setVariable name v) := by
    rw [Evaluator.assignAll, Action.bind_ok _ _ m m value hv]
    simp only [Bool.false_eq_true, if_false]
    rw [Action.bind_ok _ _ m _ () hchange]
    rfl
  obtain ⟨bindings, found, index, place, hset, -⟩ := setVariable_binding m name v
  have hafter : (m.setVariable name v).options = [] ∧
      (m.setVariable name v).substituted = m.substituted := by
    rw [hset]
    exact ⟨ho, rfl⟩
  unfold Evaluator.runNameless
  rw [Action.get_bind, Redirect.prepare, List.mapM_nil, Action.pure_bind,
    Evaluator.withChannels_none, Redirect.establishAll, Action.pure_bind, if_pos rfl,
    Action.bind_ok _ _ m _ _ hassign, Action.bind_ok _ _ (m.setVariable name v) _ ()
      (Evaluator.trace_off e _ _ _ (m.setVariable name v) hafter.1), Action.get_bind, hafter.2]
  rfl

theorem runSimple_assigns (launch : Launcher) (known : List String) (t : Trace) (m : Machine)
    (place : Place) (line : Nat) (name : String) (word : Word) (h : Shows known t m)
    (hw : isPlainWord known word = true) (hn : isFree name = true) :
    Followed 0 (name :: known) (fun w => simpleBy? w (perform? w) t [(name, word)] [] []) t
      (fun depth => (evaluator launch depth).runSimple place line [(name, word)] [] []) m := by
  obtain ⟨hlen, hplain⟩ := Bool.and_eq_true_iff.1 hw
  obtain ⟨gs, hgs⟩ := glyphs_plain known t word hplain
  let m₁ : Machine := { m with line := line, substituted := 0 }
  have h₁ : Settled m₁ := h.toSettled.same m₁ (same_update ..) (.refl _ _)
  have hvalue : ∀ run, expandValue run word m₁ = (.ok (signsOf gs).text, m₁) := fun run =>
    expandValue_plain run known t m₁ h.values h.status h.options word (of_decide_eq_true hlen)
      hplain gs hgs
  simp only [isFree, Bool.and_eq_true, bne_iff_ne] at hn
  obtain ⟨v, hv, hreadOnly, hrun⟩ := runNameless_assigns m₁ name (signsOf gs).text word h₁.options
    hn.2 (h₁.writable name)
  let t' : Trace :=
    { t with bindings := (name, (signsOf gs).map (·.char)) :: t.bindings, status := 0 }
  let m' : Machine := { m₁.setVariable name v with status := 0 }
  have hafter : Settled m' :=
    (h₁.set name v hreadOnly hn.1).same m' (same_update ..) (.refl _ _)
  refine ⟨[], t', m', ⟨fun w _ => ?_, rfl, ?_, fun depth _ => ?_, hafter, rfl, fun _ => ?_⟩⟩
  · rw [simpleBy?, assign?, hgs]
    rfl
  · exact congrArg System.files (system_setVariable m₁ name v)
  · have hread := Evaluator.readWords_expanded (evaluator launch depth).substitute m₁ (fun _ => [])
      [] (by simp) (by simp)
    unfold Evaluator.runSimple
    rw [Action.modify_bind, Action.bind_ok _ _ m₁ m₁ _ hread]
    refine (hrun (evaluator launch depth) (hvalue _)).trans ?_
    rw [h.running]
    rfl
  · exact { hafter with
      running := h.running
      status := rfl
      values := by
        intro other hother
        change ((m₁.setVariable name v).valueOf? other).getD "" = _
        rw [valueOf_setVariable]
        by_cases hsame : other = name
        · rw [if_pos hsame, hv, hsame, List.lookup_cons_self]
          rfl
        · have hskip : (other == name) = false := beq_false_of_ne hsame
          rw [if_neg hsame, List.lookup_cons, hskip]
          exact h.values other ((List.mem_cons.1 hother).resolve_left hsame) }

/-! ## Commands -/

def bound : Command → List String
  | .simple _ [(name, _)] [] [] => [name]
  | .sequence a b => bound b ++ bound a
  | _ => []

/-- How deep commands are nested. -/
def Command.height : Command → Nat
  | .both a b => max a.height b.height + 1
  | .sequence a b => max a.height b.height + 1
  | .branch test yes _ => max test.height yes.height + 1
  | _ => 1

/-- Commands that mean the same in both, given the names that have values before them. -/
def Sayable (known : List String) : Command → Prop
  | .nothing => True
  | .simple _ [] words [] => (∀ word ∈ words, isPlainWord known word = true) ∧
      ∀ t : Trace, (∀ p ∈ t.patterns words, Clear p) ∧
        ∀ w, isCallable ((t.patterns words).flatMap (namesOf w t)) = true
  | .simple _ [(name, word)] [] [] => isPlainWord known word = true ∧ isFree name = true
  | .both a b => Sayable known a ∧ Sayable known b
  | .sequence a b => Sayable known a ∧ Sayable (bound a ++ known) b
  | .branch test yes .nothing => Sayable known test ∧ Sayable known yes
  | _ => False

def Agrees (launch : Launcher) (c : Command) : Prop :=
  ∀ known t m place, Sayable known c → Shows known t m → place.last = false →
    Followed c.height (bound c ++ known) (fun w => execBy? w (perform? w) c t) t
      (fun depth => run launch depth place c) m

theorem heed_none (e : Evaluator) (m : Machine) (h : m.system.signalsTo m.self = []) :
    e.heed m = (.ok (), m) := by
  have hnone : ([] : List Nat).eraseDups.mergeSort.isEmpty = true := by simp
  unfold Evaluator.heed
  rw [Action.bind_ok _ _ m m () (Evaluator.obey_none m h), Action.get_bind, h]
  simp only [hnone, if_true]
  rfl

theorem run_follows (launch : Launcher) (c : Command) (d : Nat) (known later : List String)
    (t : Trace) (m : Machine) (place : Place) (h : Shows known t m)
    (hc : Followed d later (fun w => execBy? w (perform? w) c t) t
      (fun depth => (evaluator launch depth).runWith place c) m) :
    Followed (d + 1) later (fun w => execBy? w (perform? w) c t) t
      (fun depth => run launch depth place c) m := by
  obtain ⟨r, t', m', hc⟩ := hc
  refine ⟨r, t', m', { hc with runs := fun depth hd => ?_ }⟩
  cases depth with
  | zero => omega
  | succ depth =>
    have hon : ∀ option, m.isOn option = false := fun option => by simp [Machine.isOn, h.options]
    have hrun := hc.runs depth (by omega)
    unfold evaluator at hrun
    unfold run
    rw [Action.get_bind, hon 'n', if_neg Bool.false_ne_true, Action.attempt_bind, hrun]
    cases hended : t'.ended with
    | true => rfl
    | false =>
      have hoff : m'.isOn 'e' = false := by simp [Machine.isOn, hc.settled.options]
      simp only [Bool.false_eq_true, if_false]
      rw [Action.bind_ok _ _ m' m' () (heed_none _ m' hc.settled.signals), Action.get_bind, hoff]
      rfl

theorem agrees_simple (launch : Launcher) (hl : Gentle launch) (line : Nat)
    (assignments : List (String × Word)) (words : List Word) (redirects : List Redirect) :
    Agrees launch (.simple line assignments words redirects) := by
  intro known t m place hc h hplace
  refine run_follows launch _ 0 known _ t m place h ?_
  rcases redirects with _ | ⟨redirect, redirects⟩
  · rcases assignments with _ | ⟨⟨name, word⟩, _ | ⟨assignment, assignments⟩⟩
    · obtain ⟨hw, hwords⟩ := hc
      exact runSimple_follows launch known t m place hl hplace line words h hw (hwords t).1
        (hwords t).2
    · rcases words with _ | ⟨word', words⟩
      · exact runSimple_assigns launch known t m place line name word h hc.1 hc.2
      · exact hc.elim
    · exact hc.elim
  · rcases assignments with _ | ⟨⟨name, word⟩, _ | ⟨assignment, assignments⟩⟩
    · exact hc.elim
    · rcases words with _ | ⟨word', words⟩ <;> exact hc.elim
    · exact hc.elim

/-! ## Sequences -/

def boundAll : List Command → List String
  | [] => []
  | c :: cs => boundAll cs ++ bound c

def SayableAll (known : List String) : List Command → Prop
  | [] => True
  | c :: cs => Sayable known c ∧ SayableAll (bound c ++ known) cs

theorem boundAll_append (cs ds : List Command) :
    boundAll (cs ++ ds) = boundAll ds ++ boundAll cs := by
  induction cs with
  | nil => simp [boundAll]
  | cons c cs ih => simp [boundAll, ih]

theorem sayableAll_append (known : List String) (cs ds : List Command) :
    SayableAll known (cs ++ ds) ↔
      SayableAll known cs ∧ SayableAll (boundAll cs ++ known) ds := by
  induction cs generalizing known with
  | nil => simp [SayableAll, boundAll]
  | cons c cs ih => simp [SayableAll, boundAll, ih, and_assoc]

theorem boundAll_steps (c : Command) : boundAll (Evaluator.steps c) = bound c := by
  induction c with
  | sequence a b iha ihb => rw [Evaluator.steps, boundAll_append, iha, ihb, bound]
  | _ => simp [Evaluator.steps, boundAll]

theorem sayableAll_steps (known : List String) (c : Command) :
    SayableAll known (Evaluator.steps c) ↔ Sayable known c := by
  induction c generalizing known with
  | sequence a b iha ihb =>
    rw [Evaluator.steps, sayableAll_append, iha, boundAll_steps, ihb, Sayable]
  | _ => simp [Evaluator.steps, SayableAll]

theorem execAll_one (w : World) (act : Trace → List String → Option Trace) (c : Command)
    (t : Trace) : execAllBy? w act [c] t = execBy? w act c t := by
  have hnext : goOn (execAllBy? w act []) = some := funext goOn_some
  rw [execAllBy?, hnext, Option.bind_fun_some]

theorem execAll_steps (w : World) (act : Trace → List String → Option Trace) (c : Command)
    (t : Trace) (h : t.ended = false) :
    execAllBy? w act (Evaluator.steps c) t = execBy? w act c t := by
  induction c generalizing t with
  | sequence a b iha ihb =>
    rw [Evaluator.steps, execAll_append w act _ _ t h, iha t h, execBy?]
    congr 1
    funext u
    unfold goOn
    split
    · rfl
    · rename_i hu
      exact ihb u (by simpa using hu)
  | _ => exact execAll_one w act _ t

/-- Running commands one after the other. -/
theorem runSteps_follows (launch : Launcher) (cs : List Command) (hcs : ∀ c ∈ cs, Agrees launch c)
    (d : Nat) (hd : ∀ c ∈ cs, c.height ≤ d) (known : List String) (t : Trace) (m : Machine)
    (place : Place) (hs : SayableAll known cs) (h : Shows known t m) (hplace : place.last = false)
    (hne : cs ≠ []) :
    Followed d (boundAll cs ++ known) (fun w => execAllBy? w (perform? w) cs t) t
      (fun depth => (evaluator launch depth).runSteps place cs) m := by
  induction cs generalizing known t m with
  | nil => exact absurd rfl hne
  | cons c cs ih =>
    obtain ⟨hc, hrest⟩ := hs
    rw [List.forall_mem_cons] at hcs hd
    cases cs with
    | nil =>
      simp only [execAll_one]
      exact (hcs.1 known t m place hc h hplace).deeper d hd.1
    | cons next rest =>
      refine ((hcs.1 known t m { tested := place.tested } hc h rfl).deeper d hd.1).bind
        (fun w => execAllBy? w (perform? w) (next :: rest)) _ fun t' m' h' => ?_
      rw [boundAll, List.append_assoc]
      exact ih hcs.2 hd.2 _ t' m' hrest h' (by simp)

theorem steps_ne_nil (c : Command) : Evaluator.steps c ≠ [] := by
  induction c with
  | sequence a b iha ihb => exact fun h => iha (List.append_eq_nil_iff.1 h).1
  | _ => simp [Evaluator.steps]

theorem height_steps (c : Command) : ∀ d ∈ Evaluator.steps c, d.height ≤ c.height := by
  induction c with
  | sequence a b iha ihb =>
    intro d hd
    rw [Command.height]
    rcases List.mem_append.1 hd with hd | hd
    · have := iha d hd
      omega
    · have := ihb d hd
      omega
  | _ =>
    intro d hd
    obtain rfl := List.mem_singleton.1 hd
    exact Nat.le_refl _

theorem agrees_of_steps (launch : Launcher) (c : Command)
    (h : ∀ d ∈ Evaluator.steps c, Agrees launch d) : Agrees launch c := by
  cases c with
  | sequence a b =>
    intro known t m place hc hshows hplace
    refine run_follows launch _ (max a.height b.height) known _ t m place hshows ?_
    have hheight : ∀ d ∈ Evaluator.steps (.sequence a b), d.height ≤ max a.height b.height := by
      intro d hd
      rcases List.mem_append.1 hd with hd | hd
      · exact Nat.le_trans (height_steps a d hd) (Nat.le_max_left _ _)
      · exact Nat.le_trans (height_steps b d hd) (Nat.le_max_right _ _)
    have hsteps := runSteps_follows launch _ h _ hheight known t m place
      ((sayableAll_steps known (.sequence a b)).2 hc) hshows hplace (steps_ne_nil _)
    rw [boundAll_steps] at hsteps
    simp only [execAll_steps _ _ _ t hshows.running] at hsteps
    exact hsteps
  | _ => exact h _ (by simp [Evaluator.steps])

theorem agrees_nothing (launch : Launcher) : Agrees launch .nothing := by
  intro known t m place _ h _
  exact run_follows launch _ 0 known _ t m place h (.still h (fun _ => rfl) fun _ => rfl)

theorem status_beq {known : List String} {t : Trace} {m : Machine} (h : Shows known t m) :
    (m.status == 0) = decide (t.status = 0) := by
  rw [h.status, Bool.eq_iff_iff, beq_iff_eq, decide_eq_true_eq, ← UInt8.toNat_inj]
  rfl

/-- A command that is run only on success. -/
theorem chosen_follows (launch : Launcher) (c : Command) (hc : Agrees launch c) (d : Nat)
    (hd : c.height ≤ d) (known : List String) (t : Trace) (m : Machine) (place : Place)
    (hs : Sayable known c) (h : Shows known t m) (hplace : place.last = false)
    (exec : World → Option Trace) (action : Action Unit)
    (hother : Followed d known exec t (fun _ => action) m) :
    Followed d known (fun w => if t.status = 0 then execBy? w (perform? w) c t else exec w) t
      (fun depth => do if (← get).status == 0 then run launch depth place c else action) m := by
  by_cases hstatus : t.status = 0
  · have hchosen := ((hc known t m place hs h hplace).deeper d hd).mono known
      fun name hname => List.mem_append_right _ hname
    refine hchosen.of_eq rfl (fun w _ => if_pos hstatus) fun depth => ?_
    rw [Action.get_bind, status_beq h, decide_eq_true hstatus, if_pos rfl]
  · refine hother.of_eq rfl (fun w _ => if_neg hstatus) fun depth => ?_
    rw [Action.get_bind, status_beq h, decide_eq_false hstatus]
    rfl

theorem agrees_both (launch : Launcher) (a b : Command) (ha : Agrees launch a)
    (hb : Agrees launch b) : Agrees launch (.both a b) := by
  intro known t m place hc h hplace
  refine run_follows launch _ (max a.height b.height) known _ t m place h ?_
  refine ((ha known t m { tested := true } hc.1 h rfl).deeper _ (Nat.le_max_left _ _)).bind
    (fun w t => if t.status = 0 then execBy? w (perform? w) b t else some t)
    (fun depth => do if (← get).status == 0 then run launch depth place b)
    fun t' m' h' => ?_
  have h' : Shows known t' m' := h'.mono known fun name hname => List.mem_append_right _ hname
  exact chosen_follows launch b hb _ (Nat.le_max_right _ _) known t' m' place hc.2 h' hplace
    (fun _ => some t') (pure ()) (.still h' (fun _ => rfl) fun _ => rfl)

theorem agrees_branch (launch : Launcher) (test yes : Command) (htest : Agrees launch test)
    (hyes : Agrees launch yes) : Agrees launch (.branch test yes .nothing) := by
  intro known t m place hc h hplace
  refine run_follows launch _ (max test.height yes.height) known _ t m place h ?_
  refine ((htest known t m { tested := true } hc.1 h rfl).deeper _ (Nat.le_max_left _ _)).bind
    (fun w t => if t.status = 0 then execBy? w (perform? w) yes t else some (t.withStatus 0))
    (fun depth => do
      if (← get).status == 0 then run launch depth place yes else Action.setStatus 0)
    fun t' m' h' => ?_
  have h' : Shows known t' m' := h'.mono known fun name hname => List.mem_append_right _ hname
  exact chosen_follows launch yes hyes _ (Nat.le_max_right _ _) known t' m' place hc.2 h' hplace
    (fun _ => some (t'.withStatus 0)) (Action.setStatus 0)
    (Followed.step h' [] (t'.withStatus 0) { m' with status := 0 } (fun _ _ => rfl) rfl rfl
      (fun depth => rfl) h'.running rfl rfl (same_update ..) (.refl _ _))

/-- Whatever the commands do, the shell runs them as the trace has it. -/
theorem agrees (launch : Launcher) (hl : Gentle launch) (c : Command) : Agrees launch c := by
  have hsteps : ∀ d ∈ Evaluator.steps c, Agrees launch d := by
    induction c with
    | sequence a b iha ihb =>
      intro d hd
      rcases List.mem_append.1 hd with hd | hd
      · exact iha d hd
      · exact ihb d hd
    | nothing =>
      intro d hd
      obtain rfl := List.mem_singleton.1 hd
      exact agrees_nothing launch
    | simple line assignments words redirects =>
      intro d hd
      obtain rfl := List.mem_singleton.1 hd
      exact agrees_simple launch hl line assignments words redirects
    | both a b iha ihb =>
      intro d hd
      obtain rfl := List.mem_singleton.1 hd
      exact agrees_both launch a b (agrees_of_steps launch a iha) (agrees_of_steps launch b ihb)
    | branch test yes no ihtest ihyes ihno =>
      intro d hd
      obtain rfl := List.mem_singleton.1 hd
      cases no with
      | nothing =>
        exact agrees_branch launch test yes (agrees_of_steps launch test ihtest)
          (agrees_of_steps launch yes ihyes)
      | _ => exact fun known t m place hc => hc.elim
    | _ =>
      intro d hd
      obtain rfl := List.mem_singleton.1 hd
      exact fun known t m place hc => hc.elim
  exact agrees_of_steps launch c hsteps

end ImageTools.Shell
