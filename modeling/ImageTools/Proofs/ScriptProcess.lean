import ImageTools.Proofs.ScriptEvaluation
import ImageTools.Shell.Program

/-!
# A shell that runs a script

A shell reads a script line by line and runs each line before it reads the
next. Started on the file of a rendered script it does what the steps say, and
ends with the status that they leave.
-/

set_option autoImplicit false

namespace ImageTools.Shell
open Trace Parse

/-! ## Lines -/

theorem Action.bind_assoc {α β γ : Type} (x : Action α) (f : α → Action β) (g : β → Action γ)
    (m : Machine) : ((x >>= f) >>= g) m = (x >>= fun a => f a >>= g) m := by
  rw [run_bind, run_bind, run_bind]
  rcases x m with ⟨_ | a, m'⟩
  · rfl
  · exact (run_bind (f a) g m').symm

theorem height_unlined (c : Command) : c.unlined.height = c.height := by
  induction c with
  | both a b iha ihb => rw [Command.unlined, Command.height, Command.height, iha, ihb]
  | sequence a b iha ihb => rw [Command.unlined, Command.height, Command.height, iha, ihb]
  | branch test yes no ihtest ihyes _ =>
    rw [Command.unlined, Command.height, Command.height, ihtest, ihyes]
  | _ => rfl

/-- Runs the lines that are left. -/
def runRest (e : Evaluator) (place : Place) (lines : List (List Char)) (fuel count : Nat)
    (ran : Bool) (reader : Reader) : Action Unit := do
  unless ← e.runLines place lines fuel count ran reader do
    Action.setStatus 0

/-- A reader that knows what the machine has read so far. -/
def Machine.resumed (m : Machine) (reader : Reader) : Reader :=
  { reader with
    aliases := m.aliases, announced := m.documents.size, documents := m.documents }

section
variable (e : Evaluator) (place : Place) (lines : List (List Char)) (fuel count : Nat)
  (ran : Bool) (m : Machine) (h : Calm m) (reader after : Reader)

theorem runRest_none (hnext : (m.resumed reader).next fuel = .ok (none, m.resumed reader)) :
    runRest e place lines fuel (count + 1) true reader m = (.ok (), m) := by
  have hlines : e.runLines place lines fuel (count + 1) true reader m = (.ok true, m) := by
    unfold Evaluator.runLines
    rw [Action.get_bind]
    unfold Machine.resumed at hnext
    simp only [hnext]
    rfl
  unfold runRest
  rw [Action.bind_ok _ _ m m true hlines]
  rfl

include h

theorem runRest_blank (hnext : (m.resumed reader).next fuel = .ok (some .nothing, after)) :
    runRest e place lines fuel (count + 1) ran reader m =
      runRest e place lines fuel count ran after
        { m with reached := after.line, documents := after.documents } := by
  have hon : m.isOn 'v' = false := by simp [Machine.isOn, h.options]
  have hlines : e.runLines place lines fuel (count + 1) ran reader m =
      e.runLines place lines fuel count ran after
        { m with reached := after.line, documents := after.documents } := by
    rw [Evaluator.runLines, Action.get_bind]
    unfold Machine.resumed at hnext
    simp only [hnext, hon]
    rfl
  unfold runRest
  rw [Action.run_bind, hlines, ← Action.run_bind]

theorem runRest_line (hplace : place.last = false) (c : Command) (hc : c ≠ .nothing)
    (hnext : (m.resumed reader).next fuel = .ok (some c, after)) :
    runRest e place lines fuel (count + 1) ran reader m =
      (do e.run { place with last := false } c; runRest e place lines fuel count true after)
        { m with reached := after.line, documents := after.documents } := by
  have hon : ∀ option, m.isOn option = false := fun option => by simp [Machine.isOn, h.options]
  have hlines : e.runLines place lines fuel (count + 1) ran reader m =
      (do
        e.run { place with last := false } c
        e.runLines place lines fuel count true after : Action Bool)
          { m with reached := after.line, documents := after.documents } := by
    rw [Evaluator.runLines, Action.get_bind]
    unfold Machine.resumed at hnext
    simp only [hnext, hon, hplace, Bool.false_and]
    let read : Machine := { m with reached := after.line, documents := after.documents }
    have hread : read.isOn 'n' = false := hon 'n'
    cases c with
    | nothing => exact absurd rfl hc
    | _ =>
      rw [Action.set_bind, if_neg Bool.false_ne_true, Action.get_bind, hread]
      rfl
  unfold runRest
  rw [Action.run_bind, hlines, ← Action.run_bind, Action.bind_assoc]

end

theorem runText_rest (place : Place) (text : String) (m : Machine) :
    ∃ lines, ∀ e : Evaluator, e.runText place text m =
      runRest e place lines (2 * text.toList.length + 8 + Evaluator.aliasRoom)
        (text.toList.length + 1) false (Reader.ofText 1 text.toList #[]).1 m := by
  refine ⟨if m.isOn 'v' || text.toList.contains 'v' then Evaluator.linesOf text.toList else [],
    fun e => ?_⟩
  unfold Evaluator.runText Reader.ofText
  dsimp only
  rw [Action.get_bind]
  rfl

theorem before_resumed {m : Machine} (h : Calm m) {reader : Reader} {ts : List Token}
    (hr : Before reader ts) : Before (m.resumed reader) ts :=
  ⟨hr.tokens, hr.quiet, h.aliases, h.documents⟩

/-- Lines are read and run in turn, up to one that ends the shell. -/
theorem runRest_follows (launch : Launcher) (hl : Gentle launch) (place : Place)
    (hplace : place.last = false) (lines : List (List Char)) (n : Nat) (hn : 1 < n) (d : Nat)
    (clauses : List Clause) (hc : ∀ c ∈ clauses, c.Reads (chainOf n) ∧ c.IsLine)
    (hd : ∀ c ∈ clauses.filterMap Clause.command?, c ≠ .nothing ∧ c.height ≤ d) (count : Nat)
    (hcount : clauses.length < count) (ran : Bool)
    (hran : ran = true ∨ clauses.filterMap Clause.command? ≠ []) (known : List String)
    (hs : SayableAll known (clauses.filterMap Clause.command?)) (t : Trace) (m : Machine)
    (h : Shows known t m) (reader : Reader)
    (hr : Before reader (clauses.flatMap Clause.tokens ++ [.ending])) :
    Followed d (boundAll (clauses.filterMap Clause.command?) ++ known)
      (fun w => execAllBy? w (perform? w) (clauses.filterMap Clause.command?) t) t
      (fun depth => runRest (evaluator launch depth) place lines (n + 1) count ran reader) m := by
  induction clauses generalizing count ran known t m reader with
  | nil =>
    obtain rfl : ran = true := hran.resolve_right (by simp)
    obtain ⟨count, rfl⟩ : ∃ k, count = k + 1 := ⟨count - 1, by omega⟩
    have hnone := next_none (n + 1) _ (before_resumed h.toCalm hr)
    exact .still h (fun _ => rfl) fun depth => runRest_none _ place lines _ count m reader hnone
  | cons clause clauses ih =>
    obtain ⟨count, rfl⟩ : ∃ k, count = k + 1 := ⟨count - 1, by omega⟩
    rw [List.forall_mem_cons] at hc
    rw [List.flatMap_cons, List.append_assoc] at hr
    obtain ⟨c, after, hnext, hafter, hunlined⟩ := next_line clause n hn hc.1.1 hc.1.2 _
      (before_resumed h.toCalm hr)
    let m₁ : Machine := { m with reached := after.line, documents := after.documents }
    have h₁ : Shows known t m₁ := h.same m₁ ⟨rfl, rfl, rfl, rfl, rfl,
      hafter.documents.trans h.documents.symm, rfl, rfl, rfl⟩ (.refl _ _) rfl
    have hshort : clauses.length < count := by simpa using hcount
    cases clause with
    | blank =>
      obtain rfl : c = .nothing := by
        cases c <;> first | rfl | cases hunlined
      exact (ih hc.2 hd count hshort ran hran known hs t m₁ h₁ after hafter).of_eq rfl
        (fun _ _ => rfl) fun depth => runRest_blank _ place lines _ count ran m h.toCalm reader
          after hnext
    | chain ts read sign =>
      obtain rfl : c.unlined = read := hunlined
      obtain ⟨⟨hsome, hheight⟩, hd⟩ := List.forall_mem_cons.1 hd
      rw [height_unlined] at hheight
      have hc' : c ≠ .nothing := by
        rintro rfl
        exact hsome rfl
      obtain ⟨hsayable, hrest⟩ := hs
      rw [sayable_unlined] at hsayable
      rw [bound_unlined] at hrest
      have hrun := ((agrees launch hl c known t m₁ { place with last := false } hsayable h₁
        rfl).deeper d hheight).bind
          (fun w => execAllBy? w (perform? w) (clauses.filterMap Clause.command?))
          (fun depth => runRest (evaluator launch depth) place lines (n + 1) count true after)
          fun t' m' h' =>
            ih hc.2 hd count hshort true (Or.inl rfl) _ hrest t' m' h' after hafter
      change Followed d (boundAll (c.unlined :: clauses.filterMap Clause.command?) ++ known)
        (fun w => execAllBy? w (perform? w) (c.unlined :: clauses.filterMap Clause.command?) t) t
        _ m
      rw [boundAll, bound_unlined, List.append_assoc]
      refine hrun.of_eq rfl (fun w _ => ?_) fun depth =>
        runRest_line _ place lines _ count ran m h.toCalm reader after hplace c hc' hnext
      rw [execAllBy?, exec_unlined]

/-! ## The start and the end of a shell -/

/-- A shell on these files that has run nothing. -/
structure Started (s : System) (m : Machine) : Prop extends Calm m where
  status : m.status = 0
  system : m.system = s

theorem Started.give {s : System} {m : Machine} (h : Started s m) (name : String)
    (value : Option String) (exported : Bool) :
    Started s (m.setVariable name
      { (m.binding? name).getD {} with value := value, exported := exported }) := by
  have hold : ((m.binding? name).getD {}).readOnly = false := by
    cases hb : m.binding? name with
    | some v => exact h.writable name v hb
    | none => rfl
  refine ⟨h.toCalm.set name _ hold, ?_, (system_setVariable m name _).trans h.system⟩
  obtain ⟨bindings, found, index, place, hset, -⟩ := setVariable_binding m name
    { (m.binding? name).getD {} with value := value, exported := exported }
  rw [hset]
  exact h.status

theorem foldl_started {s : System} (f : Machine → String × String → Machine)
    (hf : ∀ m b, Started s m → Started s (f m b)) (bs : List (String × String)) (m : Machine)
    (h : Started s m) : Started s (bs.foldl f m) := by
  induction bs generalizing m with
  | nil => exact h
  | cons b bs ih => exact ih _ (hf m b h)

theorem withEnvironment_started {s : System} (m : Machine) (h : Started s m)
    (env : List (String × String)) : Started s (withEnvironment m env) := by
  have hset : ∀ exported (m : Machine) (b : String × String), Started s m → Started s
      (m.setVariable b.1 { (m.binding? b.1).getD {} with
        value := some b.2, exported := ((m.binding? b.1).getD {}).exported || exported }) :=
    fun exported m b h => h.give b.1 (some b.2) _
  exact foldl_started _ (hset false) _ _ (foldl_started _ (hset true) _ _
    (foldl_started _ (hset false) _ _ h))

/-- Whatever the environment says, a shell begins with its own separators. -/
theorem withEnvironment_separators (m : Machine) (env : List (String × String)) :
    (withEnvironment m env).valueOf? "IFS" = some " \t\n" := by
  unfold withEnvironment
  simp only [List.foldl_cons, List.foldl_nil, valueOf_setVariable]
  rfl

theorem shows_ofProcess (p : Process) (s : System) (hs : s.signalsTo p.number = [])
    (ho : ∃ c, p.descriptors.get? 1 = some c ∧ Takes s c) (hb : Bracketed s.files) :
    Shows [] {} (Machine.ofProcess p s) ∧ (Machine.ofProcess p s).system = s := by
  let m : Machine :=
    { system := s, own := p.descriptors, name := p.words.headD "", args := []
      shell := p.number, self := p.number, parent := p.parent, ignored := p.ignored, line := 0 }
  have hm : Started s m :=
    ⟨⟨rfl, rfl, rfl, rfl, rfl, rfl, (fun _ _ h => by cases h), hs, ho, hb⟩, rfl, rfl⟩
  let m₁ : Machine := withEnvironment m p.env
  have h₁ : Started s m₁ := withEnvironment_started m hm p.env
  let m₂ : Machine := m₁.setVariable "PWD"
    { (m₁.binding? "PWD").getD {} with value := some (startDirectory m₁), exported := true }
  have h₂ : Started s m₂ := h₁.give "PWD" _ _
  have hseparators : m₂.separators = Trace.separators := by
    rw [Machine.separators, valueOf_setVariable, if_neg (by decide), withEnvironment_separators]
    rfl
  have hsettled : Settled m₂ := ⟨h₂.toCalm, hseparators⟩
  refine ⟨{ hsettled.same (Machine.ofProcess p s)
    ⟨rfl, rfl, rfl, rfl, rfl, rfl, rfl, rfl, rfl⟩ (.refl _ _) with
      running := rfl
      status := h₂.status
      values := fun name hname => by cases hname }, h₂.system⟩

theorem conclude_runs (e : Evaluator) (action : Action Unit) (m m' : Machine) (ended : Bool)
    (h : action m = (if ended then .error .finish else .ok (), m')) (hm : Calm m') :
    e.conclude action m = (m'.system, .exited (m'.status % 256)) := by
  unfold Evaluator.conclude
  rw [h]
  cases ended <;> simp [hm.traps, hm.jobs, Evaluator.drain]

/-! ## Script files -/

theorem readSetup_path (n : Nat) (path : String) (args : List String)
    (hp : ∀ c ∈ path.toList.head?, c ≠ '-' ∧ c ≠ '+') (m : Machine) :
    Builtin.readSetup true (n + 1) (path :: args) m =
      (.ok { args := some (path :: args) }, m) := by
  unfold Builtin.readSetup
  generalize path.toList = cs at hp
  cases cs with
  | nil => rfl
  | cons c cs =>
    obtain ⟨hminus, hplus⟩ := hp c rfl
    simp [hminus, hplus]

theorem readCommands_file (path : String) (bytes : ByteArray) (m : Machine)
    (h : m.system.files.read (Text.gather path) = .ok bytes) :
    Builtin.readCommands path m = (.ok (Text.bytewise (bytes.toList.filter (· != 0))), m) := by
  unfold Builtin.readCommands
  rw [Action.get_bind]
  unfold FileSystem.read at h
  cases hopen : m.system.files.openForReading (Text.gather path) with
  | error e =>
    rw [hopen] at h
    cases h
  | ok i =>
    rw [hopen] at h
    have hread : m.system.files.readNode i = .ok bytes := h
    simp only [hread]
    rfl

/-- A shell that is given a path runs the text of the file. -/
theorem start_path (e : Evaluator) (path : String) (args : List String) (text : String)
    (hp : ∀ c ∈ path.toList.head?, c ≠ '-' ∧ c ≠ '+') (m : Machine) (ho : m.options = [])
    (h : Builtin.readCommands path m = (.ok text, m)) :
    start e (path :: args) m = e.runText {} text { m with name := path, args := args } := by
  have hon : ∀ option, m.isOn option = false := fun option => by simp [Machine.isOn, ho]
  unfold start
  rw [Action.bind_ok _ _ m m _ (readSetup_path _ path args hp m), Action.get_bind, hon 'i']
  simp only [Bool.false_eq_true, if_false, Option.getD_some]
  rw [Action.get_bind, hon 's']
  exact Action.bind_ok _ _ m m text h

end ImageTools.Shell

namespace ImageTools.Script
open Shell Shell.Parse Shell.Trace

/-! ## The text of a script -/

theorem isLine_clauses (s : Script) : ∀ c ∈ clauses s, c.IsLine := by
  intro c hc
  simp only [clauses, List.mem_append, List.mem_map, List.mem_cons] at hc
  rcases hc with ⟨v, -, rfl⟩ | rfl | ⟨step, -, rfl⟩
  · rfl
  · trivial
  · unfold stepClause
    split
    · trivial
    · rfl

theorem height_step (elevated : Bool) (step : Step) (c : Command)
    (h : stepCommand elevated step = some c) : c ≠ .nothing ∧ c.height ≤ 4 := by
  cases step with
  | blank => cases h
  | command words =>
    cases words with
    | nil => cases h
    | cons name args =>
      obtain rfl := Option.some.inj h
      simp [simpleCommand, Command.height]
  | _ =>
    obtain rfl := Option.some.inj h
    simp [simpleCommand, testCommand, abortCommand, Command.height]

theorem height_commands (s : Script) : ∀ c ∈ commands s, c ≠ .nothing ∧ c.height ≤ 4 := by
  intro c hc
  rcases List.mem_append.1 hc with hc | hc
  · obtain ⟨v, -, rfl⟩ := List.mem_map.1 hc
    simp [Command.height]
  · obtain ⟨step, -, hstep⟩ := List.mem_filterMap.1 hc
    exact height_step s.elevated step c hstep

theorem run_commands (w : World) (s : Script) (hp : ∀ step ∈ s.steps, IsPlain step) :
    run? w s.render = execAllBy? w (perform? w) (commands s) {} := by
  rw [run?, runBy_render w _ s hp, commands, execAll_append _ _ _ _ _ rfl, exec_settings,
    Option.bind_some, goOn_running _ _ rfl]

theorem runText_follows (launch : Launcher) (hl : Gentle launch) (s : Script)
    (hp : ∀ step ∈ s.steps, IsPlain step) (hs : ∀ step ∈ s.steps, IsSayable step) (m : Machine)
    (h : Shows [] {} m) (place : Place) (hplace : place.last = false) :
    Followed 4 (boundAll (commands s)) (fun w => run? w s.render) {}
      (fun depth => (evaluator launch depth).runText place s.render) m := by
  obtain ⟨lines, hlines⟩ := runText_rest place s.render m
  obtain ⟨n, hfuel, hn⟩ : ∃ n, 2 * s.render.toList.length + 8 + Evaluator.aliasRoom = n + 1 ∧
      s.render.toList.length + 1 < n :=
    ⟨2 * s.render.toList.length + 7 + Evaluator.aliasRoom, by omega, by omega⟩
  have hcommands : (Clause.blank :: clauses s).filterMap Clause.command? = commands s :=
    clauses_commands s
  have hall : ∀ c ∈ Clause.blank :: clauses s, c.Reads (chainOf n) ∧ c.IsLine :=
    List.forall_mem_cons.2 ⟨⟨trivial, trivial⟩, fun c hc =>
      ⟨clauses_read s hp n (by omega) c hc, isLine_clauses s c hc⟩⟩
  have hcount : (Clause.blank :: clauses s).length < s.render.toList.length + 1 := by
    have hlong := (length_render s).1
    rw [List.length_cons, length_clauses]
    omega
  have hbefore : Before (Reader.ofText 1 s.render.toList #[]).1
      ((Clause.blank :: clauses s).flatMap Clause.tokens ++ [.ending]) := by
    refine ⟨tokens_render s, fun t ht => quiet_render s t ?_, rfl, rfl⟩
    rwa [tokens_render]
  have hrest := runRest_follows launch hl place hplace lines n (by omega) 4 _ hall
    (by rw [hcommands]; exact height_commands s) _ hcount false
    (Or.inr (by rw [hcommands]; simp [commands, settings])) []
    (by rw [hcommands]; exact sayable_commands s hs) {} m h _ hbefore
  rw [hcommands, List.append_nil] at hrest
  refine hrest.of_eq rfl (fun w _ => run_commands w s hp) fun depth => ?_
  rw [hlines, hfuel]

/-! ## A shell on the file of a script -/

/-- A shell that is started on the file of the script: it has an output that takes what it is
given, no signal is on its way to it, and the name `[` stands for itself. -/
structure StartsOn (s : Script) (p : Process) (system : System) : Prop where
  words : ∃ shell path args bytes, p.words = shell :: path :: args ∧
    (∀ c ∈ path.toList.head?, c ≠ '-' ∧ c ≠ '+') ∧
    system.files.read (Text.gather path) = .ok bytes ∧
    Text.bytewise (bytes.toList.filter (· != 0)) = s.render
  signals : system.signalsTo p.number = []
  output : ∃ c, p.descriptors.get? 1 = some c ∧ Takes system c
  bracket : Bracketed system.files

/-- A shell on the file of a rendered script does what the steps say, and ends with their
status: there is a world that tells of the run. -/
theorem program_effects (launch : Launcher) (hl : Gentle launch) (s : Script)
    (hp : ∀ step ∈ s.steps, IsPlain step) (hs : ∀ step ∈ s.steps, IsSayable step) (p : Process)
    (system : System) (h : StartsOn s p system) :
    ∃ r w t after, w.Tells 0 system.files r ∧ effects? w s.elevated s.steps begun = some t ∧
      program launch p system = (after, .exited t.status.toNat) ∧
      after.files = filesAfter system.files r := by
  obtain ⟨shell, path, args, bytes, hwords, hpath, hread, htext⟩ := h.words
  obtain ⟨hshows, hsystem⟩ := shows_ofProcess p system h.signals h.output h.bracket
  let m : Machine := Machine.ofProcess p system
  let m₁ : Machine := { m with name := path, args := args }
  have hshows₁ : Shows [] {} m₁ := hshows.same m₁ (same_update ..) (.refl _ _) rfl
  have hcommands : Builtin.readCommands path m = (.ok s.render, m) := by
    rw [← htext]
    refine readCommands_file path bytes m ?_
    rw [hsystem, hread]
  obtain ⟨r, t, m', hfollows⟩ := runText_follows launch hl s hp hs m₁ hshows₁ {} rfl
  have htells := worldOf_tells system.files [] r
  have hrun : start (evaluator launch depthLimit) p.words.tail m =
      (if t.ended then .error .finish else .ok (), m') := by
    rw [hwords]
    exact (start_path _ path args s.render hpath m hshows.options hcommands).trans
      (hfollows.runs depthLimit (by decide))
  have htold := hfollows.told (worldOf system.files r) (by
    change World.Tells _ 0 (Machine.ofProcess p system).system.files r
    rw [hsystem]
    exact htells)
  rw [run_render _ s hp] at htold
  refine ⟨r, _, t, m'.system, htells, htold, ?_, ?_⟩
  · have hended := conclude_runs (evaluator launch depthLimit) _ m m' t.ended hrun
      hfollows.settled.toCalm
    rw [hfollows.status] at hended
    exact hended
  · have hfiles := hfollows.files
    change m'.system.files = filesAfter (Machine.ofProcess p system).system.files r at hfiles
    rwa [hsystem] at hfiles

def greeting : Script := { steps := [.command ["make"], .announce "done"] }

/-- A work directory with one script, and an output that is a pipe. -/
def greetingSystem : System where
  files :=
    { FileSystem.empty with
      nodes := #[.directory [("s", 1)], .file 0o755 greeting.render.toUTF8] }
  channels := #[{ target := .pipe .empty 0, use := { reads := true, writes := true } }]

def greeter : Process :=
  { number := 7, parent := 1, words := ["sh", "s"], env := [], descriptors := [(1, 0)] }

/-- Every program that the shell starts ends well at once. -/
theorem greeting_ends : (program (fun _ _ s => .ok (s, .exited 0)) greeter greetingSystem).2 =
    .exited 0 := by
  have hgentle : Gentle fun _ _ s => .ok (s, .exited 0) := by
    intro path p s after ending h
    cases h
    exact ⟨.refl p.parent s, by decide⟩
  have hplain : ∀ step ∈ greeting.steps, IsPlain step :=
    List.forall_mem_cons.2 ⟨⟨rfl, rfl⟩, List.forall_mem_cons.2 ⟨trivial, by simp⟩⟩
  have hsayable : ∀ step ∈ greeting.steps, IsSayable step :=
    List.forall_mem_cons.2 ⟨⟨by decide, by rintro words ⟨⟩; decide⟩,
      List.forall_mem_cons.2 ⟨⟨by decide, by rintro words ⟨⟩⟩, by simp⟩⟩
  have hstarts : StartsOn greeting greeter greetingSystem := by
    refine ⟨⟨"sh", "s", [], greeting.render.toUTF8, rfl, ?_, rfl, by decide +kernel⟩, rfl,
      ⟨0, rfl, _, rfl, rfl, by rintro ⟨⟩⟩, ?_⟩
    · rintro c ⟨⟩
      decide
    unfold Bracketed
    decide +kernel
  obtain ⟨r, w, t, after, -, heffects, hprogram, -⟩ :=
    program_effects _ hgentle greeting hplain hsayable greeter greetingSystem hstarts
  obtain rfl := Option.some.inj heffects
  rw [hprogram]
  rfl

end ImageTools.Script
