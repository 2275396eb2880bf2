import ImageTools.Proofs.CommandPosition
import ImageTools.Proofs.ScriptRun
import ImageTools.Proofs.SetCommands

/-!
# Chains of checked commands

A chain runs its commands in turn and stops at the first that fails. Every
check reads the status that the command before it has left, and leaves one of
its own. So the run is followed command by command here: the tests and the
`exit` of the script are among its events.
-/

set_option autoImplicit false

namespace ImageTools

namespace Shell.Trace

/-! ## Every command as an event -/

/-- The status of a command that runs after `n` others. What is printed always
succeeds, and a comparison of numbers holds or not; all others are free. -/
def statusAt (w : World) (n : Nat) : List String → UInt8
  | [] => w.statuses n
  | name :: args =>
    if name = "echo" then 0
    else if name = "[" then
      match test? args with
      | some holds => if holds then 0 else 1
      | none => w.statuses n
    else w.statuses n

def record (t : Trace) (events : List Event) (status : UInt8) : Trace :=
  { t with events := t.events ++ events, status := status }

def stop (t : Trace) : Trace := { t with ended := true }

@[simp] theorem record_events (t : Trace) (events : List Event) (status : UInt8) :
    (t.record events status).events = t.events ++ events := rfl

@[simp] theorem record_status (t : Trace) (events : List Event) (status : UInt8) :
    (t.record events status).status = status := rfl

@[simp] theorem record_record (t : Trace) (events later : List Event) (status last : UInt8) :
    (t.record events status).record later last = t.record (events ++ later) last := by
  simp [record]

theorem record_nil (t : Trace) : t.record [] t.status = t := by
  simp [record]

def enact? (w : World) (t : Trace) : List String → Option Trace
  | [] => some (t.withStatus 0)
  | name :: args =>
    if name = "exit" then
      (exitStatus? args).map fun status => (t.record [⟨name :: args, status⟩] status).stop
    else
      let status := statusAt w t.events.length (name :: args)
      some (t.record [⟨name :: args, status⟩] status)

theorem enact_command (w : World) (t : Trace) (name : String) (args : List String)
    (h : name ≠ "exit") :
    enact? w t (name :: args) =
      some (t.record [⟨name :: args, statusAt w t.events.length (name :: args)⟩]
        (statusAt w t.events.length (name :: args))) := by
  rw [enact?, if_neg h]

end Shell.Trace

namespace Script
open Shell Shell.Lexer Shell.Parse Shell.Trace

/-! ## What a chain is to do -/

def tested (status : UInt8) : Event :=
  ⟨["[", toString status.toNat, "-ne", "0", "]"], if status = 0 then 1 else 0⟩

def passed (words : List String) : List Event := [⟨words, 0⟩, tested 0]

def failed (words : List String) (status : UInt8) (message : String) : List Event :=
  [⟨words, status⟩, tested status, ⟨"echo" :: shown "ERROR" message, 0⟩, ⟨["exit", "1"], 1⟩]

/-- None of the commands fails, if `n` events come before the first; every
command is followed by one test. -/
def AllPass (w : World) (n : Nat) (cs : List (List String × String)) : Prop :=
  ∀ k, ∀ h : k < cs.length, statusAt w (n + 2 * k) cs[k].1 = 0

/-- What a chain makes of a run: all of its commands have succeeded, or those
up to the first that failed have run and the message of that one was shown. -/
def StopsAtFailure (w : World) (cs : List (List String × String)) (t t' : Trace) : Prop :=
  (AllPass w t.events.length cs ∧ t' = t.record (cs.flatMap fun c => passed c.1) 0) ∨
  ∃ before words message after status,
    cs = before ++ (words, message) :: after ∧
    AllPass w t.events.length before ∧
    statusAt w (t.events.length + 2 * before.length) words = status ∧ status ≠ 0 ∧
    t' = (t.record ((before.flatMap fun c => passed c.1) ++ failed words status message) 1).stop

def Callable (words : List String) : Prop :=
  ∃ name args, words = name :: args ∧ ¬Misread name ∧ name ≠ "exit"

theorem AllPass.cons_iff (w : World) (n : Nat) (c : List String × String)
    (cs : List (List String × String)) :
    AllPass w n (c :: cs) ↔ statusAt w n c.1 = 0 ∧ AllPass w (n + 2) cs := by
  constructor
  · intro h
    refine ⟨h 0 (by simp), fun k hk => ?_⟩
    have hnext := h (k + 1) (by simpa using hk)
    rwa [List.getElem_cons_succ, show n + 2 * (k + 1) = n + 2 + 2 * k by omega] at hnext
  · rintro ⟨hfirst, hrest⟩ k hk
    cases k with
    | zero => exact hfirst
    | succ k =>
      rw [List.getElem_cons_succ, show n + 2 * (k + 1) = n + 2 + 2 * k by omega]
      exact hrest k (by simpa using hk)

structure Running (t : Trace) : Prop where
  bindings : t.bindings = colours
  ended : t.ended = false

theorem Running.record {t : Trace} (h : Running t) (events : List Event) (status : UInt8) :
    Running (t.record events status) := ⟨h.bindings, h.ended⟩

/-! ## One command and its check -/

variable (w : World)

theorem enact_test (t : Trace) :
    execBy? w (enact? w) testCommand t =
      some (t.record [tested t.status] (if t.status = 0 then 1 else 0)) := by
  refine (exec_words w _ t _ _ (arguments_test w t)).trans ?_
  have hstatus : statusAt w t.events.length ["[", toString t.status.toNat, "-ne", "0", "]"] =
      if t.status = 0 then 1 else 0 := by
    rw [statusAt, if_neg (by decide), if_pos rfl, test_status]
    by_cases h : t.status = 0 <;> simp [h]
  rw [enact_command w t _ _ (by decide), hstatus]
  rfl

theorem enact_abort (t : Trace) (message : String) (ht : Running t) :
    execBy? w (enact? w) (abortCommand message) t =
      some (t.record [⟨"echo" :: shown "ERROR" message, 0⟩, ⟨["exit", "1"], 1⟩] 1).stop := by
  have hecho := exec_words w (enact? w) t _ _
    (arguments_message w t "ERROR" message ht.bindings (Or.inl rfl))
  rw [enact_command w t _ _ (by decide), statusAt, if_pos rfl] at hecho
  rw [abortCommand, execBy?, hecho, Option.bind_some, goOn_running _ _ (ht.record _ 0).ended,
    record_status, if_pos rfl, exec_words w _ _ _ _ (arguments_exit w _)]
  exact congrArg (fun t => some (stop t)) (record_record t _ _ 0 1)

theorem enact_check (t : Trace) (message : String) (ht : Running t) :
    execBy? w (enact? w) (.branch testCommand (abortCommand message) .nothing) t =
      if t.status = 0 then some (t.record [tested 0] 0)
      else some (t.record [tested t.status, ⟨"echo" :: shown "ERROR" message, 0⟩,
        ⟨["exit", "1"], 1⟩] 1).stop := by
  rw [execBy?, enact_test, Option.bind_some, goOn_running _ _ (ht.record _ _).ended, record_status]
  by_cases h : t.status = 0
  · rw [if_pos h, if_pos h, if_neg (by decide), h]
    rfl
  · rw [if_neg h, if_neg h, if_pos rfl, enact_abort w _ message (ht.record _ 0), record_record]
    rfl

def pairCommands (c : List String × String) : List Command :=
  [.command c.1, .abortOnFailure c.2].filterMap (stepCommand false)

theorem enact_pair (t : Trace) (c : List String × String) (hc : Callable c.1) (ht : Running t) :
    execAllBy? w (enact? w) (pairCommands c) t =
      if statusAt w t.events.length c.1 = 0 then some (t.record (passed c.1) 0)
      else some (t.record (failed c.1 (statusAt w t.events.length c.1) c.2) 1).stop := by
  obtain ⟨words, message⟩ := c
  obtain ⟨name, args, rfl, -, hexit⟩ := hc
  have hcommand := exec_words w (enact? w) t _ _ (arguments_words w t (name :: args))
  rw [enact_command w t name args hexit] at hcommand
  have hpair : pairCommands (name :: args, message) =
      [simpleCommand ((name :: args).map wordPieces),
        .branch testCommand (abortCommand message) .nothing] := rfl
  have hlast : goOn (execAllBy? w (enact? w) []) = some := funext goOn_some
  rw [hpair, execAllBy?, hcommand, Option.bind_some, goOn_running _ _ (ht.record _ _).ended,
    execAllBy?, hlast, Option.bind_fun_some, enact_check w _ message (ht.record _ _),
    record_status, record_record, record_record]
  by_cases h : statusAt w t.events.length (name :: args) = 0
  · rw [if_pos h, if_pos h, h]
    rfl
  · rw [if_neg h, if_neg h]
    rfl

/-! ## A chain -/

variable {w}

theorem StopsAtFailure.nil (t : Trace) (h : t.status = 0) : StopsAtFailure w [] t t := by
  refine Or.inl ⟨fun k hk => absurd hk (by simp), ?_⟩
  rw [List.flatMap_nil, ← h, record_nil]

theorem StopsAtFailure.fails (t : Trace) (c : List String × String)
    (cs : List (List String × String)) (h : statusAt w t.events.length c.1 ≠ 0) :
    StopsAtFailure w (c :: cs) t
      (t.record (failed c.1 (statusAt w t.events.length c.1) c.2) 1).stop :=
  Or.inr ⟨[], c.1, c.2, cs, _, rfl, fun k hk => absurd hk (by simp), rfl, h, rfl⟩

/-- A chain goes on after a command that succeeds. -/
theorem StopsAtFailure.cons {t t' : Trace} {c : List String × String}
    {cs : List (List String × String)} (hc : statusAt w t.events.length c.1 = 0)
    (h : StopsAtFailure w cs (t.record (passed c.1) 0) t') : StopsAtFailure w (c :: cs) t t' := by
  have hlength : (t.record (passed c.1) 0).events.length = t.events.length + 2 := by
    simp [passed]
  rw [StopsAtFailure, hlength] at h
  rcases h with ⟨hall, rfl⟩ | ⟨before, words, message, after, status, rfl, hall, hstatus, hne, rfl⟩
  · exact Or.inl ⟨(AllPass.cons_iff w _ c cs).2 ⟨hc, hall⟩, record_record t _ _ 0 0⟩
  · refine Or.inr ⟨c :: before, words, message, after, status, rfl,
      (AllPass.cons_iff w _ c before).2 ⟨hc, hall⟩, ?_, hne, ?_⟩
    · rw [← hstatus, List.length_cons]
      congr 1
      omega
    · rw [record_record, List.flatMap_cons, List.append_assoc]

/-- The pairs of a chain run as it is to do, from any point of a run that has not failed. -/
theorem enact_pairs (cs : List (List String × String)) (hcs : ∀ c ∈ cs, Callable c.1) (t : Trace)
    (ht : Running t) (hs : t.status = 0) :
    ∃ t', execAllBy? w (enact? w) (cs.flatMap pairCommands) t = some t' ∧
      StopsAtFailure w cs t t' := by
  induction cs generalizing t with
  | nil => exact ⟨t, rfl, .nil t hs⟩
  | cons c cs ih =>
    rw [List.flatMap_cons, execAll_append w _ _ _ _ ht.ended, enact_pair w t c (hcs c (by simp)) ht]
    by_cases hc : statusAt w t.events.length c.1 = 0
    · obtain ⟨t', hrun, hstops⟩ :=
        ih (fun d hd => hcs d (by simp [hd])) (t.record (passed c.1) 0) (ht.record _ 0) rfl
      rw [if_pos hc, Option.bind_some, goOn_running _ _ (ht.record _ 0).ended]
      exact ⟨t', hrun, hstops.cons hc⟩
    · rw [if_neg hc]
      exact ⟨_, rfl, .fails t c cs hc⟩

end Script

namespace ScriptSet
open Script Shell Shell.Trace

/-! ## The chains of the script set -/

def chainPairs (last message : String) : List (List String × String) :=
  [(["./build.sh"], message), (["./sync.sh"], message), ([last], message)]

def chains (e : Emulator) : List (String × List (List String × String)) :=
  [("run.sh", [(e.words, "Run command failed")]),
    ("debug.sh", [(e.withDebugStub.words, "Debug Run command failed")]),
    ("all.sh", chainPairs "./run.sh" "All command failed"),
    ("dll.sh", chainPairs "./debug.sh" "Debug All command failed")]

theorem plain_checkedChain (cs : List (List String × String))
    (hcs : ∀ c ∈ cs, ∃ name args, c.1 = name :: args ∧ ¬Misread name) :
    ∀ step ∈ (checkedChain cs).steps, IsPlain step := by
  intro step hstep
  rw [(checkedChain_steps cs).2, List.mem_flatMap] at hstep
  obtain ⟨c, hc, hstep⟩ := hstep
  obtain ⟨name, args, hwords, hname⟩ := hcs c hc
  simp only [List.mem_cons, List.not_mem_nil, or_false] at hstep
  rcases hstep with rfl | rfl
  · exact hwords ▸ isPlain_command name args hname
  · trivial

theorem enact_checkedChain (w : World) (cs : List (List String × String))
    (hcs : ∀ c ∈ cs, Callable c.1) :
    ∃ t, runBy? w (enact? w) (checkedChain cs).render = some t ∧ StopsAtFailure w cs begun t := by
  have hplain := plain_checkedChain cs fun c hc =>
    let ⟨name, args, hwords, hname, _⟩ := hcs c hc
    ⟨name, args, hwords, hname⟩
  have hpairs : (checkedChain cs).steps.filterMap (stepCommand (checkedChain cs).elevated) =
      cs.flatMap pairCommands := by
    obtain ⟨helevated, hsteps⟩ := checkedChain_steps cs
    rw [helevated, hsteps, List.filterMap_flatMap]
    rfl
  obtain ⟨t, hrun, hstops⟩ := enact_pairs cs hcs begun ⟨rfl, rfl⟩ rfl
  refine ⟨t, ?_, hstops⟩
  rw [runBy_render w _ _ hplain, hpairs, hrun]

theorem chains_files (arch : Arch) (baseDir outDir : String) (s : Settings) :
    ∀ c ∈ chains (Emulator.ofArch arch (Path.dropSlash outDir) s),
      (render arch baseDir outDir s).filter (fun file => file.name = c.1) =
        [⟨c.1, (checkedChain c.2).render⟩] := by
  intro c hc
  simp only [chains, List.mem_cons, List.not_mem_nil, or_false] at hc
  rcases hc with rfl | rfl | rfl | rfl <;> simp [render, chain, chainPairs, debuggerFileName]

theorem callable_append (words more : List String) (h : Callable words) :
    Callable (words ++ more) := by
  obtain ⟨name, args, rfl, hname, hexit⟩ := h
  exact ⟨name, args ++ more, rfl, hname, hexit⟩

theorem chains_callable (e : Emulator) : ∀ c ∈ chains e,
    (Callable e.words ∨ c.1 ∈ ["all.sh", "dll.sh"]) → ∀ pair ∈ c.2, Callable pair.1 := by
  have hpath : ∀ path ∈ ["./build.sh", "./sync.sh", "./run.sh", "./debug.sh"],
      ¬Misread path ∧ path ≠ "exit" := by decide
  have hchain : ∀ last message, last ∈ ["./run.sh", "./debug.sh"] →
      ∀ pair ∈ chainPairs last message, Callable pair.1 := by
    intro last message hlast pair hpair
    simp only [chainPairs, List.mem_cons, List.not_mem_nil, or_false] at hpair
    rcases hpair with rfl | rfl | rfl
    · exact ⟨_, [], rfl, hpath _ (by simp)⟩
    · exact ⟨_, [], rfl, hpath _ (by simp)⟩
    · exact ⟨_, [], rfl, hpath last (List.mem_cons_of_mem _ (List.mem_cons_of_mem _ hlast))⟩
  intro c hc h
  simp only [chains, List.mem_cons, List.not_mem_nil, or_false] at hc
  rcases hc with rfl | rfl | rfl | rfl
  · have he := h.resolve_right (by simp)
    simpa using he
  · have he : Callable e.withDebugStub.words :=
      callable_append e.words ["-s", "-S"] (h.resolve_right (by simp))
    simpa using he
  · exact hchain _ _ (by simp)
  · exact hchain _ _ (by simp)

/-- A chain of checked commands runs them in turn up to the first that fails, shows the message
of that one alone and ends with status one; if there is none, it ends with status zero. The
scripts that run the emulator or other scripts are such chains. -/
theorem checked_chains_stop (w : World) :
    (∀ cs : List (List String × String), (∀ c ∈ cs, Callable c.1) →
      ∃ t, runBy? w (enact? w) (checkedChain cs).render = some t ∧
        StopsAtFailure w cs begun t) ∧
    ∀ (arch : Arch) (baseDir outDir : String) (s : Settings),
      let e := Emulator.ofArch arch (Path.dropSlash outDir) s
      ∀ c ∈ chains e,
        (render arch baseDir outDir s).filter (fun file => file.name = c.1) =
          [⟨c.1, (checkedChain c.2).render⟩] ∧
        ((Callable e.words ∨ c.1 ∈ ["all.sh", "dll.sh"]) → ∀ pair ∈ c.2, Callable pair.1) :=
  ⟨enact_checkedChain w, fun arch baseDir outDir s c hc =>
    ⟨chains_files arch baseDir outDir s c hc, chains_callable _ c hc⟩⟩

def halfway : List (List String × String) :=
  [(["./build.sh", "-v"], "no build"), (["[", "-f", "one.img", "]"], "no \"image\"\n$here"),
    (["time/now"], "never")]

def thirdFails : World := ⟨fun n => if n = 2 then 1 else 0, fun _ _ => []⟩

theorem halfway_stops :
    (∀ c ∈ halfway, Callable c.1) ∧
    ∃ t, runBy? thirdFails (enact? thirdFails) (checkedChain halfway).render = some t ∧
      StopsAtFailure thirdFails halfway begun t := by
  have hcallable : ∀ c ∈ halfway, Callable c.1 := by
    simp only [halfway, List.forall_mem_cons]
    exact ⟨⟨_, _, rfl, by decide⟩, ⟨_, _, rfl, by decide⟩, ⟨_, _, rfl, by decide⟩, by simp⟩
  exact ⟨hcallable, (checked_chains_stop thirdFails).1 halfway hcallable⟩

def allFail : World := ⟨fun _ => 1, fun _ _ => []⟩

/-- A command that ends the script by itself leaves nothing to show its message. -/
theorem exit_unreported :
    ¬Misread "exit" ∧
    ¬∃ t, runBy? allFail (enact? allFail) (checkedChain [(["exit", "1"], "stop")]).render = some t ∧
      StopsAtFailure allFail [(["exit", "1"], "stop")] begun t := by
  have hname : ¬Misread "exit" := by decide
  have hplain := plain_checkedChain [(["exit", "1"], "stop")]
    (List.forall_mem_singleton.2 ⟨_, _, rfl, hname⟩)
  have hrun : runBy? allFail (enact? allFail) (checkedChain [(["exit", "1"], "stop")]).render =
      some (begun.record [⟨["exit", "1"], 1⟩] 1).stop :=
    (runBy_render allFail _ _ hplain).trans rfl
  refine ⟨hname, fun ⟨t, ht, hstops⟩ => ?_⟩
  obtain rfl := Option.some.inj (hrun.symm.trans ht)
  -- A failure has four events, and the success of the one command two.
  rcases hstops with ⟨-, hend⟩ | ⟨before, words, message, after, status, -, -, -, -, hend⟩
  · have hlength := congrArg (fun t => t.events.length) hend
    simp [stop, passed, begun] at hlength
  · have hlength := congrArg (fun t => t.events.length) hend
    simp [stop, failed, begun] at hlength

end ScriptSet

end ImageTools
