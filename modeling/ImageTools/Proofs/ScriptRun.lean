import ImageTools.Proofs.Arguments
import ImageTools.Proofs.ScriptCommands

/-!
# What a script does

The run of a rendered script is the effect of its steps, one after the other:
a command is run with the texts of its step, and a check looks at the status
of the command before it, ends the script with status one if that is not
zero, and otherwise leaves everything as it was.
-/

set_option autoImplicit false

namespace ImageTools.Script
open Shell Shell.Lexer Shell.Parse Shell.Trace

/-! ## The effect of a step -/

def colours : List (String × List Char) :=
  [("SUCCESS", "\\033[0;32m[SUCCESS]\\033[0m".toList),
    ("ERROR", "\\033[0;31m[ERROR]\\033[0m".toList), ("NC", "\\033[0m".toList),
    ("RED", "\\033[0;31m".toList), ("GREEN", "\\033[0;32m".toList)]

def shown (label message : String) : List String :=
  ["-e", String.ofList ((colours.lookup label).getD []) ++ " " ++ message]

def abort (t : Trace) (message : String) : Trace :=
  { t.print (shown "ERROR" message) with status := 1, ended := true }

def withPrivilege (elevated : Bool) (words : List String) : List String :=
  if elevated then "sudo" :: words else words

/-- What a step does, given what the commands do. -/
def effect? (w : World) (elevated : Bool) (t : Trace) : Step → Option Trace
  | .blank => some t
  | .command [] => some t
  | .command (name :: args) => perform? w t (name :: args)
  | .abortOnFailure message => some (if t.status = 0 then t else abort t message)
  | .unmountOnFailure mountpoint message =>
    some (if t.status = 0 then t
      else abort (t.call w (withPrivilege elevated ["umount", mountpoint])) message)
  | .makeDirectory path => some (t.call w (withPrivilege elevated ["mkdir", "-p", path]))
  | .mount image mountpoint =>
    some (t.call w (withPrivilege elevated ["fuse-ext2", image, mountpoint, "-o", "rw+"]))
  | .copyTree source target =>
    some (t.call w (withPrivilege elevated
      ("cp" :: "-r" :: namesOf w t (treePattern source) ++ [target ++ "/"])))
  | .unmount mountpoint => some (t.call w (withPrivilege elevated ["umount", mountpoint]))
  | .announce message => some (t.print (shown "SUCCESS" message))

def effects? (w : World) (elevated : Bool) : List Step → Trace → Option Trace
  | [], t => some t
  | step :: steps, t => (effect? w elevated t step).bind (goOn (effects? w elevated steps))

theorem effect_variables (w : World) (elevated : Bool) (t t' : Trace) (step : Step)
    (h : effect? w elevated t step = some t') : t'.bindings = t.bindings := by
  cases step with
  | command words =>
    cases words with
    | nil =>
      obtain rfl := Option.some.inj h
      rfl
    | cons name args =>
      simp only [effect?, perform?] at h
      split at h
      · obtain ⟨status, -, rfl⟩ := Option.map_eq_some_iff.1 h
        rfl
      · split at h
        · obtain ⟨holds, -, rfl⟩ := Option.map_eq_some_iff.1 h
          rfl
        · split at h <;> obtain rfl := Option.some.inj h <;> rfl
  | abortOnFailure message =>
    obtain rfl := Option.some.inj h
    split <;> rfl
  | unmountOnFailure mountpoint message =>
    obtain rfl := Option.some.inj h
    split <;> rfl
  | _ =>
    obtain rfl := Option.some.inj h
    rfl

theorem effects_abort (w : World) (elevated : Bool) (message : String) (steps : List Step)
    (t : Trace) (ht : t.ended = false) :
    effects? w elevated (.abortOnFailure message :: steps) t =
      if t.status = 0 then effects? w elevated steps t else some (abort t message) := by
  rw [effects?, effect?, Option.bind_some]
  split
  · exact goOn_running _ t ht
  · rfl

theorem effects_unmount (w : World) (elevated : Bool) (mountpoint message : String)
    (steps : List Step) (t : Trace) (ht : t.ended = false) :
    effects? w elevated (.unmountOnFailure mountpoint message :: steps) t =
      if t.status = 0 then effects? w elevated steps t
      else some (abort (t.call w (withPrivilege elevated ["umount", mountpoint])) message) := by
  rw [effects?, effect?, Option.bind_some]
  split
  · exact goOn_running _ t ht
  · rfl

theorem effects_append (w : World) (elevated : Bool) (steps later : List Step) (t : Trace)
    (ht : t.ended = false) :
    effects? w elevated (steps ++ later) t =
      (effects? w elevated steps t).bind (goOn (effects? w elevated later)) := by
  induction steps generalizing t with
  | nil => exact (goOn_running _ t ht).symm
  | cons step steps ih =>
    rw [List.cons_append, effects?, effects?, Option.bind_assoc]
    congr 1
    funext u
    rw [goOn_bind]
    unfold goOn
    split
    · rfl
    · rename_i hu
      rw [ih u (by simpa using hu)]
      rfl

/-! ## Commands -/

theorem arguments_cons (w : World) (t : Trace) (word : Word) (words : List Word)
    (texts rest : List String) (hfirst : fields? w t word = some texts)
    (hrest : arguments? w t words = some rest) :
    arguments? w t (word :: words) = some (texts ++ rest) := by
  rw [arguments?, hfirst, hrest]
  rfl

theorem arguments_bare (w : World) (t : Trace) (name : String) (words : List Word)
    (rest : List String) (h : isBareText name = true) (hrest : arguments? w t words = some rest) :
    arguments? w t (bareWord name :: words) = some (name :: rest) :=
  arguments_cons w t _ words [name] rest (fields_bare w t name h) hrest

theorem arguments_word (w : World) (t : Trace) (text : String) (words : List Word)
    (rest : List String) (hrest : arguments? w t words = some rest) :
    arguments? w t (wordPieces text :: words) = some (text :: rest) :=
  arguments_cons w t _ words [text] rest (fields_word w t text) hrest

theorem arguments_words (w : World) (t : Trace) (texts : List String) :
    arguments? w t (texts.map wordPieces) = some texts := by
  induction texts with
  | nil => rfl
  | cons text texts ih => exact arguments_word w t text _ texts ih

theorem arguments_message (w : World) (t : Trace) (label message : String)
    (hv : t.bindings = colours) (hlabel : label = "ERROR" ∨ label = "SUCCESS") :
    arguments? w t [bareWord "echo", bareWord "-e", messageWord label message] =
      some ("echo" :: shown label message) := by
  have hvalue : t.value? label = some ((colours.lookup label).getD []) := by
    rcases hlabel with rfl | rfl <;> rw [value?, hv] <;> rfl
  have hwords := arguments_cons w t _ [] _ [] (fields_message w t label message _ hvalue) rfl
  exact arguments_bare w t "echo" _ _ (by decide)
    (arguments_bare w t "-e" _ _ (by decide) hwords)

theorem arguments_exit (w : World) (t : Trace) :
    arguments? w t [bareWord "exit", bareWord "1"] = some ["exit", "1"] :=
  arguments_bare w t "exit" _ _ (by decide) (arguments_bare w t "1" [] [] (by decide) rfl)

theorem arguments_test (w : World) (t : Trace) :
    arguments? w t [bareWord "[", [.parameter "?" .value false []], bareWord "-ne",
      bareWord "0", bareWord "]"] = some ["[", toString t.status.toNat, "-ne", "0", "]"] := by
  have hclose : fields? w t (bareWord "]") = some ["]"] := rfl
  have hopen : fields? w t (bareWord "[") = some ["["] := rfl
  have hwords := arguments_cons w t _ _ _ _ (fields_status w t)
    (arguments_bare w t "-ne" _ _ (by decide) (arguments_bare w t "0" _ _ (by decide)
      (arguments_cons w t _ [] _ [] hclose rfl)))
  exact arguments_cons w t _ _ _ _ hopen hwords

theorem exec_words (w : World) (act : Trace → List String → Option Trace) (t : Trace)
    (words : List Word) (texts : List String) (h : arguments? w t words = some texts) :
    execBy? w act (simpleCommand words) t = act t texts := by
  rw [simpleCommand, execBy?, simpleBy?, h, Option.bind_some]

theorem perform_call (w : World) (t : Trace) (name : String) (args : List String)
    (hexit : name ≠ "exit") (htest : name ≠ "[") (hecho : name ≠ "echo") :
    perform? w t (name :: args) = some (t.call w (name :: args)) := by
  rw [perform?, if_neg hexit, if_neg htest, if_neg hecho]

theorem exec_privileged (w : World) (t : Trace) (elevated : Bool) (name : String)
    (words : List Word) (texts : List String) (hname : isBareText name = true)
    (hcommand : name ≠ "exit" ∧ name ≠ "[" ∧ name ≠ "echo")
    (h : arguments? w t words = some texts) :
    execBy? w (perform? w) (simpleCommand (privilegeWords elevated ++ bareWord name :: words)) t =
      some (t.call w (withPrivilege elevated (name :: texts))) := by
  have hwords := arguments_bare w t name words texts hname h
  cases elevated with
  | false =>
    obtain ⟨hexit, htest, hecho⟩ := hcommand
    exact (exec_words w _ t _ _ hwords).trans (perform_call w t name texts hexit htest hecho)
  | true =>
    have hsudo := arguments_bare w t "sudo" _ _ (by decide) hwords
    exact (exec_words w _ t _ _ hsudo).trans
      (perform_call w t "sudo" _ (by decide) (by decide) (by decide))

theorem exec_message (w : World) (t : Trace) (label message : String)
    (hv : t.bindings = colours) (hlabel : label = "ERROR" ∨ label = "SUCCESS") :
    execBy? w (perform? w)
        (simpleCommand [bareWord "echo", bareWord "-e", messageWord label message]) t =
      some (t.print (shown label message)) :=
  (exec_words w _ t _ _ (arguments_message w t label message hv hlabel)).trans rfl

theorem exec_exit (w : World) (t : Trace) :
    execBy? w (perform? w) (simpleCommand [bareWord "exit", bareWord "1"]) t =
      some { t with status := 1, ended := true } :=
  (exec_words w _ t _ _ (arguments_exit w t)).trans rfl

theorem exec_abort (w : World) (t : Trace) (message : String) (hv : t.bindings = colours)
    (ht : t.ended = false) :
    execBy? w (perform? w) (abortCommand message) t = some (abort t message) := by
  have hended : (t.print (shown "ERROR" message)).ended = false := ht
  have hstatus : (t.print (shown "ERROR" message)).status = 0 := rfl
  rw [abortCommand, execBy?, exec_message w t "ERROR" message hv (Or.inl rfl), Option.bind_some,
    goOn_running _ _ hended, if_pos hstatus, exec_exit]
  rfl

theorem test_status (status : UInt8) :
    test? [toString status.toNat, "-ne", "0", "]"] = some (status != 0) := by
  have hlargest : status.toNat ≤ largest := Nat.le_of_lt (Nat.lt_trans status.toNat_lt (by decide))
  have hnumber : Test.number (toString status.toNat) = .ok (status.toNat : Int) := by
    rw [Test.number, decimal_toString _ hlargest]
  have hzero : Test.number "0" = .ok 0 := rfl
  have hcompare : Test.compare (toString status.toNat) "0" (fun x y => x != y) =
      .ok ((status.toNat : Int) != 0) := by
    rw [Test.compare, hnumber, hzero]
    rfl
  have hbyte : ((status.toNat : Int) != 0) = (status != 0) := by
    rw [bne, bne, Bool.eq_iff_iff]
    simp [← UInt8.toNat_inj]
  rw [test?, hcompare, hbyte]
  rfl

theorem exec_test (w : World) (t : Trace) :
    execBy? w (perform? w) testCommand t = some (t.withStatus (if t.status = 0 then 1 else 0)) := by
  refine (exec_words w _ t _ _ (arguments_test w t)).trans ?_
  change (test? [toString t.status.toNat, "-ne", "0", "]"]).map
    (fun holds => t.withStatus (if holds then 0 else 1)) = _
  rw [test_status, Option.map_some]
  by_cases h : t.status = 0 <;> simp [h]

/-- A check goes on where it was, unless the last command has failed. -/
theorem exec_check (w : World) (t : Trace) (yes : Command) (ht : t.ended = false) :
    execBy? w (perform? w) (.branch testCommand yes .nothing) t =
      if t.status = 0 then some t else execBy? w (perform? w) yes (t.withStatus 0) := by
  have hended : ∀ status, (t.withStatus status).ended = false := fun _ => ht
  rw [execBy?, exec_test, Option.bind_some, goOn_running _ _ (hended _)]
  by_cases h : t.status = 0
  · have hback : (t.withStatus 1).withStatus 0 = t := by
      rw [← h]
      rfl
    rw [if_pos h, if_pos h, hback]
    rfl
  · rw [if_neg h, if_neg h]
    rfl

/-- The command of a step has the effect of the step. -/
theorem exec_step (w : World) (elevated : Bool) (t : Trace) (step : Step)
    (hv : t.bindings = colours) (ht : t.ended = false) :
    ((stepCommand elevated step).elim (some t) fun c => execBy? w (perform? w) c t) =
      effect? w elevated t step := by
  cases step with
  | blank => rfl
  | command words =>
    cases words with
    | nil => rfl
    | cons name args =>
      rw [stepCommand, Option.elim_some]
      exact exec_words w _ t _ _ (arguments_words w t (name :: args))
  | abortOnFailure message =>
    have habort := exec_abort w (t.withStatus 0) message hv ht
    rw [stepCommand, Option.elim_some, exec_check w t _ ht, habort, effect?]
    split <;> rfl
  | unmountOnFailure mountpoint message =>
    have hunmount := exec_privileged w (t.withStatus 0) elevated "umount" [wordPieces mountpoint] _
      (by decide) (by decide) (arguments_word w _ mountpoint [] [] rfl)
    have habort := exec_abort w ((t.withStatus 0).call w (withPrivilege elevated
      ["umount", mountpoint])) message hv ht
    have hended : ((t.withStatus 0).call w (withPrivilege elevated
      ["umount", mountpoint])).ended = false := ht
    rw [stepCommand, Option.elim_some, exec_check w t _ ht, execBy?, hunmount, Option.bind_some,
      goOn_running _ _ hended, habort, effect?]
    split <;> rfl
  | makeDirectory path =>
    rw [stepCommand, Option.elim_some]
    exact exec_privileged w t elevated "mkdir" [bareWord "-p", wordPieces path] _ (by decide)
      (by decide) (arguments_bare w t "-p" _ _ (by decide) (arguments_word w t path [] [] rfl))
  | mount image mountpoint =>
    have hoptions := arguments_bare w t "-o" _ _ (by decide)
      (arguments_bare w t "rw+" [] [] (by decide) rfl)
    rw [stepCommand, Option.elim_some]
    exact exec_privileged w t elevated "fuse-ext2" _ _ (by decide) (by decide)
      (arguments_word w t image _ _ (arguments_word w t mountpoint _ _ hoptions))
  | copyTree source target =>
    have htarget := arguments_cons w t _ [] _ [] (fields_slashed w t target) rfl
    have hsource := arguments_cons w t _ _ _ _ (fields_tree w t source) htarget
    rw [stepCommand, Option.elim_some]
    exact exec_privileged w t elevated "cp" _ _ (by decide) (by decide)
      (arguments_bare w t "-r" _ _ (by decide) hsource)
  | unmount mountpoint =>
    rw [stepCommand, Option.elim_some]
    exact exec_privileged w t elevated "umount" [wordPieces mountpoint] _ (by decide) (by decide)
      (arguments_word w t mountpoint [] [] rfl)
  | announce message =>
    rw [stepCommand, Option.elim_some]
    exact exec_message w t "SUCCESS" message hv (Or.inr rfl)

/-! ## The run of a script -/

theorem execAll_steps (w : World) (elevated : Bool) (steps : List Step) (t : Trace)
    (hv : t.bindings = colours) (ht : t.ended = false) :
    execAllBy? w (perform? w) (steps.filterMap (stepCommand elevated)) t =
      effects? w elevated steps t := by
  induction steps generalizing t with
  | nil => rfl
  | cons step steps ih =>
    have hstep := exec_step w elevated t step hv ht
    rw [effects?, ← hstep]
    cases hc : stepCommand elevated step with
    | none =>
      rw [List.filterMap_cons_none hc, ih t hv ht, Option.elim_none, Option.bind_some,
        goOn_running _ _ ht]
    | some c =>
      rw [hc, Option.elim_some] at hstep
      rw [List.filterMap_cons_some hc, execAllBy?, Option.elim_some]
      cases hexec : execBy? w (perform? w) c t with
      | none => rfl
      | some t' =>
        have hv' : t'.bindings = colours :=
          (effect_variables w elevated t t' step (hstep.symm.trans hexec)).trans hv
        rw [Option.bind_some, Option.bind_some, goOn, goOn]
        split
        · rfl
        · rename_i hended
          exact ih t' hv' (by simpa using hended)

def begun : Trace := { bindings := colours }

theorem exec_settings (w : World) (act : Trace → List String → Option Trace) :
    execAllBy? w act (settings.map fun v => .simple 0 [v] [] []) {} = some begun := (rfl)

/-- A rendered script runs the commands of its steps, whatever their words do. -/
theorem runBy_render (w : World) (act : Trace → List String → Option Trace) (s : Script)
    (hp : ∀ step ∈ s.steps, IsPlain step) :
    runBy? w act s.render =
      execAllBy? w act (s.steps.filterMap (stepCommand s.elevated)) begun := by
  obtain ⟨c, documents, hc, hunlined⟩ := commandsOf_render s hp
  rw [run_parsed w act _ c documents hc, ← exec_unlined, hunlined, exec_joined w act _ _ _ rfl,
    execBy?, Option.bind_some, goOn_running _ _ rfl, commands, execAll_append w act _ _ _ rfl,
    exec_settings, Option.bind_some, goOn_running _ _ rfl]

/-- A rendered script does what its steps do. -/
theorem run_render (w : World) (s : Script) (hp : ∀ step ∈ s.steps, IsPlain step) :
    run? w s.render = effects? w s.elevated s.steps begun := by
  rw [run?, runBy_render w _ s hp, execAll_steps w _ _ _ rfl rfl]

end ImageTools.Script
