import ImageTools.Proofs.EmulatorLine

/-!
# How a script is built

Each call of the builder adds steps at the end or sets the flag, and the text is
made only at the end. So what has been added stays, the flag may be set at any
time, and all it does is to put `sudo` before the commands of the file system.
-/

set_option autoImplicit false

namespace ImageTools

def Step.fileCommand? : Step → Option String
  | .makeDirectory _ => some "mkdir"
  | .mount _ _ => some "fuse-ext2"
  | .copyTree _ _ => some "cp"
  | .unmount _ => some "umount"
  | .unmountOnFailure _ _ => some "umount"
  | _ => none

namespace Script
open Shell

/-! ## Calls -/

inductive Call
  | elevate
  | add (step : Step)
  | addChecked (words : List String) (message : String)
  deriving DecidableEq, Repr

namespace Call

def apply (s : Script) : Call → Script
  | .elevate => s.elevate
  | .add step => s.add step
  | .addChecked words message => s.addChecked words message

def steps : Call → List Step
  | .elevate => []
  | .add step => [step]
  | .addChecked words message => [.command words, .abortOnFailure message]

end Call

def built (calls : List Call) : Script := calls.foldl Call.apply {}

def stepCalls (calls : List Call) : List Call := calls.filter (· ≠ .elevate)

def stepsOf (calls : List Call) : List Step := calls.flatMap Call.steps

def text (elevated : Bool) (steps : List Step) : String :=
  String.join (steps.map fun step => line elevated step ++ "\n")

theorem foldl_apply (calls : List Call) (s : Script) :
    calls.foldl Call.apply s =
      { elevated := s.elevated || decide (Call.elevate ∈ calls)
        steps := s.steps ++ stepsOf calls } := by
  induction calls generalizing s with
  | nil => simp [stepsOf]
  | cons c calls ih =>
    rw [List.foldl_cons, ih]
    cases c <;> simp [Call.apply, Call.steps, stepsOf, elevate, add, addChecked]

theorem built_eq (calls : List Call) : built calls =
    { elevated := decide (Call.elevate ∈ calls), steps := stepsOf calls } := by
  rw [built, foldl_apply]
  simp

theorem stepsOf_append (calls more : List Call) :
    stepsOf (calls ++ more) = stepsOf calls ++ stepsOf more :=
  List.flatMap_append

theorem stepsOf_stepCalls (calls : List Call) : stepsOf (stepCalls calls) = stepsOf calls := by
  induction calls with
  | nil => rfl
  | cons c calls ih =>
    cases c <;> simp_all [stepCalls, stepsOf, Call.steps]

theorem elevate_not_mem_stepCalls (calls : List Call) : Call.elevate ∉ stepCalls calls := by
  simp [stepCalls]

theorem text_append (elevated : Bool) (steps more : List Step) :
    text elevated (steps ++ more) = text elevated steps ++ text elevated more := by
  rw [text, List.map_append, String.join_append]
  rfl

theorem render_built (calls : List Call) : render (built calls) =
    render {} ++ text (decide (Call.elevate ∈ calls)) (stepsOf calls) := by
  have hempty : render {} = header := by
    simp [render, body]
  rw [built_eq, hempty]
  rfl

theorem render_built_append (calls more : List Call)
    (h : Call.elevate ∈ more → Call.elevate ∈ calls) :
    render (built (calls ++ more)) =
      render (built calls) ++ text (decide (Call.elevate ∈ calls)) (stepsOf more) := by
  have hflag : (Call.elevate ∈ calls ++ more) = (Call.elevate ∈ calls) := by
    rw [List.mem_append, eq_iff_iff]
    exact or_iff_left_of_imp h
  simp only [render_built, stepsOf_append, text_append, hflag, String.append_assoc]

/-! ## The flag, in the text of a line -/

/-- The second line has `sudo` before the command of the step, which begins the line
or stands right behind the test, and is otherwise the first. -/
def Raises (step : Step) (plain raised : String) : Prop :=
  match step.fileCommand? with
  | none => raised = plain
  | some name => ∃ before after, (before = "" ∨ before = testText) ∧
      plain = before ++ name ++ " " ++ after ∧ raised = before ++ "sudo " ++ name ++ " " ++ after

theorem raises_of_line {step : Step} {name : String} (before after : String)
    (hname : step.fileCommand? = some name) (hbefore : before = "" ∨ before = testText)
    (h : ∀ elevated,
      line elevated step = before ++ line.privilege elevated ++ name ++ " " ++ after) :
    Raises step (line false step) (line true step) := by
  rw [Raises, hname]
  refine ⟨before, after, hbefore, ?_, h true⟩
  rw [h false]
  simp [line.privilege]

theorem line_raises (step : Step) : Raises step (line false step) (line true step) := by
  cases step with
  | makeDirectory path =>
    refine raises_of_line "" ("-p " ++ word path) rfl (Or.inl rfl) fun elevated => ?_
    exact String.toList_inj.1 (by simp [line_makeDirectory])
  | mount image mountpoint =>
    refine raises_of_line "" (word image ++ " " ++ word mountpoint ++ " -o rw+") rfl
      (Or.inl rfl) fun elevated => ?_
    exact String.toList_inj.1 (by simp [line_mount])
  | copyTree source target =>
    refine raises_of_line "" ("-r " ++ word source ++ "/* " ++ word target ++ "/") rfl
      (Or.inl rfl) fun elevated => ?_
    exact String.toList_inj.1 (by simp [line_copyTree])
  | unmount mountpoint =>
    refine raises_of_line "" (word mountpoint) rfl (Or.inl rfl) fun elevated => ?_
    exact String.toList_inj.1 (by simp [line_unmount])
  | unmountOnFailure mountpoint message =>
    refine raises_of_line testText (word mountpoint ++ "; " ++ abortText message) rfl
      (Or.inr rfl) fun elevated => ?_
    exact String.toList_inj.1 (by simp [line_unmountOnFailure])
  | _ => rfl

/-! ## The flag, in what a shell reads -/

def fileCommands : List String := ["mkdir", "fuse-ext2", "cp", "umount"]

def openers : List String :=
  ["!", "\x7b", "do", "elif", "else", "if", "then", "until", "while"]

def isOneOf (names : List String) : Token → Bool
  | .word w => names.any fun name => isBare name w
  | _ => false

def beginsBehind (begins : Bool) : Token → Bool
  | .operator _ => true
  | t => begins && isOneOf openers t

def raised (begins : Bool) : List Token → List Token
  | [] => []
  | t :: ts =>
    (if begins && isOneOf fileCommands t then [bareToken "sudo", t] else [t]) ++
      raised (beginsBehind begins t) ts

def raisedLine (step : Step) (line : List Token) : List Token :=
  if step.fileCommand?.isSome then raised true line else line

theorem stepTokens_raised (step : Step) :
    stepTokens true step = raisedLine step (stepTokens false step) := by
  cases step <;> rfl

theorem zipWith_raised (steps : List Step) :
    List.zipWith raisedLine steps (steps.map (stepTokens false)) =
      steps.map (stepTokens true) := by
  simp [List.zipWith_map_right, List.zipWith_self, stepTokens_raised]

theorem tokenLines_built (calls : List Call) : tokenLines (built calls).render =
    headerTokens.dropLast.splitOnP Token.endsLine ++
      (stepsOf calls).map (stepTokens (decide (Call.elevate ∈ calls))) ++ [[.ending]] := by
  rw [tokenLines_render, built_eq]

/-! ## Built scripts -/

/-- The second text is the first one elevated: step by step in its lines, and step by
step in what a shell reads. -/
structure Elevates (steps : List Step) (plain elevated : String) : Prop where
  plainText : plain = render {} ++ text false steps
  elevatedText : elevated = render {} ++ text true steps
  lines : ∀ step ∈ steps, Raises step (line false step) (line true step)
  tokens : ∃ first own, first.length = headerHeight ∧ own.length = steps.length ∧
    tokenLines plain = first ++ own ++ [[.ending]] ∧
    tokenLines elevated = first ++ List.zipWith raisedLine steps own ++ [[.ending]]

theorem built_elevates (raising : List Call) (h : Call.elevate ∈ raising) :
    Elevates (stepsOf raising) (render (built (stepCalls raising))) (render (built raising)) := by
  have hplain : decide (Call.elevate ∈ stepCalls raising) = false :=
    decide_eq_false (elevate_not_mem_stepCalls raising)
  have hraised : decide (Call.elevate ∈ raising) = true := decide_eq_true h
  constructor
  case plainText => rw [render_built, hplain, stepsOf_stepCalls]
  case elevatedText => rw [render_built, hraised]
  case lines => exact fun step _ => line_raises step
  case tokens =>
    refine ⟨_, (stepsOf raising).map (stepTokens false), header_height, List.length_map _, ?_, ?_⟩
    · rw [tokenLines_built, hplain, stepsOf_stepCalls]
    · rw [tokenLines_built, hraised, zipWith_raised]

/-- A script is built by adding to its end. Where the flag is set, and how often, makes
no difference; that it is set at all puts `sudo` before the command of every step that
changes the file system, and changes nothing else in the text or in what a shell reads. -/
theorem built_text (calls : List Call) :
    render (built calls) =
      render {} ++ text (decide (Call.elevate ∈ calls)) (stepsOf calls) ∧
    (∀ more, (Call.elevate ∈ more → Call.elevate ∈ calls) → render (built (calls ++ more)) =
      render (built calls) ++ text (decide (Call.elevate ∈ calls)) (stepsOf more)) ∧
    (∀ moved, stepCalls moved = stepCalls calls → (Call.elevate ∈ moved ↔ Call.elevate ∈ calls) →
      render (built moved) = render (built calls)) ∧
    ∀ raising, Call.elevate ∈ raising → stepCalls raising = calls →
      Elevates (stepsOf calls) (render (built calls)) (render (built raising)) := by
  refine ⟨render_built calls, fun more h => render_built_append calls more h, ?_, ?_⟩
  · intro moved hcalls hflag
    rw [render_built, render_built, ← stepsOf_stepCalls moved, hcalls, stepsOf_stepCalls]
    simp only [hflag]
  · rintro raising hraising rfl
    rw [stepsOf_stepCalls]
    exact built_elevates raising hraising

def releaseCalls : List Call :=
  [.add (.unmountOnFailure "d" "; umount d"), .addChecked ["umount", "my d"] "cp"]

def raisedCalls : List Call :=
  [.elevate, .add (.unmountOnFailure "d" "; umount d"), .elevate,
    .addChecked ["umount", "my d"] "cp"]

def lateCalls : List Call := releaseCalls ++ [.elevate]

/-- Of the words `umount` only the one that the step itself runs is preceded by `sudo`. -/
theorem release_elevated :
    (Call.elevate ∈ raisedCalls ∧ stepCalls raisedCalls = releaseCalls ∧
      Elevates (stepsOf releaseCalls) (render (built releaseCalls)) (render (built raisedCalls))) ∧
    (stepCalls lateCalls = stepCalls raisedCalls ∧
      (Call.elevate ∈ lateCalls ↔ Call.elevate ∈ raisedCalls) ∧
      render (built lateCalls) = render (built raisedCalls)) ∧
    ((Call.elevate ∈ [Call.add .blank] → Call.elevate ∈ releaseCalls) ∧
      render (built (releaseCalls ++ [.add .blank])) = render (built releaseCalls) ++ "\n") ∧
    render (built raisedCalls) = render {} ++
      "if [ $? -ne 0 ]; then sudo umount d; " ++
        "echo -e \"$\x7bERROR\x7d ; umount d\" && exit 1; fi\n" ++
      "umount \x27my d\x27\n" ++
      "if [ $? -ne 0 ]; then echo -e \"$\x7bERROR\x7d cp\" && exit 1; fi\n" := by
  have hraised : Call.elevate ∈ raisedCalls := by decide
  have hcalls : stepCalls raisedCalls = releaseCalls := by decide
  have hlate : stepCalls lateCalls = stepCalls raisedCalls := by decide
  have hboth : Call.elevate ∈ lateCalls ↔ Call.elevate ∈ raisedCalls := by decide
  have hblank : Call.elevate ∈ [Call.add .blank] → Call.elevate ∈ releaseCalls := by decide
  obtain ⟨-, happend, -, hraises⟩ := built_text releaseCalls
  obtain ⟨htext, -, hmoved, -⟩ := built_text raisedCalls
  refine ⟨⟨hraised, hcalls, hraises _ hraised hcalls⟩, ⟨hlate, hboth, hmoved _ hlate hboth⟩,
    ⟨hblank, ?_⟩, ?_⟩
  · rw [happend _ hblank]
    rfl
  · rw [htext]
    simp only [String.append_assoc]
    exact congrArg (render {} ++ ·) (by decide +kernel)

end Script

end ImageTools
