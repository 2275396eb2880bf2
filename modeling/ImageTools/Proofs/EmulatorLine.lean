import ImageTools.Proofs.CommandPosition
import ImageTools.Proofs.SetCommands

/-!
# The command that runs the emulator

What a shell executes for one line that is no more than a simple command: it
sets the variables that the line begins with and runs the words after them.
The line of the emulator begins with a configured text, and is read as the
command exactly if that text is not one with a meaning of its own there.
-/

set_option autoImplicit false

namespace ImageTools

namespace Shell

/-! ## Simple commands -/

def Token.word? : Token → Option Word
  | .word w => some w
  | _ => none

structure Execution where
  environment : List Word
  words : List String

def execution? (line : List Token) : Option Execution := do
  let words ← line.mapM Token.word?
  if words.head?.any isReserved then none
  else
    let texts ← (words.dropWhile isAssigning).mapM fun w => (Token.word w).text?
    return { environment := words.takeWhile isAssigning, words := texts }

def tokenLines (contents : String) : List (List Token) :=
  ((tokens 1 contents.toList).map Located.token).splitOnP Token.endsLine

end Shell

namespace Script
open Shell Shell.Lexer

theorem execution_words (texts : List String) :
    execution? (texts.map wordToken) =
      if texts.head?.any fun text => isReserved (wordPieces text) then none
      else some ⟨(texts.takeWhile fun text => isAssigning (wordPieces text)).map wordPieces,
        texts.dropWhile fun text => isAssigning (wordPieces text)⟩ := by
  have hwords : (texts.map wordToken).mapM Token.word? = some (texts.map wordPieces) :=
    mapM_of_map _ _ _ (by simp [wordToken, Token.word?])
  have htexts : ∀ rest : List String,
      (rest.map wordPieces).mapM (fun w => (Token.word w).text?) = some rest :=
    fun rest => mapM_of_map _ _ _ (by
      rw [List.map_map]
      exact List.map_congr_left fun text _ => text_wordToken text)
  have hrest := htexts (texts.dropWhile fun text => isAssigning (wordPieces text))
  rw [execution?, hwords]
  show (if _ then _ else _) = _
  rw [List.head?_map, Option.any_map, List.dropWhile_map, List.takeWhile_map]
  split
  · rfl
  · simp only [Function.comp_def, hrest]
    rfl

/-- A command is executed word by word exactly if its first word is not misread. -/
theorem execution_iff (name : String) (args : List String) :
    execution? ((name :: args).map wordToken) = some ⟨[], name :: args⟩ ↔ ¬Misread name := by
  rw [execution_words, misread_iff, List.head?_cons, Option.any_some]
  cases isReserved (wordPieces name) with
  | true => simp
  | false =>
    cases h : isAssigning (wordPieces name) with
    | true => simp [h]
    | false => simp [h]

/-- A first word that sets a variable leaves the next to be the program. -/
theorem execution_assigning (text name : String) (args : List String)
    (ht : isReserved (wordPieces text) = false ∧ isAssigning (wordPieces text) = true)
    (hn : isAssigning (wordPieces name) = false) :
    execution? ((text :: name :: args).map wordToken) =
      some ⟨[wordPieces text], name :: args⟩ := by
  rw [execution_words, List.head?_cons, Option.any_some, ht.1]
  simp [ht.2, hn]

def headerHeight : Nat := header.toList.count '\n'

theorem tokenLines_render (s : Script) :
    tokenLines s.render = headerTokens.dropLast.splitOnP Token.endsLine ++
      s.steps.map (stepTokens s.elevated) ++ [[.ending]] := by
  have htokens := tokens_of_reads _ _ (reads_header.append (reads_body s)) 1
  have hlast : headerTokens = headerTokens.dropLast ++ [.operator .newline] := rfl
  have hending : [Token.ending].splitOnP Token.endsLine = [[.ending]] := rfl
  rw [tokenLines, render_chars, htokens, List.append_assoc, hlast, List.append_assoc,
    List.singleton_append, List.splitOnP_append_cons _ _ rfl, lines_body, hending,
    List.append_assoc]
  rfl

/-- What the first line below the header executes. -/
def executed? (contents : String) : Option Execution :=
  (tokenLines contents)[headerHeight]?.bind execution?

theorem header_height :
    (headerTokens.dropLast.splitOnP Token.endsLine).length = headerHeight := by
  decide +kernel

theorem firstLine_render (s : Script) (step : Step) (steps : List Step)
    (h : s.steps = step :: steps) :
    (tokenLines s.render)[headerHeight]? = some (stepTokens s.elevated step) := by
  rw [tokenLines_render, h, List.append_assoc, ← header_height,
    List.getElem?_append_right (Nat.le_refl _), Nat.sub_self]
  rfl

theorem executed_render (s : Script) (step : Step) (steps : List Step)
    (h : s.steps = step :: steps) :
    executed? s.render = execution? (stepTokens s.elevated step) := by
  rw [executed?, firstLine_render s step steps h, Option.bind_some]

end Script

namespace ScriptSet
open Script Shell

theorem executed_checked (words : List String) (message : String) :
    executed? (checkedChain [(words, message)]).render = execution? (words.map wordToken) :=
  executed_render _ (.command words) [.abortOnFailure message] rfl

/-- The emulator is run as it is configured, with the arguments of its machine, exactly if its
program is not misread. That is so unless one is configured. -/
theorem runs_emulator_iff (arch : Arch) (baseDir outDir : String) (s : Settings) :
    let e := Emulator.ofArch arch (Path.dropSlash outDir) s
    ∃ sync build run debug rest,
      render arch baseDir outDir s = sync :: build :: run :: debug :: rest ∧
      run.name = "run.sh" ∧ debug.name = "debug.sh" ∧
      (executed? run.contents = some ⟨[], e.program :: e.args⟩ ↔ ¬Misread e.program) ∧
      (executed? debug.contents = some ⟨[], e.program :: (e.args ++ ["-s", "-S"])⟩ ↔
        ¬Misread e.program) ∧
      (s.emulator = none → ¬Misread e.program) := by
  intro e
  refine ⟨_, _, _, _, _, rfl, rfl, rfl, ?_, ?_, fun hnone => ?_⟩
  · exact (executed_checked e.words "Run command failed").symm ▸ execution_iff e.program e.args
  · exact (executed_checked e.withDebugStub.words "Debug Run command failed").symm ▸
      execution_iff e.program (e.args ++ ["-s", "-S"])
  · show ¬Misread (s.emulator.getD (Emulator.defaultProgram arch))
    rw [hnone]
    cases arch <;> decide

theorem default_emulator_runs :
    ∃ sync build run rest,
      render .aarch32 "b" "my out/" {} = sync :: build :: run :: rest ∧
      executed? run.contents =
        some ⟨[], "qemu-system-arm" :: Emulator.machine .aarch32 "my out"⟩ := by
  obtain ⟨sync, build, run, debug, rest, hfiles, -, -, hrun, -, hdefault⟩ :=
    runs_emulator_iff .aarch32 "b" "my out/" {}
  have hout : Path.dropSlash "my out/" = "my out" := by decide +kernel
  have hexecuted := hrun.2 (hdefault rfl)
  rw [hout] at hexecuted
  exact ⟨sync, build, run, debug :: rest, hfiles, hexecuted⟩

/-- An emulator called `A=b` is taken for a variable, and the first option for the program. -/
theorem assignment_runs_option :
    ∃ sync build run rest,
      render .x86 "b" "o" { emulator := some "A=b" } = sync :: build :: run :: rest ∧
      run.name = "run.sh" ∧
      Emulator.ofArch .x86 (Path.dropSlash "o") { emulator := some "A=b" } =
        ⟨"A=b", Emulator.machine .x86 "o"⟩ ∧
      executed? run.contents =
        some ⟨[Lexer.wordPieces "A=b"], Emulator.machine .x86 "o"⟩ ∧
      executed? run.contents ≠ some ⟨[], "A=b" :: Emulator.machine .x86 "o"⟩ := by
  have hrun : executed? (checkedChain [("A=b" :: Emulator.machine .x86 "o",
      "Run command failed")]).render =
        some ⟨[Lexer.wordPieces "A=b"], Emulator.machine .x86 "o"⟩ :=
    (executed_checked _ _).trans (execution_assigning _ _ _ (by decide) (by decide))
  have hout : Path.dropSlash "o" = "o" := by decide
  refine ⟨_, _, _, _, rfl, rfl, ?_⟩
  rw [hout]
  exact ⟨rfl, hrun, hrun ▸ by simp⟩

end ScriptSet

end ImageTools
