import ImageTools.ScriptSet
import ImageTools.Proofs.ScriptLines

/-!
# Commands of the script set

The commands that the text of a script gives word by word. A check prints its
message with a value, so that only the end of the script is left of it, and
what is copied is a pattern.
-/

set_option autoImplicit false

namespace ImageTools

namespace Script
open Shell

/-! ## Commands of the steps -/

def exitCommands : List (List String) := [["exit", "1"], ["fi"]]

theorem commandsIn_abort (message : String) : commandsIn (abortTokens message) = exitCommands := rfl

theorem commandsIn_abortOnFailure (elevated : Bool) (message : String) :
    commandsIn (stepTokens elevated (.abortOnFailure message)) = exitCommands := rfl

theorem commandsIn_announce (elevated : Bool) (message : String) :
    commandsIn (stepTokens elevated (.announce message)) = [] := rfl

theorem commandsIn_unmountOnFailure (mountpoint message : String) :
    commandsIn (stepTokens true (.unmountOnFailure mountpoint message)) =
      ["then", "sudo", "umount", mountpoint] :: exitCommands := by
  let command := [bareToken "then", bareToken "sudo", bareToken "umount", wordToken mountpoint]
  have hcommand : commandsIn command = [["then", "sudo", "umount", mountpoint]] := by
    apply commandsIn_words _ _ (by simp)
    simp [command, text_bareToken "then" (by decide), text_bareToken "sudo" (by decide),
      text_bareToken "umount" (by decide)]
  calc commandsIn (stepTokens true (.unmountOnFailure mountpoint message))
    _ = commandsIn testTokens.dropLast ++
          (commandsIn command ++ commandsIn (abortTokens message)) := by
      rw [← commandsIn_append command _ (.operator .semicolon) rfl]
      rfl
    _ = ["then", "sudo", "umount", mountpoint] :: exitCommands := by
      rw [hcommand, commandsIn_abort]
      rfl

theorem commandsIn_makeDirectory (path : String) :
    commandsIn (stepTokens true (.makeDirectory path)) = [["sudo", "mkdir", "-p", path]] := by
  apply commandsIn_words _ _ (by simp)
  simp [stepTokens, privilegeTokens, text_bareToken "sudo" (by decide),
    text_bareToken "mkdir" (by decide), text_bareToken "-p" (by decide)]

theorem commandsIn_unmount (mountpoint : String) :
    commandsIn (stepTokens true (.unmount mountpoint)) = [["sudo", "umount", mountpoint]] := by
  apply commandsIn_words _ _ (by simp)
  simp [stepTokens, privilegeTokens, text_bareToken "sudo" (by decide),
    text_bareToken "umount" (by decide)]

theorem text_pattern (text : String) :
    (Token.word (Lexer.wordPieces text ++ [.char '/' false, .char '*' false])).text? = none := by
  have hpattern : [Part.literal '/', .active '*'].mapM Part.char? = none := rfl
  rw [Token.text?, seen_word]
  show (List.mapM Part.char?
    (text.toList.map Part.literal ++ [.literal '/', .active '*'])).map _ = none
  rw [List.mapM_append, chars_literal, hpattern]
  rfl

theorem commandsIn_copyTree (source target : String) :
    commandsIn (stepTokens true (.copyTree source target)) = [] := by
  have hsigns : ∀ t ∈ stepTokens true (.copyTree source target), t.isSign = false := by
    simp [stepTokens, privilegeTokens, bareToken, Token.isSign]
  rw [commandsIn, List.splitOnP_eq_singleton hsigns]
  simp [stepTokens, privilegeTokens, text_bareToken "sudo" (by decide),
    text_bareToken "cp" (by decide), text_bareToken "-r" (by decide), text_pattern]

end Script

namespace ScriptSet
open Script Shell

/-! ## Commands of the files -/

theorem checkedChain_steps (commands : List (List String × String)) :
    (checkedChain commands).elevated = false ∧ (checkedChain commands).steps =
      commands.flatMap fun c => [.command c.1, .abortOnFailure c.2] := by
  have hfold : ∀ s : Script,
      (commands.foldl (fun s c => s.addChecked c.1 c.2) s).elevated = s.elevated ∧
      (commands.foldl (fun s c => s.addChecked c.1 c.2) s).steps =
        s.steps ++ commands.flatMap fun c => [.command c.1, .abortOnFailure c.2] := by
    induction commands with
    | nil => simp
    | cons c commands ih =>
      intro s
      obtain ⟨helevated, hsteps⟩ := ih (s.addChecked c.1 c.2)
      rw [List.foldl_cons, helevated, hsteps]
      simp [addChecked, add]
  exact hfold {}

theorem literalCommands_checkedChain (commands : List (List String × String))
    (h : ∀ c ∈ commands, c.1 ≠ []) :
    literalCommands (checkedChain commands).render =
      headerCommands ++ commands.flatMap fun c => c.1 :: exitCommands := by
  obtain ⟨helevated, hsteps⟩ := checkedChain_steps commands
  rw [literalCommands_render, helevated, hsteps, List.flatMap_assoc]
  rw [List.flatMap_def, List.flatMap_def, List.map_congr_left]
  intro c hc
  simp [commandsIn_command false c.1 (h c hc), commandsIn_abortOnFailure]

theorem sync_mounts (base out : String) :
    ["sudo", "fuse-ext2", Emulator.diskImagePath out, base ++ "/mountpoint", "-o", "rw+"] ∈
      literalCommands (sync base out).render := by
  rw [literalCommands_render, List.mem_append, List.mem_flatMap]
  refine Or.inr ⟨.mount (Emulator.diskImagePath out) (base ++ "/mountpoint"), ?_, ?_⟩
  · simp [sync]
  · show _ ∈ commandsIn (stepTokens true _)
    rw [commandsIn_mount]
    exact List.mem_singleton_self _

def mountedBy? : List String → Option String
  | "sudo" :: "fuse-ext2" :: image :: _ => some image
  | _ => none

def mountedImages (contents : String) : List String :=
  (literalCommands contents).filterMap mountedBy?

theorem mountedImages_sync (base out : String) :
    mountedImages (sync base out).render = [Emulator.diskImagePath out] := by
  rw [mountedImages, literalCommands_render]
  simp [sync, commandsIn_makeDirectory, commandsIn_mount, commandsIn_abortOnFailure,
    commandsIn_copyTree, commandsIn_unmountOnFailure, commandsIn_unmount, commandsIn_announce]
  rfl

end ScriptSet

end ImageTools
