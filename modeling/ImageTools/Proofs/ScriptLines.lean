import ImageTools.Proofs.Quoting
import ImageTools.Proofs.ScriptCommands

/-!
# A script read back from its text

A script is cut where a line or a command ends, and the pieces are those of its
steps, in turn. So the text determines what each step is read as, and commands
whose words stand for themselves can be read off it word by word.
-/

set_option autoImplicit false

namespace ImageTools

namespace Shell

def Token.endsLine : Token → Bool
  | .operator .newline => true
  | _ => false

def Token.isSign : Token → Bool
  | .word _ => false
  | _ => true

def Part.char? : Part → Option Char
  | .literal c => some c
  | _ => none

def Token.text? (t : Token) : Option String :=
  match t.seen with
  | .word parts => (parts.mapM Part.char?).map String.ofList
  | .sign _ => none

def commandsIn (ts : List Token) : List (List String) :=
  ((ts.splitOnP Token.isSign).filterMap fun command => command.mapM Token.text?).filter (· ≠ [])

def literalCommands (text : String) : List (List String) :=
  commandsIn ((tokens 1 text.toList).map Located.token)

theorem commandsIn_append (ts rest : List Token) (sign : Token) (h : sign.isSign = true) :
    commandsIn (ts ++ sign :: rest) = commandsIn ts ++ commandsIn rest := by
  rw [commandsIn, List.splitOnP_append_cons ts rest h, List.filterMap_append, List.filter_append]
  rfl

theorem mapM_of_map {α β : Type} (f : α → Option β) (xs : List α) (ys : List β)
    (h : xs.map f = ys.map some) : xs.mapM f = some ys := by
  induction xs generalizing ys with
  | nil => simp_all
  | cons x xs ih =>
    cases ys with
    | nil => simp at h
    | cons y ys =>
      obtain ⟨hfirst, hrest⟩ := List.cons.inj h
      rw [List.mapM_cons, hfirst, ih ys hrest]
      rfl

theorem commandsIn_words (ts : List Token) (words : List String) (hne : words ≠ [])
    (h : ts.map Token.text? = words.map some) : commandsIn ts = [words] := by
  have hsign : ∀ t ∈ ts, t.isSign = false := by
    intro t ht
    have htext : t.text? ∈ words.map some := h ▸ List.mem_map_of_mem ht
    obtain ⟨word, -, hword⟩ := List.mem_map.1 htext
    cases t with
    | word w => rfl
    | _ => cases hword
  rw [commandsIn, List.splitOnP_eq_singleton hsign]
  simp [mapM_of_map Token.text? ts words h, hne]

theorem chars_literal (cs : List Char) : (cs.map Part.literal).mapM Part.char? = some cs := by
  induction cs with
  | nil => rfl
  | cons c cs ih =>
    rw [List.map_cons, List.mapM_cons, ih]
    rfl

end Shell

namespace Script
open Shell

/-! ## Lines -/

theorem stepTokens_line (elevated : Bool) (step : Step) :
    ∀ t ∈ stepTokens elevated step, t.endsLine = false := by
  have hword : ∀ w, (Token.word w).endsLine = false := fun _ => rfl
  have hbare : ∀ text, (bareToken text).endsLine = false := fun _ => rfl
  have htext : ∀ text, (wordToken text).endsLine = false := fun _ => rfl
  have hmessage : ∀ label message, (messageToken label message).endsLine = false := fun _ _ => rfl
  have hsign : (Token.operator .semicolon).endsLine = false ∧
      (Token.operator .andThen).endsLine = false := ⟨rfl, rfl⟩
  cases elevated <;> cases step <;>
    simp [stepTokens, testTokens, abortTokens, privilegeTokens, hword, hbare, htext, hmessage,
      hsign]

theorem lines_body (s : Script) (rest : List Token) :
    (bodyTokens s ++ rest).splitOnP Token.endsLine =
      s.steps.map (stepTokens s.elevated) ++ rest.splitOnP Token.endsLine := by
  unfold bodyTokens
  induction s.steps with
  | nil => rfl
  | cons step steps ih =>
    have hline := stepTokens_line s.elevated step
    rw [List.flatMap_cons, List.append_assoc, List.append_assoc, List.singleton_append,
      List.splitOnP_append_cons_of_forall_mem hline _ rfl, ih]
    rfl

theorem render_chars (s : Script) : s.render.toList = header.toList ++ s.body.toList :=
  String.toList_append

/-- The text of a script determines what each of its steps is read as. -/
theorem stepTokens_of_render (s s' : Script) (h : s.render = s'.render) :
    s.steps.map (stepTokens s.elevated) = s'.steps.map (stepTokens s'.elevated) := by
  have hbody : s.body = s'.body := by
    apply String.toList_inj.1
    have hchars : header.toList ++ s.body.toList = header.toList ++ s'.body.toList := by
      rw [← render_chars, ← render_chars, h]
    exact List.append_cancel_left hchars
  have hs := tokens_of_reads _ _ (reads_body s) 1
  have hs' := tokens_of_reads _ _ (reads_body s') 1
  have hlines := congrArg (List.splitOnP Token.endsLine) (hs.symm.trans (hbody ▸ hs'))
  rw [lines_body, lines_body] at hlines
  exact List.append_cancel_right hlines

/-! ## Words -/

theorem text_seen (t : Token) (text : String) (h : t.seen = literally text) :
    t.text? = some text := by
  rw [Token.text?, h]
  simp only [literally, chars_literal, Option.map_some, String.ofList_toList]

@[simp] theorem text_wordToken (text : String) : (wordToken text).text? = some text :=
  text_seen _ text (wordToken_seen text)

theorem text_bareToken (text : String) (h : text.toList.all isPlain = true) :
    (bareToken text).text? = some text := by
  apply text_seen
  rw [bareToken_seen, literally]
  exact congrArg Seen.word
    (List.map_congr_left fun c hc => unquoted_plain c (List.all_eq_true.1 h c hc))

@[simp] theorem wordPieces_inj (text other : String) :
    Lexer.wordPieces text = Lexer.wordPieces other ↔ text = other := by
  refine ⟨fun h => ?_, fun h => h ▸ rfl⟩
  have htext : (wordToken text).text? = (wordToken other).text? := by rw [wordToken, h, wordToken]
  rw [text_wordToken, text_wordToken] at htext
  exact Option.some.inj htext

@[simp] theorem wordToken_inj (text other : String) :
    wordToken text = wordToken other ↔ text = other := by
  simp [wordToken]

/-! ## Commands -/

theorem commandsIn_command (elevated : Bool) (words : List String) (h : words ≠ []) :
    commandsIn (stepTokens elevated (.command words)) = [words] :=
  commandsIn_words _ words h (by simp [stepTokens])

theorem commandsIn_mount (image mountpoint : String) :
    commandsIn (stepTokens true (.mount image mountpoint)) =
      [["sudo", "fuse-ext2", image, mountpoint, "-o", "rw+"]] := by
  apply commandsIn_words _ _ (by simp)
  have hwording := fun text => text_bareToken text
  simp [stepTokens, privilegeTokens, hwording "sudo" (by decide), hwording "fuse-ext2" (by decide),
    hwording "-o" (by decide), hwording "rw+" (by decide)]

theorem commandsIn_body (s : Script) (rest : List Token) :
    commandsIn (bodyTokens s ++ rest) =
      s.steps.flatMap (fun step => commandsIn (stepTokens s.elevated step)) ++ commandsIn rest := by
  unfold bodyTokens
  induction s.steps with
  | nil => rfl
  | cons step steps ih =>
    rw [List.flatMap_cons, List.append_assoc, List.append_assoc, List.singleton_append,
      commandsIn_append _ _ _ rfl, ih, List.flatMap_cons, List.append_assoc]

def headerCommands : List (List String) :=
  [["GREEN=\\033[0;32m"], ["RED=\\033[0;31m"], ["NC=\\033[0m"]]

theorem commandsIn_header (rest : List Token) :
    commandsIn (headerTokens ++ rest) = headerCommands ++ commandsIn rest := by
  have hlast : headerTokens = headerTokens.dropLast ++ [.operator .newline] := rfl
  rw [hlast, List.append_assoc, List.singleton_append, commandsIn_append _ _ _ rfl]
  rfl

theorem literalCommands_render (s : Script) :
    literalCommands s.render = headerCommands ++
      s.steps.flatMap fun step => commandsIn (stepTokens s.elevated step) := by
  have htokens := tokens_of_reads _ _ (reads_header.append (reads_body s)) 1
  have hnone : commandsIn [.ending] = [] := rfl
  rw [literalCommands, render_chars, htokens, List.append_assoc, commandsIn_header, commandsIn_body,
    hnone, List.append_nil]

end Script

end ImageTools
