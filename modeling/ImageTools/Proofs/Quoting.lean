import ImageTools.Proofs.StepTokens

/-!
# Quoting in scripts

A shell that cuts a script into tokens sees the steps and nothing else: each
text that a step was given stands in one word, character by character, and
every operator, expansion and pattern is part of the steps' own wording.
-/

set_option autoImplicit false

namespace ImageTools

/-! ## What a shell sees -/

namespace Shell

inductive Part
  /-- A character that stands for itself. -/
  | literal (c : Char)
  /-- An unquoted character that can be part of a pattern or be expanded. -/
  | active (c : Char)
  /-- The value of a parameter, which is split unless it is quoted. -/
  | value (name : String) (quoted : Bool)
  /-- Any other expansion. -/
  | other (p : Piece)

def isActive (c : Char) : Bool := ['*', '?', '[', ']', '~', '\x7b', '\x7d'].contains c

def unquoted (c : Char) : Part := if isActive c then .active c else .literal c

def Piece.parts : Piece → List Part
  | .char c true => [.literal c]
  | .char c false => [unquoted c]
  | .mark => []
  | .parameter name .value quoted [] => [.value name quoted]
  | p => [.other p]

def Part.isLiteral : Part → Bool
  | .literal _ => true
  | _ => false

inductive Seen
  | word (parts : List Part)
  /-- An operator, the end of the text, or anything else but a word. -/
  | sign (t : Token)

def Token.seen : Token → Seen
  | .word w => .word (w.flatMap Piece.parts)
  | t => .sign t

/-- What is seen of a token without the characters that stand for themselves. -/
def Seen.bones : Seen → Seen
  | .word parts => .word (parts.filter fun p => !p.isLiteral)
  | .sign t => .sign t

end Shell

namespace Script
open Shell

def literally (text : String) : Seen := .word (text.toList.map .literal)

def wording (words : List String) : List Seen :=
  words.map fun w => .word (w.toList.map unquoted)

def privileged (elevated : Bool) : List Seen := if elevated then wording ["sudo"] else []

def labelled (label message : String) : Seen :=
  .word (.value label true :: .literal ' ' :: message.toList.map .literal)

def failureTest : List Seen :=
  wording ["if", "["] ++ [.word [.value "?" false]] ++ wording ["-ne", "0", "]"] ++
    [.sign (.operator .semicolon)] ++ wording ["then"]

def abortion (message : String) : List Seen :=
  wording ["echo", "-e"] ++ [labelled "ERROR" message, .sign (.operator .andThen)] ++
    wording ["exit", "1"] ++ [.sign (.operator .semicolon)] ++ wording ["fi"]

def meaning (elevated : Bool) : Step → List Seen
  | .blank => []
  | .command words => words.map literally
  | .abortOnFailure message => failureTest ++ abortion message
  | .unmountOnFailure mountpoint message =>
    failureTest ++ privileged elevated ++ wording ["umount"] ++ [literally mountpoint] ++
      [.sign (.operator .semicolon)] ++ abortion message
  | .makeDirectory path => privileged elevated ++ wording ["mkdir", "-p"] ++ [literally path]
  | .mount image mountpoint =>
    privileged elevated ++ wording ["fuse-ext2"] ++ [literally image, literally mountpoint] ++
      wording ["-o", "rw+"]
  | .copyTree source target =>
    privileged elevated ++ wording ["cp", "-r"] ++
      [.word (source.toList.map .literal ++ [.literal '/', .active '*']),
       .word (target.toList.map .literal ++ [.literal '/'])]
  | .unmount mountpoint => privileged elevated ++ wording ["umount"] ++ [literally mountpoint]
  | .announce message => wording ["echo", "-e"] ++ [labelled "SUCCESS" message]

def withoutTexts : Step → Step
  | .blank => .blank
  | .command words => .command (words.map fun _ => "")
  | .abortOnFailure _ => .abortOnFailure ""
  | .unmountOnFailure _ _ => .unmountOnFailure "" ""
  | .makeDirectory _ => .makeDirectory ""
  | .mount _ _ => .mount "" ""
  | .copyTree _ _ => .copyTree "" ""
  | .unmount _ => .unmount ""
  | .announce _ => .announce ""

/-! ## What is seen of the tokens of a step -/

theorem unquoted_plain (c : Char) (h : isPlain c = true) : unquoted c = .literal c := by
  have hactive : isActive c = false := Lexer.plain_contains c _ h rfl
  simp [unquoted, hactive]

theorem quoted_parts (cs : List Char) :
    (cs.map fun c => Piece.char c true).flatMap Piece.parts = cs.map .literal := by
  rw [List.flatMap_map, List.map_eq_flatMap]
  rfl

theorem bare_parts (cs : List Char) :
    (cs.map fun c => Piece.char c false).flatMap Piece.parts = cs.map unquoted := by
  rw [List.flatMap_map, List.map_eq_flatMap]
  rfl

theorem quotedPieces_parts (c : Char) :
    (Lexer.quotedPieces c).flatMap Piece.parts = [.literal c] := by
  unfold Lexer.quotedPieces
  split
  · subst c
    rfl
  · rfl

/-- A word decodes to the text it was written for. -/
theorem wordPieces_parts (text : String) :
    (Lexer.wordPieces text).flatMap Piece.parts = text.toList.map .literal := by
  unfold Lexer.wordPieces
  split
  · rename_i h
    rw [bare_parts]
    exact List.map_congr_left fun c hc => unquoted_plain c (List.all_eq_true.1 h.2 c hc)
  · have hquoted : (text.toList.flatMap Lexer.quotedPieces).flatMap Piece.parts =
        text.toList.map .literal := by
      rw [List.flatMap_assoc, List.map_eq_flatMap]
      simp only [quotedPieces_parts]
    simp [Piece.parts, hquoted]

theorem bareToken_seen (text : String) :
    (bareToken text).seen = .word (text.toList.map unquoted) := by
  rw [bareToken, bareWord, Token.seen, bare_parts]

theorem wordToken_seen (text : String) : (wordToken text).seen = literally text := by
  rw [wordToken, Token.seen, wordPieces_parts, literally]

theorem messageToken_seen (label message : String) :
    (messageToken label message).seen = labelled label message := by
  simp [messageToken, messageWord, Token.seen, Piece.parts, quotedText, labelled, quoted_parts]

theorem seen_operator (o : Operator) : (Token.operator o).seen = .sign (.operator o) := rfl

theorem seen_status : (Token.word [.parameter "?" .value false []]).seen =
    .word [.value "?" false] := rfl

theorem seen_word (text : String) (w : Word) :
    (Token.word (Lexer.wordPieces text ++ w)).seen =
      .word (text.toList.map .literal ++ w.flatMap Piece.parts) := by
  rw [Token.seen, List.flatMap_append, wordPieces_parts]

theorem privilegeTokens_seen (elevated : Bool) :
    (privilegeTokens elevated).map Token.seen = privileged elevated := by
  cases elevated with
  | false => rfl
  | true => simp [privilegeTokens, privileged, wording, bareToken_seen]

theorem testTokens_seen : testTokens.map Token.seen = failureTest := by
  simp [testTokens, failureTest, wording, bareToken_seen, seen_operator, seen_status]

theorem abortTokens_seen (message : String) :
    (abortTokens message).map Token.seen = abortion message := by
  simp [abortTokens, abortion, wording, bareToken_seen, seen_operator, messageToken_seen]

theorem stepTokens_seen (elevated : Bool) (step : Step) :
    (stepTokens elevated step).map Token.seen = meaning elevated step := by
  have hp := privilegeTokens_seen elevated
  cases step with
  | blank => rfl
  | command words => simp [stepTokens, meaning, wordToken_seen]
  | abortOnFailure message => simp [stepTokens, meaning, testTokens_seen, abortTokens_seen]
  | unmountOnFailure mountpoint message =>
    simp [stepTokens, meaning, testTokens_seen, abortTokens_seen, hp, wording, bareToken_seen,
      wordToken_seen, seen_operator]
  | makeDirectory path => simp [stepTokens, meaning, hp, wording, bareToken_seen, wordToken_seen]
  | mount image mountpoint =>
    simp [stepTokens, meaning, hp, wording, bareToken_seen, wordToken_seen]
  | copyTree source target =>
    simp [stepTokens, meaning, hp, wording, bareToken_seen, seen_word, Piece.parts, unquoted,
      isActive]
  | unmount mountpoint => simp [stepTokens, meaning, hp, wording, bareToken_seen, wordToken_seen]
  | announce message => simp [stepTokens, meaning, wording, bareToken_seen, messageToken_seen]

theorem bones_literals (cs : List Char) (parts : List Part) :
    Seen.bones (.word (cs.map Part.literal ++ parts)) = Seen.bones (.word parts) := by
  have hcs : (cs.map Part.literal).filter (fun p => !p.isLiteral) = [] := by
    simp [Part.isLiteral]
  simp [Seen.bones, hcs]

theorem literally_bones (text : String) : (literally text).bones = .word [] := by
  have h := bones_literals text.toList []
  rwa [List.append_nil] at h

theorem labelled_bones (label message : String) :
    (labelled label message).bones = .word [.value label true] := by
  simp [labelled, Seen.bones, Part.isLiteral]

/-- Emptying the texts of a step leaves what it expands and how it is cut. -/
theorem meaning_bones (elevated : Bool) (step : Step) :
    (meaning elevated (withoutTexts step)).map Seen.bones =
      (meaning elevated step).map Seen.bones := by
  cases step with
  | blank => rfl
  | command words =>
    simp only [meaning, withoutTexts, List.map_map, Function.comp_def, literally_bones]
  | abortOnFailure message => simp [meaning, withoutTexts, abortion, labelled_bones]
  | unmountOnFailure mountpoint message =>
    simp [meaning, withoutTexts, abortion, labelled_bones, literally_bones]
  | makeDirectory path => simp [meaning, withoutTexts, literally_bones]
  | mount image mountpoint => simp [meaning, withoutTexts, literally_bones]
  | copyTree source target => simp [meaning, withoutTexts, bones_literals]
  | unmount mountpoint => simp [meaning, withoutTexts, literally_bones]
  | announce message => simp [meaning, withoutTexts, labelled_bones]

/-- A shell that cuts a script into tokens sees what its steps mean, each with
the end of its line, and no text of a step changes anything but literal
characters. -/
theorem body_seen (s : Script) :
    (tokens 1 s.body.toList).map (fun t => t.token.seen) =
      s.steps.flatMap (fun step => meaning s.elevated step ++ [.sign (.operator .newline)]) ++
        [.sign .ending] ∧
    (tokens 1 s.body.toList).map (fun t => t.token.seen.bones) =
      (tokens 1 ({ s with steps := s.steps.map withoutTexts } : Script).body.toList).map
        fun t => t.token.seen.bones := by
  have hseen : ∀ s : Script, (tokens 1 s.body.toList).map (fun t => t.token.seen) =
      s.steps.flatMap (fun step => meaning s.elevated step ++ [.sign (.operator .newline)]) ++
        [.sign .ending] := by
    intro s
    have hbody := congrArg (List.map Token.seen) (tokens_of_reads _ _ (reads_body s) 1)
    rw [List.map_map, List.map_append, bodyTokens, List.map_flatMap] at hbody
    simp only [List.map_append, stepTokens_seen] at hbody
    exact hbody
  refine ⟨hseen s, ?_⟩
  have hbones := fun s : Script => congrArg (List.map Seen.bones) (hseen s)
  simp only [List.map_map, List.map_append, List.map_flatMap] at hbones
  have hs := hbones s
  have hs' := hbones { s with steps := s.steps.map withoutTexts }
  simp only [List.flatMap_map, meaning_bones] at hs'
  exact hs.trans hs'.symm

end Script

end ImageTools
