import ImageTools.Script.Step
import ImageTools.Proofs.Reading

/-!
# The tokens of a script

Every step is cut into the same tokens whatever stands before and after it,
so that the tokens of a script are those of its steps in turn.
-/

set_option autoImplicit false

namespace ImageTools.Script
open Shell Shell.Lexer

/-! ## The text of a step -/

section

variable (elevated : Bool)

theorem abortText_eq (message : String) : abortText message =
    "echo -e \"$\x7bERROR\x7d " ++ escape message ++ "\" && exit 1; fi" := rfl

theorem line_abortOnFailure (message : String) :
    line elevated (.abortOnFailure message) = testText ++ abortText message := rfl

theorem line_unmountOnFailure (mountpoint message : String) :
    line elevated (.unmountOnFailure mountpoint message) =
      testText ++ line.privilege elevated ++ "umount " ++ word mountpoint ++ "; " ++
        abortText message := rfl

theorem line_makeDirectory (path : String) : line elevated (.makeDirectory path) =
    line.privilege elevated ++ "mkdir -p " ++ word path := rfl

theorem line_mount (image mountpoint : String) : line elevated (.mount image mountpoint) =
    line.privilege elevated ++ "fuse-ext2 " ++ word image ++ " " ++ word mountpoint ++
      " -o rw+" := rfl

theorem line_copyTree (source target : String) : line elevated (.copyTree source target) =
    line.privilege elevated ++ "cp -r " ++ word source ++ "/* " ++ word target ++ "/" := rfl

theorem line_unmount (mountpoint : String) : line elevated (.unmount mountpoint) =
    line.privilege elevated ++ "umount " ++ word mountpoint := rfl

theorem line_announce (message : String) : line elevated (.announce message) =
    "echo -e \"$\x7bSUCCESS\x7d " ++ escape message ++ "\"" := rfl

end

/-! ## The tokens of a step -/

def bareWord (text : String) : Word := text.toList.map fun c => .char c false

def bareToken (text : String) : Token := .word (bareWord text)

def wordToken (text : String) : Token := .word (wordPieces text)

def quotedText (text : String) : Word := text.toList.map fun c => .char c true

def messageWord (label message : String) : Word :=
  .mark :: .parameter label .value true [] :: .char ' ' true :: quotedText message ++ [.mark]

def messageToken (label message : String) : Token := .word (messageWord label message)

def privilegeTokens (elevated : Bool) : List Token := if elevated then [bareToken "sudo"] else []

def testTokens : List Token :=
  [bareToken "if", bareToken "[", .word [.parameter "?" .value false []], bareToken "-ne",
    bareToken "0", bareToken "]", .operator .semicolon, bareToken "then"]

def abortTokens (message : String) : List Token :=
  [bareToken "echo", bareToken "-e", messageToken "ERROR" message, .operator .andThen,
    bareToken "exit", bareToken "1", .operator .semicolon, bareToken "fi"]

def stepTokens (elevated : Bool) : Step → List Token
  | .blank => []
  | .command words => words.map wordToken
  | .abortOnFailure message => testTokens ++ abortTokens message
  | .unmountOnFailure mountpoint message =>
    testTokens ++ privilegeTokens elevated ++
      [bareToken "umount", wordToken mountpoint, .operator .semicolon] ++ abortTokens message
  | .makeDirectory path =>
    privilegeTokens elevated ++ [bareToken "mkdir", bareToken "-p", wordToken path]
  | .mount image mountpoint =>
    privilegeTokens elevated ++ [bareToken "fuse-ext2", wordToken image, wordToken mountpoint,
      bareToken "-o", bareToken "rw+"]
  | .copyTree source target =>
    privilegeTokens elevated ++ [bareToken "cp", bareToken "-r",
      .word (wordPieces source ++ [.char '/' false, .char '*' false]),
      .word (wordPieces target ++ [.char '/' false])]
  | .unmount mountpoint =>
    privilegeTokens elevated ++ [bareToken "umount", wordToken mountpoint]
  | .announce message => [bareToken "echo", bareToken "-e", messageToken "SUCCESS" message]

def bodyTokens (s : Script) : List Token :=
  s.steps.flatMap fun step => stepTokens s.elevated step ++ [.operator .newline]

/-! ## Reading the parts of a step -/

theorem reads_of_eq {text text' : List Char} {new new' : List Token} (h : Reads text new)
    (ht : text' = text) (hn : new' = new) : Reads text' new' := by
  subst ht hn
  exact h

def isBareText (text : String) : Bool := !text.toList.isEmpty && text.toList.all isPlain

theorem begins_bare (text : String) (h : isBareText text = true) :
    Begins text.toList (bareWord text) .word false := by
  simp only [isBareText, Bool.and_eq_true, Bool.not_eq_true', List.isEmpty_eq_false_iff] at h
  exact begins_plains text.toList h

theorem reads_bare (text : String) (h : isBareText text = true) :
    Reads (text.toList ++ [' ']) [bareToken text] :=
  reads_word (begins_bare text h)

theorem reads_bares (words : List String) (h : words.all isBareText = true) :
    Reads (words.flatMap fun w => w.toList ++ [' ']) (words.map bareToken) := by
  induction words with
  | nil => exact reads_nil
  | cons w words ih =>
    rw [List.all_cons, Bool.and_eq_true] at h
    exact (reads_bare w h.1).append (ih h.2)

theorem reads_privilege (elevated : Bool) :
    Reads (line.privilege elevated).toList (privilegeTokens elevated) := by
  cases elevated with
  | false => exact reads_nil
  | true => exact reads_bare "sudo" (by decide)

theorem reads_wordToken (text : String) :
    Reads ((word text).toList ++ [' ']) [wordToken text] :=
  reads_word (begins_word text)

theorem reads_test : Reads testText.toList testTokens := by
  have hopen : Begins ['['] [.char '[' false] .word false := fun line _ => ⟨line, rfl⟩
  have hclose : Begins [']'] [.char ']' false] .word false := fun line _ => ⟨line, rfl⟩
  have hstatus : Begins ['$', '?'] [.parameter "?" .value false []] .word false :=
    fun line _ => ⟨line, rfl⟩
  have hall := (((reads_bare "if" (by decide)).append (reads_word hopen)).append
    (reads_word hstatus)).append ((reads_bares ["-ne", "0"] (by decide)).append
      ((reads_wordSemicolon hclose).append (reads_bare "then" (by decide))))
  exact hall

theorem begins_message (label message : String) (h : isLabel label.toList = true) :
    Begins ('\x22' :: '$' :: '\x7b' :: label.toList ++ '\x7d' :: ' ' ::
      (escape message).toList ++ ['\x22'])
      (messageWord label message) .word false := by
  have hopen : Begins ['\x22'] [.mark] .double true := fun line _ => ⟨line, rfl⟩
  have hblank : Adds .double true [' '] [.char ' ' true] .double true := adds_double ' ' (by decide)
  have hclose : Adds .double true ['\x22'] [.mark] .word false := fun line _ _ => ⟨line, rfl⟩
  have hall := (hopen.append ((adds_label label.toList h).append
    (hblank.append (adds_escape message)))).append hclose
  simpa [messageWord, quotedText] using hall

theorem reads_abort (message : String) :
    Reads ((abortText message).toList ++ ['\n']) (abortTokens message ++ [.operator .newline]) := by
  have hmessage := begins_message "ERROR" message (by decide)
  have hall := ((reads_bares ["echo", "-e"] (by decide)).append (reads_word hmessage)).append
    ((reads_andThen.append (reads_bare "exit" (by decide))).append
      ((reads_wordSemicolon (begins_bare "1" (by decide))).append
        (reads_lastWord (begins_bare "fi" (by decide)))))
  exact reads_of_eq hall (by simp [abortText_eq]) rfl

theorem reads_command (words : List String) :
    Reads ((" ".intercalate (words.map word)).toList ++ ['\n'])
      (words.map wordToken ++ [.operator .newline]) := by
  induction words with
  | nil => exact reads_newline
  | cons w words ih =>
    cases words with
    | nil => exact reads_of_eq (reads_lastWord (begins_word w)) (by simp) rfl
    | cons w' words =>
      have hall := (reads_wordToken w).append ih
      exact reads_of_eq hall (by simp [String.intercalate_cons_cons]) rfl

/-- Every step is read as its tokens and the end of its line. -/
theorem reads_step (elevated : Bool) (step : Step) :
    Reads ((line elevated step).toList ++ ['\n'])
      (stepTokens elevated step ++ [.operator .newline]) := by
  have hp := reads_privilege elevated
  cases step with
  | blank => exact reads_newline
  | command words => exact reads_command words
  | abortOnFailure message =>
    have hall := reads_test.append (reads_abort message)
    exact reads_of_eq hall (by simp [line_abortOnFailure]) (by simp [stepTokens])
  | unmountOnFailure mountpoint message =>
    have hall := ((reads_test.append hp).append (reads_bare "umount" (by decide))).append
      ((reads_wordSemicolon (begins_word mountpoint)).append (reads_abort message))
    exact reads_of_eq hall (by simp [line_unmountOnFailure]) (by simp [stepTokens, wordToken])
  | makeDirectory path =>
    have hall := (hp.append (reads_bares ["mkdir", "-p"] (by decide))).append
      (reads_lastWord (begins_word path))
    exact reads_of_eq hall (by simp [line_makeDirectory]) (by simp [stepTokens, wordToken])
  | mount image mountpoint =>
    have hall := ((hp.append (reads_bare "fuse-ext2" (by decide))).append
      ((reads_wordToken image).append (reads_wordToken mountpoint))).append
        ((reads_bare "-o" (by decide)).append (reads_lastWord (begins_bare "rw+" (by decide))))
    exact reads_of_eq hall (by simp [line_mount]) (by simp [stepTokens, bareToken])
  | copyTree source target =>
    have hslash : Adds .word false ['/'] [.char '/' false] .word false := adds_plain '/' (by decide)
    have hstar : Adds .word false ['*'] [.char '*' false] .word false :=
      fun line _ _ => ⟨line, rfl⟩
    have hsource := (begins_word source).append (hslash.append hstar)
    have hall := (hp.append (reads_bares ["cp", "-r"] (by decide))).append
      ((reads_word hsource).append (reads_lastWord ((begins_word target).append hslash)))
    exact reads_of_eq hall (by simp [line_copyTree]) (by simp [stepTokens])
  | unmount mountpoint =>
    have hall := (hp.append (reads_bare "umount" (by decide))).append
      (reads_lastWord (begins_word mountpoint))
    exact reads_of_eq hall (by simp [line_unmount]) (by simp [stepTokens, wordToken])
  | announce message =>
    have hall := (reads_bares ["echo", "-e"] (by decide)).append
      (reads_lastWord (begins_message "SUCCESS" message (by decide)))
    exact reads_of_eq hall (by simp [line_announce]) (by simp [stepTokens, messageToken])

theorem reads_body (s : Script) : Reads s.body.toList (bodyTokens s) := by
  have hall := reads_flatMap (fun step => (line s.elevated step).toList ++ ['\n'])
    (fun step => stepTokens s.elevated step ++ [.operator .newline]) s.steps (reads_step s.elevated)
  simpa [body, bodyTokens, String.toList_join, List.flatMap_map] using hall

/-- The tokens of a text that is read from between words to between words. -/
theorem tokens_of_reads (text : List Char) (new : List Token) (h : Reads text new) (line : Nat) :
    (tokens line text).map Located.token = new ++ [.ending] := by
  obtain ⟨l, located, hl, hr⟩ := h line []
  have hrun : Lexer.run { line := line } text =
      reading .blank false l [] (located.reverse ++ []) := hr
  rw [tokens, hrun, finish_reading]
  simp [hl]

end ImageTools.Script
