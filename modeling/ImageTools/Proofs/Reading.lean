import ImageTools.Shell.Lexer
import ImageTools.Script.Word

/-!
# Reading quoted text

Plain characters and single quotes spell a word out, and so do the escapes
between double quotes. Whatever the text is, the machine is back between
words after the line of a script, with the same levels open as before.
-/

set_option autoImplicit false

namespace ImageTools.Shell.Lexer
open Script (isPlain isSpecial)

/-! ## Where the machine stands -/

def reading (mode : Mode) (inner : Bool) (line : Nat) (word : List Piece)
    (tokens : List Located) : Lexer where
  top := { scope := .program, mode := mode, word := word, inner := inner, tokens := tokens }
  line := line

/-- From between words to between words, over these tokens. -/
def Reads (text : List Char) (new : List Token) : Prop :=
  ∀ line tokens, ∃ (line' : Nat) (located : List Located), located.map Located.token = new ∧
    (reading .blank false line [] tokens).run text =
      reading .blank false line' [] (located.reverse ++ tokens)

def Begins (text : List Char) (w : Word) (mode : Mode) (inner : Bool) : Prop :=
  ∀ line tokens, ∃ line', (reading .blank false line [] tokens).run text =
    reading mode inner line' w.reverse tokens

/-- From a place in a word to another, over these pieces. -/
def Adds (mode : Mode) (inner : Bool) (text : List Char) (w : Word) (mode' : Mode)
    (inner' : Bool) : Prop :=
  ∀ line word tokens, ∃ line', (reading mode inner line word tokens).run text =
    reading mode' inner' line' (w.reverse ++ word) tokens

theorem Adds.append {a b : List Char} {v w : Word} {m m' m'' : Mode} {i i' i'' : Bool}
    (h : Adds m i a v m' i') (h' : Adds m' i' b w m'' i'') :
    Adds m i (a ++ b) (v ++ w) m'' i'' := by
  intro line word tokens
  obtain ⟨l, hl⟩ := h line word tokens
  obtain ⟨l', hl'⟩ := h' l (v.reverse ++ word) tokens
  exact ⟨l', by rw [run_append, hl, hl', List.reverse_append, List.append_assoc]⟩

theorem adds_nil (m : Mode) (i : Bool) : Adds m i [] [] m i := fun line _ _ => ⟨line, rfl⟩

theorem adds_flatMap {α : Type} (m : Mode) (i : Bool) (f : α → List Char) (g : α → Word)
    (xs : List α) (h : ∀ x ∈ xs, Adds m i (f x) (g x) m i) :
    Adds m i (xs.flatMap f) (xs.flatMap g) m i := by
  induction xs with
  | nil => exact adds_nil m i
  | cons x xs ih =>
    rw [List.flatMap_cons, List.flatMap_cons]
    exact (h x (by simp)).append (ih fun y hy => h y (by simp [hy]))

theorem Begins.append {a b : List Char} {v w : Word} {m m' : Mode} {i i' : Bool}
    (h : Begins a v m i) (h' : Adds m i b w m' i') : Begins (a ++ b) (v ++ w) m' i' := by
  intro line tokens
  obtain ⟨l, hl⟩ := h line tokens
  obtain ⟨l', hl'⟩ := h' l v.reverse tokens
  exact ⟨l', by rw [run_append, hl, hl', List.reverse_append]⟩

theorem Reads.append {a b : List Char} {ts us : List Token} (h : Reads a ts) (h' : Reads b us) :
    Reads (a ++ b) (ts ++ us) := by
  intro line tokens
  obtain ⟨l, new, hn, hl⟩ := h line tokens
  obtain ⟨l', new', hn', hl'⟩ := h' l (new.reverse ++ tokens)
  refine ⟨l', new ++ new', by simp [hn, hn'], ?_⟩
  rw [run_append, hl, hl', List.reverse_append, List.append_assoc]

theorem reads_nil : Reads [] [] := fun line _ => ⟨line, [], rfl, rfl⟩

theorem reads_flatMap {α : Type} (f : α → List Char) (g : α → List Token) (xs : List α)
    (h : ∀ x, Reads (f x) (g x)) : Reads (xs.flatMap f) (xs.flatMap g) := by
  induction xs with
  | nil => exact reads_nil
  | cons x xs ih =>
    rw [List.flatMap_cons, List.flatMap_cons]
    exact (h x).append ih

/-! ## Single characters -/

theorem feed_reading (m : Mode) (i : Bool) (line : Nat) (word : List Piece)
    (tokens : List Located) (c : Char) (hb : c ≠ '\\') (hn : c ≠ '\n') :
    (reading m i line word tokens).feed c = (reading m i line word tokens).step c := by
  have ht : (reading m i line word tokens).feed c = (reading m i line word tokens).take c := by
    simp [feed, hb, reading]
  rw [ht]
  simp [take, hn, record, Level.record, reading]

theorem plain_ne (c d : Char) (h : isPlain c = true) (hd : isPlain d = false) : c ≠ d := by
  rintro rfl
  simp [hd] at h

theorem stepSign?_plain (s : Lexer) (c : Char) (h : isPlain c = true) : s.stepSign? c = none := by
  unfold stepSign?
  split
  · exact absurd h (by decide)
  · exact absurd h (by decide)
  · exact absurd h (by decide)
  · rfl

theorem plain_contains (c : Char) (ds : List Char) (h : isPlain c = true)
    (hd : ds.all (fun d => !isPlain d) = true) : ds.contains c = false := by
  rw [List.contains_eq_mem, decide_eq_false_iff_not]
  intro hm
  have hplain := List.all_eq_true.1 hd c hm
  rw [h] at hplain
  cases hplain

theorem endsWord_plain (c : Char) (h : isPlain c = true) : endsWord c = false :=
  plain_contains c _ h rfl

/-- A plain character is part of the word it stands in. -/
theorem adds_plain (c : Char) (h : isPlain c = true) :
    Adds .word false [c] [.char c false] .word false := by
  intro line word tokens
  exists line
  have hstep : (reading .word false line word tokens).stepProgramWord c =
      reading .word false line (.char c false :: word) tokens := by
    unfold stepProgramWord
    rw [endsWord_plain c h]
    simp only [Bool.false_eq_true, if_false]
    split
    · exact absurd h (by decide)
    · exact absurd h (by decide)
    · rw [stepSign?_plain _ c h]
      rfl
  exact (feed_reading _ _ _ _ _ c (plain_ne c _ h (by decide)) (plain_ne c _ h (by decide))).trans
    hstep

/-- A plain character begins a word. -/
theorem begins_plain (c : Char) (h : isPlain c = true) :
    Begins [c] [.char c false] .word false := by
  intro line tokens
  exists line
  have hstep : (reading .blank false line [] tokens).stepBlank c =
      reading .word false line [.char c false] tokens := by
    unfold stepBlank
    split
    all_goals try exact absurd h (by decide)
    rw [stepSign?_plain _ c h]
    rfl
  exact (feed_reading _ _ _ _ _ c (plain_ne c _ h (by decide)) (plain_ne c _ h (by decide))).trans
    hstep

/-- Between single quotes every other character stands for itself. -/
theorem adds_single (c : Char) (h : c ≠ '\x27') :
    Adds .single false [c] [.char c true] .single false := by
  intro line word tokens
  by_cases hb : c = '\\'
  · subst hb
    exact ⟨line, rfl⟩
  by_cases hn : c = '\n'
  · subst hn
    exact ⟨line + 1, rfl⟩
  refine ⟨line, (feed_reading _ _ _ _ _ c hb hn).trans ?_⟩
  have hstep : (reading .single false line word tokens).stepInside c =
      (reading .single false line word tokens).push (.char c true) := by
    simp [stepInside, reading, h]
  exact hstep

/-- Between double quotes a character that is not special stands for itself. -/
theorem adds_double (c : Char) (h : isSpecial c = false) :
    Adds .double true [c] [.char c true] .double true := by
  intro line word tokens
  have hb : c ≠ '\\' := by
    rintro rfl
    exact absurd h (by decide)
  by_cases hn : c = '\n'
  · subst hn
    exact ⟨line + 1, rfl⟩
  refine ⟨line, (feed_reading _ _ _ _ _ c hb hn).trans ?_⟩
  have hstep : (reading .double true line word tokens).stepDouble c =
      reading .double true line (.char c true :: word) tokens := by
    unfold stepDouble
    split
    · subst c
      exact absurd h (by decide)
    · unfold stepSign?
      split
      · exact absurd h (by decide)
      · exact absurd h (by decide)
      · exact absurd h (by decide)
      · rfl
  exact hstep

/-- Between double quotes a special character after a backslash stands for
itself. -/
theorem adds_escaped (c : Char) (h : isSpecial c = true) :
    Adds .double true ['\\', c] [.char c true] .double true := by
  intro line word tokens
  have hspecial : c = '\x22' ∨ c = '$' ∨ c = '\x60' ∨ c = '\\' := by
    simpa [isSpecial, or_assoc] using h
  rcases hspecial with rfl | rfl | rfl | rfl <;> exact ⟨line, rfl⟩

/-! ## Quoted text -/

def quotedPieces (c : Char) : Word :=
  if c = '\x27' then [.mark, .char '\x27' true, .mark] else [.char c true]

def wordPieces (text : String) : Word :=
  if text.toList ≠ [] ∧ text.toList.all isPlain then text.toList.map fun c => .char c false
  else .mark :: text.toList.flatMap quotedPieces ++ [.mark]

theorem closes_single : Adds .single false ['\x27'] [.mark] .word false :=
  fun line _ _ => ⟨line, rfl⟩

theorem opens_single : Adds .word false ['\x27'] [.mark] .single false :=
  fun line _ _ => ⟨line, rfl⟩

theorem adds_backslashed : Adds .word false ['\\', '\x27'] [.char '\x27' true] .word false :=
  fun line _ _ => ⟨line, rfl⟩

theorem adds_quoteChar (c : Char) :
    Adds .single false (Script.quoteChar c) (quotedPieces c) .single false := by
  unfold Script.quoteChar quotedPieces
  split
  · exact (closes_single.append adds_backslashed).append opens_single
  · rename_i hc
    exact adds_single c hc

theorem adds_plains (cs : List Char) (h : cs.all isPlain = true) :
    Adds .word false cs (cs.map fun c => .char c false) .word false := by
  have hadds := adds_flatMap .word false (fun c => [c]) (fun c => [Piece.char c false]) cs
    fun c hc => adds_plain c (List.all_eq_true.1 h c hc)
  rwa [List.flatMap_singleton', ← List.map_eq_flatMap] at hadds

theorem adds_singles (cs : List Char) : Adds .single false
    (cs.flatMap Script.quoteChar ++ ['\x27']) (cs.flatMap quotedPieces ++ [.mark]) .word false :=
  (adds_flatMap .single false _ _ cs fun c _ => adds_quoteChar c).append closes_single

theorem begins_plains (cs : List Char) (h : cs ≠ [] ∧ cs.all isPlain = true) :
    Begins cs (cs.map fun c => .char c false) .word false := by
  obtain ⟨hne, hall⟩ := h
  cases cs with
  | nil => exact absurd rfl hne
  | cons c cs =>
    rw [List.all_cons, Bool.and_eq_true] at hall
    exact (begins_plain c hall.1).append (adds_plains cs hall.2)

/-- Every text can be written as a word. -/
theorem begins_word (text : String) :
    Begins (Script.word text).toList (wordPieces text) .word false := by
  unfold Script.word wordPieces
  split
  · rename_i h
    exact begins_plains text.toList h
  · rw [String.toList_ofList]
    have hopen : Begins ['\x27'] [.mark] .single false := fun line _ => ⟨line, rfl⟩
    exact hopen.append (adds_singles text.toList)

theorem adds_escape (text : String) : Adds .double true (Script.escape text).toList
    (text.toList.map fun c => .char c true) .double true := by
  rw [Script.escape, String.toList_ofList, List.map_eq_flatMap]
  apply adds_flatMap
  intro c _
  unfold Script.escapeChar
  split
  · rename_i hc
    exact adds_escaped c hc
  · rename_i hc
    exact adds_double c (by simpa using hc)

/-! ## Parameters -/

def isLabel (label : List Char) : Bool :=
  match label with
  | [] => false
  | c :: r => isNameChar c && !isSign c && !c.isDigit && r.all isNameChar

theorem name_ne (c d : Char) (h : isNameChar c = true) (hd : isNameChar d = false) : c ≠ d := by
  rintro rfl
  simp [hd] at h

theorem feed_name (m : Mode) (i : Bool) (line : Nat) (word : List Piece) (tokens : List Located)
    (c : Char) (h : isNameChar c = true) :
    (reading m i line word tokens).feed c = (reading m i line word tokens).step c :=
  feed_reading m i line word tokens c (name_ne c _ h (by decide)) (name_ne c _ h (by decide))

theorem adds_letters (first : Char) (before cs : List Char) (i : Bool)
    (hs : isSign first = false) (hd : first.isDigit = false) (h : cs.all isNameChar = true) :
    Adds (.braceName (before ++ [first]) false) i cs []
      (.braceName (cs.reverse ++ before ++ [first]) false) i := by
  induction cs generalizing before with
  | nil => exact adds_nil _ i
  | cons c cs ih =>
    rw [List.all_cons, Bool.and_eq_true] at h
    have hc : Adds (.braceName (before ++ [first]) false) i [c] []
        (.braceName (c :: before ++ [first]) false) i := by
      intro line word tokens
      refine ⟨line, (feed_name _ i line word tokens c h.1).trans ?_⟩
      have hstep : (reading (.braceName (before ++ [first]) false) i line word tokens).stepBraceName
          (before ++ [first]) false c =
            reading (.braceName (c :: before ++ [first]) false) i line word tokens := by
        simp [stepBraceName, continuesName, hs, hd, h.1, goto, reading]
      exact hstep
    have hall := hc.append (ih (c :: before) h.2)
    simpa using hall

/-- A parameter in braces between double quotes. -/
theorem adds_label (label : List Char) (h : isLabel label = true) :
    Adds .double true ('$' :: '\x7b' :: label ++ ['\x7d'])
      [.parameter (String.ofList label) .value true []] .double true := by
  cases label with
  | nil => simp [isLabel] at h
  | cons c cs =>
    simp only [isLabel, Bool.and_eq_true, Bool.not_eq_true'] at h
    obtain ⟨⟨⟨hc, hs⟩, hd⟩, hcs⟩ := h
    have hopen : Adds .double true ['$', '\x7b'] [] .brace true := fun line _ _ => ⟨line, rfl⟩
    have hfirst : Adds .brace true [c] [] (.braceName [c] false) true := by
      intro line word tokens
      refine ⟨line, (feed_name _ true line word tokens c hc).trans ?_⟩
      have hstep : (reading .brace true line word tokens).stepBrace c =
          reading (.braceName [c] false) true line word tokens := by
        simp [stepBrace, hc, goto, reading, name_ne c '#' hc (by decide)]
      exact hstep
    have hclose : Adds (.braceName (cs.reverse ++ [c]) false) true ['\x7d']
        [.parameter (nameOf (cs.reverse ++ [c])) .value true []] .double true := by
      intro line word tokens
      exists line
      have hstep : (reading (.braceName (cs.reverse ++ [c]) false) true line word
          tokens).stepBraceName (cs.reverse ++ [c]) false '\x7d' =
            reading .double true line
              (.parameter (nameOf (cs.reverse ++ [c])) .value true [] :: word) tokens := by
        have hstop : continuesName (cs.reverse ++ [c]) '\x7d' = false := by
          simp only [continuesName, List.getLast?_append, List.getLast?_singleton, Option.some_or,
            hs, hd, Bool.false_eq_true, if_false]
          decide
        simp only [stepBraceName, hstop, Bool.false_eq_true, if_false, Bool.not_false, if_true]
        rfl
      exact hstep
    have hletters := adds_letters c [] cs true hs hd hcs
    simp only [List.append_nil, List.nil_append] at hletters
    have hall := ((hopen.append hfirst).append hletters).append hclose
    simpa [nameOf] using hall

/-! ## The ends of words and lines -/

theorem reads_word {text : List Char} {w : Word} (h : Begins text w .word false) :
    Reads (text ++ [' ']) [.word w] := by
  intro line tokens
  obtain ⟨l, hl⟩ := h line tokens
  refine ⟨l, [{ line := l, token := .word w }], rfl, ?_⟩
  rw [run_append, hl]
  have hend : (reading .word false l w.reverse tokens).run [' '] = reading .blank false l []
      ({ line := l, token := .word w.reverse.reverse } :: tokens) := rfl
  rw [hend, List.reverse_reverse]
  rfl

theorem reads_lastWord {text : List Char} {w : Word} (h : Begins text w .word false) :
    Reads (text ++ ['\n']) [.word w, .operator .newline] := by
  intro line tokens
  obtain ⟨l, hl⟩ := h line tokens
  refine ⟨l + 1, [{ line := l, token := .word w },
    { line := l + 1, token := .operator .newline }], rfl, ?_⟩
  rw [run_append, hl]
  have hend : (reading .word false l w.reverse tokens).run ['\n'] =
      reading .blank false (l + 1) []
        ({ line := l + 1, token := .operator .newline } ::
          { line := l, token := .word w.reverse.reverse } :: tokens) := rfl
  rw [hend, List.reverse_reverse]
  rfl

theorem reads_wordSemicolon {text : List Char} {w : Word} (h : Begins text w .word false) :
    Reads (text ++ [';', ' ']) [.word w, .operator .semicolon] := by
  intro line tokens
  obtain ⟨l, hl⟩ := h line tokens
  refine ⟨l, [{ line := l, token := .word w }, { line := l, token := .operator .semicolon }],
    rfl, ?_⟩
  rw [run_append, hl]
  have hend : (reading .word false l w.reverse tokens).run [';', ' '] =
      reading .blank false l []
        ({ line := l, token := .operator .semicolon } ::
          { line := l, token := .word w.reverse.reverse } :: tokens) := rfl
  rw [hend, List.reverse_reverse]
  rfl

theorem reads_newline : Reads ['\n'] [.operator .newline] := fun line _ =>
  ⟨line + 1, [{ line := line + 1, token := .operator .newline }], rfl, rfl⟩

theorem reads_andThen : Reads ['&', '&', ' '] [.operator .andThen] := fun line _ =>
  ⟨line, [{ line := line, token := .operator .andThen }], rfl, rfl⟩

/-- The end of a text that ends between words. -/
theorem finish_reading (line : Nat) (tokens : List Located) :
    (reading .blank false line [] tokens).finish =
      tokens.reverse ++ [{ line := line, token := .ending }] := rfl

end ImageTools.Shell.Lexer
