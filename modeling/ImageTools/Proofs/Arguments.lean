import ImageTools.Proofs.Number
import ImageTools.Proofs.Quoting
import ImageTools.Proofs.Trace

/-!
# The arguments of a script's commands

A word that holds only characters, quotes and values that are not cut is one
argument. A script writes no other words, so a command is run with exactly the
texts it was given, apart from the star of a copied tree.
-/

set_option autoImplicit false

namespace ImageTools.Shell.Trace
open Script Lexer

/-! ## Words that are not cut -/

def isSolid : Glyph → Bool
  | .char _ _ => true
  | .loose c => !separators.contains c
  | .mark => true
  | .begin whole => !whole
  | .cut => false

def isContent : Glyph → Bool
  | .begin _ => false
  | .cut => false
  | _ => true

structure Uncut (gs : List Glyph) (k k' : Cutter) : Prop where
  fields : k'.fields = k.fields
  current : k'.current = (signsOf gs).reverse ++ k.current
  started : k'.started = (k.started || gs.any isContent)
  whole : k'.whole = false

theorem step_uncut (g : Glyph) (k : Cutter) (hw : k.whole = false) (h : isSolid g = true) :
    Uncut [g] k (k.step separators g) := by
  cases g with
  | char c quoted => exact ⟨rfl, rfl, by simp [Cutter.step, Cutter.add, isContent], hw⟩
  | loose c =>
    have hc : separators.contains c = false := by simpa [isSolid] using h
    have hstep : k.step separators (.loose c) = k.add c false := by
      simp only [Cutter.step, hc, Bool.and_false, Bool.false_eq_true, if_false]
    rw [hstep]
    exact ⟨rfl, rfl, by simp [Cutter.add, isContent], hw⟩
  | mark => exact ⟨rfl, rfl, by simp [Cutter.step, isContent], hw⟩
  | «begin» whole =>
    refine ⟨rfl, rfl, by simp [Cutter.step, isContent], ?_⟩
    simpa [isSolid, Cutter.step] using h
  | cut => simp [isSolid] at h

theorem foldl_uncut (gs : List Glyph) (k : Cutter) (hw : k.whole = false)
    (h : gs.all isSolid = true) : Uncut gs k (gs.foldl (Cutter.step separators) k) := by
  induction gs generalizing k with
  | nil => exact ⟨rfl, rfl, by simp, hw⟩
  | cons g gs ih =>
    rw [List.all_cons, Bool.and_eq_true] at h
    have hfirst := step_uncut g k hw h.1
    have hrest := ih (k.step separators g) hfirst.whole h.2
    have hsigns : signsOf (g :: gs) = signsOf [g] ++ signsOf gs := by
      simp [signsOf, List.filterMap_cons]
      split <;> rfl
    refine ⟨hrest.fields.trans hfirst.fields, ?_, ?_, hrest.whole⟩
    · rw [List.foldl_cons, hrest.current, hfirst.current, hsigns, List.reverse_append,
        List.append_assoc]
    · rw [List.foldl_cons, hrest.started, hfirst.started]
      simp [Bool.or_assoc]

theorem fieldsOf_uncut (gs : List Glyph) (h : gs.all isSolid = true)
    (hc : gs.any isContent = true) : fieldsOf separators gs = [signsOf gs] := by
  have huncut := foldl_uncut gs {} rfl h
  have hstarted : (gs.foldl (Cutter.step separators) {}).started = true := by
    rw [huncut.started, hc]
    rfl
  simp [fieldsOf, Cutter.finish, Cutter.endField, hstarted, huncut.fields, huncut.current]

theorem fields_uncut (w : World) (t : Trace) (word : Word) (gs : List Glyph)
    (hg : t.glyphs? word = some gs) (h : gs.all isSolid = true) (hc : gs.any isContent = true) :
    fields? w t word = some (namesOf w t (signsOf gs)) := by
  rw [fields?, hg, Option.map_some, fieldsOf_uncut gs h hc]
  simp

/-! ## Words that are no patterns -/

def isClosed (s : Sign) : Bool := s.quoted || !(['*', '?', '['].contains s.char)

theorem isOpen_closed (p : Pattern) (h : p.all isClosed = true) : isOpen p = false := by
  induction p with
  | nil => rfl
  | cons s p ih =>
    rw [List.all_cons, Bool.and_eq_true] at h
    have hs := h.1
    simp only [isClosed, Bool.or_eq_true, Bool.not_eq_true', List.contains_cons, List.contains_nil,
      Bool.or_false, Bool.or_eq_false_iff] at hs
    rw [isOpen, ih h.2, Bool.or_false]
    rcases hs with hq | ⟨hstar, hmark, hbracket⟩
    · simp [hq]
    · simp [hstar, hmark, hbracket]

theorem namesOf_closed (w : World) (t : Trace) (p : Pattern) (h : p.all isClosed = true) :
    namesOf w t p = [p.text] := by
  simp [namesOf, isOpen_closed p h]

def IsField (t : Trace) (word : Word) (text : String) : Prop :=
  ∃ gs, t.glyphs? word = some gs ∧ gs.all isSolid = true ∧ gs.any isContent = true ∧
    (signsOf gs).all isClosed = true ∧ (signsOf gs).text = text

theorem IsField.fields (w : World) {t : Trace} {word : Word} {text : String}
    (h : IsField t word text) : fields? w t word = some [text] := by
  obtain ⟨gs, hglyphs, hsolid, hcontent, hclosed, htext⟩ := h
  rw [fields_uncut w t word gs hglyphs hsolid hcontent, namesOf_closed w t _ hclosed, htext]

/-! ## Words of characters and quotes -/

def isSettled : Piece → Bool
  | .char c quoted => quoted || !isReplaced c
  | .mark => true
  | _ => false

def signs (word : Word) : Pattern :=
  word.filterMap fun
    | .char c quoted => some ⟨c, quoted⟩
    | _ => none

def settledGlyph : Piece → Glyph
  | .char c quoted => .char c quoted
  | _ => .mark

theorem glyphs_settled (t : Trace) (word : Word) (h : word.all isSettled = true) :
    t.glyphs? word = some (word.map settledGlyph) := by
  induction word with
  | nil => rfl
  | cons piece word ih =>
    rw [List.all_cons, Bool.and_eq_true] at h
    obtain ⟨hsettled, hword⟩ := h
    have hpiece : t.pieceGlyphs? piece = some [settledGlyph piece] := by
      cases piece with
      | char c quoted =>
        have hc : (!quoted && isReplaced c) = false := by
          cases quoted with
          | true => rfl
          | false => simpa [isSettled] using hsettled
        simp [pieceGlyphs?, hc, settledGlyph]
      | mark => rfl
      | _ => simp [isSettled] at hsettled
    rw [glyphs?, hpiece, ih hword]
    rfl

theorem solid_settled (word : Word) (hne : word ≠ []) :
    (word.map settledGlyph).all isSolid = true ∧ (word.map settledGlyph).any isContent = true ∧
      signsOf (word.map settledGlyph) = signs word := by
  have hglyphs : ∀ piece, isSolid (settledGlyph piece) = true ∧
      isContent (settledGlyph piece) = true := by
    intro piece
    cases piece <;> exact ⟨rfl, rfl⟩
  refine ⟨?_, ?_, ?_⟩
  · rw [List.all_map, List.all_eq_true]
    exact fun piece _ => (hglyphs piece).1
  · obtain ⟨piece, rest, rfl⟩ := List.exists_cons_of_ne_nil hne
    rw [List.map_cons, List.any_cons, (hglyphs piece).2, Bool.true_or]
  · rw [signsOf, signs, List.filterMap_map]
    congr 1
    funext piece
    cases piece <;> rfl

theorem fields_settled (w : World) (t : Trace) (word : Word) (hne : word ≠ [])
    (h : word.all isSettled = true) : fields? w t word = some (namesOf w t (signs word)) := by
  obtain ⟨hsolid, hcontent, hsigns⟩ := solid_settled word hne
  rw [fields_uncut w t word _ (glyphs_settled t word h) hsolid hcontent, hsigns]

/-! ## The words of a script -/

theorem unquoted_literal (c d : Char) (h : unquoted c = .literal d) :
    c = d ∧ isReplaced c = false ∧ isClosed ⟨c, false⟩ = true := by
  unfold unquoted at h
  split at h
  · cases h
  · rename_i hactive
    simp only [isActive, List.contains_eq_mem, List.mem_cons, List.not_mem_nil, or_false,
      decide_eq_true_eq, not_or] at hactive
    exact ⟨by injection h, by simp [isReplaced, hactive], by simp [isClosed, hactive]⟩

theorem piece_cases (piece : Piece) : (∃ c quoted, piece = .char c quoted) ∨ piece = .mark ∨
    ∃ part, piece.parts = [part] ∧ part.isLiteral = false := by
  unfold Piece.parts
  split
  · exact Or.inl ⟨_, _, rfl⟩
  · exact Or.inl ⟨_, _, rfl⟩
  · exact Or.inr (Or.inl rfl)
  · exact Or.inr (Or.inr ⟨_, rfl, rfl⟩)
  · exact Or.inr (Or.inr ⟨_, rfl, rfl⟩)

theorem literal_pieces (word : Word) (text : List Char)
    (h : word.flatMap Piece.parts = text.map .literal) :
    word.all isSettled = true ∧ (signs word).all isClosed = true ∧
      (signs word).map (·.char) = text := by
  induction word generalizing text with
  | nil =>
    cases text with
    | nil => exact ⟨rfl, rfl, rfl⟩
    | cons => simp at h
  | cons piece word ih =>
    rw [List.flatMap_cons] at h
    obtain ⟨c, quoted, rfl⟩ | rfl | ⟨part, hpart, hliteral⟩ := piece_cases piece
    · cases text with
      | nil => cases quoted <;> simp [Piece.parts] at h
      | cons d text =>
        cases quoted with
        | true =>
          obtain ⟨hd, hrest⟩ := List.cons.inj h
          obtain ⟨hsettled, hclosed, htext⟩ := ih text hrest
          injection hd with hd
          exact ⟨hsettled, hclosed, by rw [← htext, ← hd]; rfl⟩
        | false =>
          obtain ⟨hd, hrest⟩ := List.cons.inj h
          obtain ⟨hsettled, hclosed, htext⟩ := ih text hrest
          obtain ⟨rfl, hreplaced, hsign⟩ := unquoted_literal c d hd
          refine ⟨?_, ?_, by rw [← htext]; rfl⟩
          · rw [List.all_cons, hsettled]
            simp [isSettled, hreplaced]
          · have hsigns : signs (.char c false :: word) = ⟨c, false⟩ :: signs word := rfl
            rw [hsigns, List.all_cons, hsign, hclosed]
            rfl
    · exact ih text h
    · rw [hpart] at h
      cases text with
      | nil => simp at h
      | cons d text =>
        obtain ⟨rfl, -⟩ := List.cons.inj h
        cases hliteral

theorem isField_literal (t : Trace) (word : Word) (text : String) (hne : word ≠ [])
    (h : word.flatMap Piece.parts = text.toList.map .literal) : IsField t word text := by
  obtain ⟨hsettled, hclosed, htext⟩ := literal_pieces word text.toList h
  obtain ⟨hsolid, hcontent, hsigns⟩ := solid_settled word hne
  refine ⟨_, glyphs_settled t word hsettled, hsolid, hcontent, by rwa [hsigns], ?_⟩
  rw [hsigns, Pattern.text, htext, String.ofList_toList]

theorem wordPieces_ne_nil (text : String) : wordPieces text ≠ [] := by
  unfold wordPieces
  split
  · rename_i h
    simpa using h.1
  · simp

theorem isField_word (t : Trace) (text : String) : IsField t (wordPieces text) text :=
  isField_literal t _ text (wordPieces_ne_nil text) (wordPieces_parts text)

theorem fields_word (w : World) (t : Trace) (text : String) :
    fields? w t (wordPieces text) = some [text] :=
  (isField_word t text).fields w

theorem isField_slashed (t : Trace) (text : String) :
    IsField t (wordPieces text ++ [.char '/' false]) (text ++ "/") := by
  apply isField_literal t _ _ (by simp)
  rw [List.flatMap_append, wordPieces_parts]
  simp [Piece.parts, unquoted, isActive]

theorem fields_slashed (w : World) (t : Trace) (text : String) :
    fields? w t (wordPieces text ++ [.char '/' false]) = some [text ++ "/"] :=
  (isField_slashed t text).fields w

theorem isField_bare (t : Trace) (text : String) (h : isBareText text = true) :
    IsField t (bareWord text) text := by
  simp only [isBareText, Bool.and_eq_true, Bool.not_eq_true', List.isEmpty_eq_false_iff] at h
  apply isField_literal t _ _ (by simpa [bareWord] using h.1)
  rw [bareWord, bare_parts]
  exact List.map_congr_left fun c hc => unquoted_plain c (List.all_eq_true.1 h.2 c hc)

theorem fields_bare (w : World) (t : Trace) (text : String) (h : isBareText text = true) :
    fields? w t (bareWord text) = some [text] :=
  (isField_bare t text h).fields w

def treePattern (source : String) : Pattern :=
  signs (wordPieces source ++ [.char '/' false, .char '*' false])

theorem fields_tree (w : World) (t : Trace) (source : String) :
    fields? w t (wordPieces source ++ [.char '/' false, .char '*' false]) =
      some (namesOf w t (treePattern source)) := by
  apply fields_settled w t _ (by simp)
  rw [List.all_append, (literal_pieces _ _ (wordPieces_parts source)).1]
  rfl

/-! ## Words with values -/

theorem glyphs_append (t : Trace) (a b : Word) :
    t.glyphs? (a ++ b) = (t.glyphs? a).bind fun gs => (t.glyphs? b).map (gs ++ ·) := by
  induction a with
  | nil => simp [glyphs?]
  | cons piece a ih =>
    simp only [List.cons_append, glyphs?, ih]
    cases t.pieceGlyphs? piece <;> cases t.glyphs? a <;> cases t.glyphs? b <;> simp

theorem signsOf_append (a b : List Glyph) : signsOf (a ++ b) = signsOf a ++ signsOf b :=
  List.filterMap_append

theorem signsOf_chars (cs : List Char) (quoted : Bool) :
    signsOf (cs.map fun c => .char c quoted) = cs.map fun c => ⟨c, quoted⟩ := by
  induction cs with
  | nil => rfl
  | cons c cs ih =>
    rw [List.map_cons, List.map_cons, ← ih]
    rfl

theorem signsOf_loose (cs : List Char) : signsOf (cs.map .loose) = cs.map fun c => ⟨c, false⟩ := by
  induction cs with
  | nil => rfl
  | cons c cs ih =>
    rw [List.map_cons, List.map_cons, ← ih]
    rfl

theorem isField_message (t : Trace) (label message : String) (value : List Char)
    (hv : t.value? label = some value) :
    IsField t (messageWord label message) (String.ofList value ++ " " ++ message) := by
  have htext : t.glyphs? (.char ' ' true :: quotedText message ++ [.mark]) =
      some (.char ' ' true :: (message.toList.map fun c => .char c true) ++ [.mark]) := by
    rw [glyphs_settled]
    · simp [settledGlyph, quotedText]
    · simp [isSettled, quotedText]
  have hglyphs : t.glyphs? (messageWord label message) = some (.mark ::
      (value.map fun c => .char c true) ++
        (.char ' ' true :: (message.toList.map fun c => .char c true) ++ [.mark])) := by
    have hword : messageWord label message = [.mark, .parameter label .value true []] ++
        (.char ' ' true :: quotedText message ++ [.mark]) := by
      simp [messageWord]
    rw [hword, glyphs_append, htext]
    simp [glyphs?, pieceGlyphs?, hv, valueGlyphs]
  have hsigns : signsOf (.mark :: (value.map fun c => .char c true) ++
      (.char ' ' true :: (message.toList.map fun c => .char c true) ++ [.mark])) =
        (value ++ ' ' :: message.toList).map fun c => ⟨c, true⟩ := by
    have hspace : .char ' ' true :: (message.toList.map fun c => .char c true) =
        (' ' :: message.toList).map fun c => Glyph.char c true := rfl
    have hmark : signsOf [.mark] = [] := rfl
    rw [hspace, ← List.singleton_append, signsOf_append, signsOf_append, signsOf_append,
      signsOf_chars, signsOf_chars, hmark, List.nil_append, List.append_nil, List.map_append]
  refine ⟨_, hglyphs, by simp [isSolid], by simp [isContent], ?_, ?_⟩
  · rw [hsigns]
    simp [isClosed]
  · rw [hsigns]
    simp [Pattern.text, Function.comp_def, String.append_assoc]

/-- A message stays one argument whatever is in it. -/
theorem fields_message (w : World) (t : Trace) (label message : String) (value : List Char)
    (hv : t.value? label = some value) :
    fields? w t (messageWord label message) =
      some [String.ofList value ++ " " ++ message] :=
  (isField_message t label message value hv).fields w

theorem digit_literal (c : Char) (h : c.isDigit = true) :
    isSolid (.loose c) = true ∧ isClosed ⟨c, false⟩ = true := by
  have hne := fun d => digit_ne c d h
  constructor
  · simp [isSolid, separators, hne ' ' rfl, hne '\t' rfl, hne '\n' rfl]
  · simp [isClosed, hne '*' rfl, hne '?' rfl, hne '[' rfl]

theorem isField_status (t : Trace) :
    IsField t [.parameter "?" .value false []] (toString t.status.toNat) := by
  have hdigits : (toString t.status.toNat).toList = Nat.toDigits 10 t.status.toNat := by simp
  have hne : (toString t.status.toNat).toList ≠ [] := by
    rw [hdigits]
    exact Nat.toDigits_ne_nil
  have hdigit : ∀ c ∈ (toString t.status.toNat).toList,
      isSolid (.loose c) = true ∧ isClosed ⟨c, false⟩ = true := by
    intro c hc
    rw [hdigits] at hc
    exact digit_literal c (Nat.isDigit_of_mem_toDigits (by decide) (by decide) hc)
  have hglyphs : t.glyphs? [.parameter "?" .value false []] =
      some (.begin false :: (toString t.status.toNat).toList.map .loose) := by
    simp [glyphs?, pieceGlyphs?, value?, valueGlyphs]
  have hsigns : signsOf (.begin false :: (toString t.status.toNat).toList.map .loose) =
      (toString t.status.toNat).toList.map fun c => ⟨c, false⟩ := by
    rw [← List.singleton_append, signsOf_append, signsOf_loose]
    rfl
  refine ⟨_, hglyphs, ?_, ?_, ?_, ?_⟩
  · rw [List.all_cons, List.all_map, Bool.and_eq_true, List.all_eq_true]
    exact ⟨rfl, fun c hc => (hdigit c hc).1⟩
  · obtain ⟨c, cs, hcons⟩ := List.exists_cons_of_ne_nil hne
    rw [List.any_cons, List.any_map, hcons]
    rfl
  · rw [hsigns, List.all_map, List.all_eq_true]
    exact fun c hc => (hdigit c hc).2
  · rw [hsigns, Pattern.text, List.map_map, Function.comp_def, List.map_id', String.ofList_toList]

theorem fields_status (w : World) (t : Trace) :
    fields? w t [.parameter "?" .value false []] = some [toString t.status.toNat] :=
  (isField_status t).fields w

end ImageTools.Shell.Trace
