import Mathlib.Data.List.TakeWhile
import ImageTools.Proofs.ScriptLines

/-!
# Words where a command begins

The first word of a command is read by rules of its own: if nothing of it is
quoted it can be a keyword or set a variable, and then it is not the program
that is run. A script writes every word by one rule, which leaves plain texts
as they are, so these are the texts that are misread as the name of a program.
-/

set_option autoImplicit false

namespace ImageTools

namespace Shell

/-! ## How the first word is read -/

def reservedWords : List String :=
  keywords ++ ["[[", "]]", "coproc", "function", "select", "time"]

def isReserved (w : Word) : Bool := reservedWords.any fun k => isBare k w

def isNamePiece : Piece → Bool
  | .char c false => Lexer.isNameChar c
  | _ => false

def isSetting : Word → Bool
  | .char '=' false :: _ => true
  | .char '+' false :: .char '=' false :: _ => true
  | _ => false

def isAssigning (w : Word) : Bool :=
  (bareText? (w.takeWhile isNamePiece)).any (fun name => isNamed (String.ofList name)) &&
    isSetting (w.dropWhile isNamePiece)

def Assigns (text : String) : Prop :=
  ∃ name value, isNamed name = true ∧ (text = name ++ "=" ++ value ∨ text = name ++ "+=" ++ value)

theorem assignment_none (w : Word) (h : isAssigning w = false) : assignment? w = none := by
  unfold assignment?
  dsimp only
  split
  · rename_i letters value hletters hvalue
    have hname : bareText? (w.takeWhile isNamePiece) = some letters := by
      refine Eq.trans (congrArg (fun p => bareText? (w.takeWhile p)) (funext fun p => ?_)) hletters
      cases p <;> rfl
    have hsign : w.dropWhile isNamePiece = .char '=' false :: value := by
      refine Eq.trans (congrArg (fun p => w.dropWhile p) (funext fun p => ?_)) hvalue
      cases p <;> rfl
    have hnot : isNamed (String.ofList letters) = false := by
      simpa [isAssigning, hname, hsign, isSetting] using h
    simp [hnot]
  · rfl

end Shell

namespace Script
open Shell Shell.Lexer

/-- The text, written as the first word of a command, is no command. -/
def Misread (text : String) : Prop :=
  text.toList.all isPlain = true ∧ (text ∈ reservedWords ∨ Assigns text)

theorem bareText_chars (cs : List Char) : bareText? (cs.map fun c => .char c false) = some cs := by
  induction cs with
  | nil => rfl
  | cons c cs ih => rw [List.map_cons, bareText?, ih, Option.map_some]

theorem takeWhile_chars (cs : List Char) :
    (cs.map fun c => Piece.char c false).takeWhile isNamePiece =
      (cs.takeWhile isNameChar).map fun c => .char c false := by
  rw [List.takeWhile_map]
  rfl

theorem dropWhile_chars (cs : List Char) :
    (cs.map fun c => Piece.char c false).dropWhile isNamePiece =
      (cs.dropWhile isNameChar).map fun c => .char c false := by
  rw [List.dropWhile_map]
  rfl

theorem isNamed_iff (text : String) : isNamed text = true ↔
    (∃ c r, text.toList = c :: r ∧ isNameStart c = true) ∧ text.toList.all isNameChar = true := by
  unfold isNamed
  cases text.toList with
  | nil => simp
  | cons c r =>
    have hc : isNameStart c = true → isNameChar c = true := by
      simp only [isNameStart, isNameChar, Char.isAlphanum, Bool.or_eq_true]
      rintro (h | h) <;> simp [h]
    simp only [Bool.and_eq_true, List.all_cons, List.cons.injEq]
    constructor
    · rintro ⟨h, hr⟩
      exact ⟨⟨c, r, ⟨rfl, rfl⟩, h⟩, hc h, hr⟩
    · rintro ⟨⟨_, _, ⟨rfl, rfl⟩, h⟩, -, hr⟩
      exact ⟨h, hr⟩

theorem isSetting_chars (cs : List Char) :
    isSetting (cs.map fun c => .char c false) = true ↔
      ∃ value, cs = '=' :: value ∨ cs = '+' :: '=' :: value := by
  constructor
  · intro h
    unfold isSetting at h
    split at h
    · rename_i heq
      obtain ⟨c, r, rfl, hc, -⟩ := List.map_eq_cons_iff.1 heq
      injection hc with hc
      exact ⟨r, Or.inl (by rw [hc])⟩
    · rename_i heq
      obtain ⟨c, r, rfl, hc, hr⟩ := List.map_eq_cons_iff.1 heq
      obtain ⟨d, r, rfl, hd, -⟩ := List.map_eq_cons_iff.1 hr
      injection hc with hc
      injection hd with hd
      exact ⟨r, Or.inr (by rw [hc, hd])⟩
    · cases h
  · rintro ⟨value, rfl | rfl⟩ <;> rfl

/-- A plain text is an assignment exactly if it is a name, the sign and a value. -/
theorem isAssigning_chars (text : String) :
    isAssigning (text.toList.map fun c => .char c false) = true ↔ Assigns text := by
  rw [isAssigning, takeWhile_chars, dropWhile_chars, bareText_chars, Bool.and_eq_true,
    Option.any_some, isSetting_chars]
  constructor
  · rintro ⟨hname, value, hvalue⟩
    refine ⟨_, String.ofList value, hname, ?_⟩
    have hsplit := List.takeWhile_append_dropWhile (p := isNameChar) (l := text.toList)
    rcases hvalue with hvalue | hvalue
    · rw [hvalue] at hsplit
      exact Or.inl (String.toList_inj.1 (by simpa using hsplit.symm))
    · rw [hvalue] at hsplit
      exact Or.inr (String.toList_inj.1 (by simpa using hsplit.symm))
  · rintro ⟨name, value, hname, htext⟩
    have hchars := List.all_eq_true.1 ((isNamed_iff name).1 hname).2
    have hcut : ∀ c rest, text.toList = name.toList ++ c :: rest → isNameChar c = false →
        text.toList.takeWhile isNameChar = name.toList ∧
          text.toList.dropWhile isNameChar = c :: rest := by
      intro c rest heq hc
      rw [heq, List.takeWhile_append_of_pos hchars, List.dropWhile_append_of_pos hchars]
      simp [hc]
    rcases htext with rfl | rfl
    · obtain ⟨htake, hdrop⟩ := hcut '=' value.toList (by simp) (by decide)
      rw [htake, hdrop, String.ofList_toList]
      exact ⟨hname, _, Or.inl rfl⟩
    · obtain ⟨htake, hdrop⟩ := hcut '+' ('=' :: value.toList) (by simp) (by decide)
      rw [htake, hdrop, String.ofList_toList]
      exact ⟨hname, _, Or.inr rfl⟩

/-! ## Words of a script where a command begins -/

/-- A word is written as it is, or in quotes from its first character on. -/
theorem wordPieces_cases (text : String) :
    (wordPieces text = (text.toList.map fun c => .char c false) ∧ text.toList.all isPlain = true) ∨
    ((∃ rest, wordPieces text = .mark :: rest) ∧
      (text.toList = [] ∨ text.toList.all isPlain = false)) := by
  unfold wordPieces
  split
  · rename_i h
    exact Or.inl ⟨rfl, h.2⟩
  · rename_i h
    refine Or.inr ⟨⟨_, rfl⟩, ?_⟩
    by_cases hempty : text.toList = []
    · exact Or.inl hempty
    · exact Or.inr (by simpa [hempty] using h)

theorem isReserved_word (text : String) :
    isReserved (wordPieces text) = true ↔
      text.toList.all isPlain = true ∧ text ∈ reservedWords := by
  rcases wordPieces_cases text with ⟨hw, hplain⟩ | ⟨⟨rest, hw⟩, hquoted⟩
  · have hbare : ∀ k, isBare k (wordPieces text) = true ↔ text.toList ≠ [] ∧ text = k := by
      intro k
      rw [isBare, hw, bareText_chars]
      simp [String.toList_inj]
    have hne : ∀ k ∈ reservedWords, k.toList ≠ [] := by decide
    simp only [isReserved, List.any_eq_true, hbare, hplain, true_and]
    constructor
    · rintro ⟨k, hk, -, rfl⟩
      exact hk
    · exact fun hk => ⟨text, hk, hne text hk, rfl⟩
  · have hno : isReserved (wordPieces text) = false := by
      rw [hw]
      simp [isReserved, isBare, bareText?]
    rw [hno]
    refine iff_of_false (by simp) ?_
    rintro ⟨hplain, hk⟩
    rcases hquoted with hempty | hfalse
    · rw [String.toList_eq_nil_iff.1 hempty] at hk
      exact absurd hk (by decide)
    · simp [hplain] at hfalse

theorem isAssigning_word (text : String) :
    isAssigning (wordPieces text) = true ↔ text.toList.all isPlain = true ∧ Assigns text := by
  rcases wordPieces_cases text with ⟨hw, hplain⟩ | ⟨⟨rest, hw⟩, hquoted⟩
  · rw [hw, isAssigning_chars, hplain]
    simp
  · have hno : isAssigning (wordPieces text) = false := by
      rw [hw]
      rfl
    rw [hno]
    refine iff_of_false (by simp) ?_
    rintro ⟨hplain, name, value, -, htext⟩
    rcases hquoted with hempty | hfalse
    · rcases htext with rfl | rfl <;> simp at hempty
    · simp [hplain] at hfalse

theorem misread_iff (text : String) : Misread text ↔
    isReserved (wordPieces text) = true ∨ isAssigning (wordPieces text) = true := by
  rw [isReserved_word, isAssigning_word, Misread, and_or_left]

instance (text : String) : Decidable (Misread text) :=
  decidable_of_iff _ (misread_iff text).symm

example : Misread "time" ∧ Misread "A+=b" ∧ ¬Misread "time/now" ∧ ¬Misread "A=b c" := by
  decide +kernel

/-- What is not misread is read as the first word of a command. -/
theorem isPlain_command (name : String) (args : List String) (h : ¬Misread name) :
    IsPlain (.command (name :: args)) := by
  rw [misread_iff, not_or, Bool.not_eq_true, Bool.not_eq_true] at h
  refine ⟨?_, assignment_none _ h.2⟩
  show (keywords.find? fun k => isBare k (wordPieces name)) = none
  rw [List.find?_eq_none]
  have hnone := h.1
  rw [isReserved, List.any_eq_false] at hnone
  exact fun k hk => hnone k (List.mem_append_left _ hk)

end Script

end ImageTools
