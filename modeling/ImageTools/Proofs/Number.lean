import Mathlib.Algebra.Group.Nat.Defs
import ImageTools.Shell.Number

/-!
# Numbers that are written and read

The shell reads the digits of a number as that number, unless 64 bits do not
hold it.
-/

set_option autoImplicit false

namespace ImageTools

/-- A run of characters of one kind ends before a character of another kind. -/
theorem span_run {p : Char → Bool} {run rest : List Char} (hrun : ∀ c ∈ run, p c = true)
    (hrest : ∀ c ∈ rest.head?, p c = false) :
    (run ++ rest).takeWhile p = run ∧ (run ++ rest).dropWhile p = rest := by
  rw [List.takeWhile_append_of_pos hrun, List.dropWhile_append_of_pos hrun]
  cases rest with
  | nil => simp
  | cons c rest => simp [hrest c rfl]

namespace Shell

theorem digit_ne (c d : Char) (h : c.isDigit = true) (hd : d.isDigit = false) : c ≠ d := by
  rintro rfl
  rw [h] at hd
  cases hd

theorem digit_bounds (c : Char) (h : c.isDigit = true) : 48 ≤ c.toNat ∧ c.toNat ≤ 57 := by
  simp only [Char.isDigit, Bool.and_eq_true, decide_eq_true_eq] at h
  exact h

theorem isSpace_digit (c : Char) (h : c.isDigit = true) : isSpace c = false := by
  have hblank := digit_ne c ' ' h rfl
  have hbounds := digit_bounds c h
  simp only [isSpace, Bool.or_eq_false_iff, beq_eq_false_iff_ne, decide_eq_false_iff_not,
    Bool.and_eq_false_iff]
  exact ⟨hblank, Or.inr (by omega)⟩

theorem isDigitOf_digit (c : Char) (h : c.isDigit = true) : isDigitOf 10 c = true := by
  have hbounds := digit_bounds c h
  simp only [isDigitOf, digitValue?, h, if_true, Option.any_some, decide_eq_true_eq]
  omega

theorem valueIn_digits (cs : List Char) (h : cs.all Char.isDigit = true) :
    valueIn 10 cs = Nat.ofDigitChars 10 cs 0 := by
  have hfold : ∀ n, cs.foldl (fun n c => n * 10 + (digitValue? c).getD 0) n =
      Nat.ofDigitChars 10 cs n := by
    induction cs with
    | nil => simp
    | cons c cs ih =>
      rw [List.all_cons, Bool.and_eq_true] at h
      intro n
      rw [List.foldl_cons, Nat.ofDigitChars_cons, ih h.2, digitValue?, if_pos h.1, Nat.mul_comm]
      rfl
  exact hfold 0

theorem valueIn_lt (base : Nat) (cs : List Char) (h : ∀ c ∈ cs, isDigitOf base c = true) :
    valueIn base cs < base ^ cs.length := by
  have hfold : ∀ n, cs.foldl (fun n c => n * base + (digitValue? c).getD 0) n <
      (n + 1) * base ^ cs.length := by
    induction cs with
    | nil => simp
    | cons c cs ih =>
      rw [List.forall_mem_cons] at h
      intro n
      have hdigit : (digitValue? c).getD 0 < base := by
        have hany := h.1
        rw [isDigitOf] at hany
        cases hd : digitValue? c <;> simp_all
      have hstep : n * base + (digitValue? c).getD 0 + 1 ≤ (n + 1) * base := by
        rw [Nat.add_one_mul]
        omega
      rw [List.foldl_cons, List.length_cons, Nat.pow_succ']
      calc cs.foldl _ (n * base + (digitValue? c).getD 0)
          < (n * base + (digitValue? c).getD 0 + 1) * base ^ cs.length := ih h.2 _
        _ ≤ (n + 1) * base * base ^ cs.length := Nat.mul_le_mul_right _ hstep
        _ = (n + 1) * (base * base ^ cs.length) := Nat.mul_assoc _ _ _
  rw [← Nat.one_mul (base ^ cs.length)]
  exact hfold 0

/-- Digits are read as the number that they write. -/
theorem decimal_digits (cs : List Char) (hne : cs ≠ []) (h : cs.all Char.isDigit = true)
    (hn : Nat.ofDigitChars 10 cs 0 ≤ largest) :
    decimal? (String.ofList cs) = some (Nat.ofDigitChars 10 cs 0 : Int) := by
  have hdigit := List.all_eq_true.1 h
  obtain ⟨c, rest, rfl⟩ := List.exists_cons_of_ne_nil hne
  have hc := hdigit c List.mem_cons_self
  have hread : readDigits 10 (c :: rest) = some (Nat.ofDigitChars 10 (c :: rest) 0, []) := by
    have hof : ∀ d ∈ c :: rest, isDigitOf 10 d = true := fun d hd => isDigitOf_digit d (hdigit d hd)
    have hspan := @span_run (isDigitOf 10) (c :: rest) [] hof (by simp)
    rw [List.append_nil] at hspan
    obtain ⟨htake, hdrop⟩ := hspan
    rw [readDigits, htake, hdrop, ← valueIn_digits _ h]
  have hsigned : readSigned (readDigits 10) (c :: rest) =
      some ((Nat.ofDigitChars 10 (c :: rest) 0 : Int), []) := by
    rw [readSigned, List.dropWhile_cons_of_neg (by simp [isSpace_digit c hc])]
    split
    · rename_i heq
      exact absurd (List.cons.inj heq).1 (digit_ne c '-' hc rfl)
    · rename_i heq
      exact absurd (List.cons.inj heq).1 (digit_ne c '+' hc rfl)
    · simp [hread, signed?, hn]
  rw [decimal?, String.toList_ofList, hsigned]
  rfl

/-- A number that was written in decimal is read back. -/
theorem decimal_toString (n : Nat) (hn : n ≤ largest) : decimal? (toString n) = some (n : Int) := by
  have hdigits : (Nat.toDigits 10 n).all Char.isDigit = true :=
    List.all_eq_true.2 fun c hc => Nat.isDigit_of_mem_toDigits (by decide) (by decide) hc
  have h := decimal_digits (Nat.toDigits 10 n) Nat.toDigits_ne_nil hdigits (by simpa using hn)
  rwa [Nat.ofDigitChars_ten_toDigits, ← Nat.repr_eq_ofList_toDigits] at h

end Shell

end ImageTools
