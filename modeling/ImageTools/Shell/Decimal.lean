import ImageTools.Shell.Number

/-!
# Numbers with a point

A text is read as the nearest binary number with 53 digits, and such a number
is written with a given number of decimal places or decimal digits. All is
exact: a quotient is rounded once, to the nearest number and halfway to the
even one.
-/

set_option autoImplicit false

namespace ImageTools.Shell.Decimal

def roundDiv (num den : Nat) : Nat :=
  let q := num / den
  let r := num % den
  if 2 * r < den then q else if den < 2 * r then q + 1 else q + q % 2

structure Ratio where
  num : Nat
  den : Nat
  deriving DecidableEq, Repr

namespace Ratio

def timesTwo (r : Ratio) (e : Int) : Ratio :=
  if 0 ≤ e then { r with num := r.num * Nat.pow 2 e.toNat }
  else { r with den := r.den * Nat.pow 2 (-e).toNat }

def timesTen (r : Ratio) (e : Int) : Ratio :=
  if 0 ≤ e then { r with num := r.num * Nat.pow 10 e.toNat }
  else { r with den := r.den * Nat.pow 10 (-e).toNat }

def round (r : Ratio) : Nat := roundDiv r.num r.den

def log2 (r : Ratio) : Int :=
  let k : Int := (Nat.log2 r.num : Int) - (Nat.log2 r.den : Int)
  let s := r.timesTwo (-k)
  if s.num < s.den then k - 1 else k

def log10 (r : Ratio) : Int :=
  if r.den ≤ r.num then ((Nat.toDigits 10 (r.num / r.den)).length : Int) - 1
  else
    match (List.range 400).find? fun k => r.den ≤ r.num * Nat.pow 10 k with
    | some k => -(k : Int)
    | none => -400

end Ratio

inductive Value
  /-- Times a power of two. -/
  | finite (mantissa : Nat) (exponent : Int)
  | infinite
  | undefined
  deriving DecidableEq, Repr

def lowestExponent : Int := -1074

/-- The nearest number with 53 binary digits, and whether it is in range. -/
def Value.ofRatio (r : Ratio) : Value × Bool :=
  if r.num = 0 then (.finite 0 0, true)
  else
    let e := max lowestExponent (r.log2 - 52)
    let m := (r.timesTwo (-e)).round
    let size := e + (Nat.log2 m : Int)
    if 1024 ≤ size then (.infinite, false) else (.finite m e, -1022 ≤ size)

def Value.ratio (m : Nat) (e : Int) : Ratio := ({ num := m, den := 1 } : Ratio).timesTwo e

/-! ## Reading -/

def readDigitsWithPoint (base : Nat) (cs : List Char) : Option (Nat × Nat × List Char) :=
  let before := cs.takeWhile (isDigitOf base)
  let r := cs.drop before.length
  let (after, r) := match r with
    | '.' :: r => (r.takeWhile (isDigitOf base), r.dropWhile (isDigitOf base))
    | r => ([], r)
  if before.isEmpty && after.isEmpty then none
  else some (valueIn base (before ++ after), after.length, r)

def readExponent (letters : List Char) (cs : List Char) : Int × List Char :=
  match cs with
  | c :: r =>
    if letters.contains c then
      let (negative, digits) := match r with
        | '-' :: r => (true, r)
        | '+' :: r => (false, r)
        | r => (false, r)
      match readDigits 10 digits with
      | some (n, rest) => (if negative then -(min n 100000 : Nat) else (min n 100000 : Nat), rest)
      | none => (0, cs)
    else (0, cs)
  | [] => (0, cs)

def dropWord? (word : String) (cs : List Char) : Option (List Char) :=
  if (cs.take word.length).map Char.toLower == word.toList then some (cs.drop word.length) else none

def readUnsigned (cs : List Char) : Option (Value × Bool × List Char) :=
  let decimal : Option (Value × Bool × List Char) := do
    let (n, places, r) ← readDigitsWithPoint 10 cs
    let (e, r) := readExponent ['e', 'E'] r
    let (v, fits) := Value.ofRatio (({ num := n, den := 1 } : Ratio).timesTen (e - places))
    some (v, fits, r)
  let hexadecimal (r : List Char) : Option (Value × Bool × List Char) := do
    let (n, places, r) ← readDigitsWithPoint 16 r
    let (e, r) := readExponent ['p', 'P'] r
    let (v, fits) := Value.ofRatio (({ num := n, den := 1 } : Ratio).timesTwo (e - 4 * places))
    some (v, fits, r)
  match cs with
  | '0' :: 'x' :: r => (hexadecimal r).orElse fun _ => decimal
  | '0' :: 'X' :: r => (hexadecimal r).orElse fun _ => decimal
  | _ =>
    match dropWord? "infinity" cs, dropWord? "inf" cs, dropWord? "nan" cs with
    | some r, _, _ => some (.infinite, true, r)
    | _, some r, _ => some (.infinite, true, r)
    | _, _, some r => some (.undefined, true, r)
    | _, _, _ => decimal

structure Reading where
  negative : Bool
  value : Value
  inRange : Bool
  rest : List Char

def read (cs : List Char) : Option Reading :=
  let (negative, r) := match cs.dropWhile isSpace with
    | '-' :: r => (true, r)
    | '+' :: r => (false, r)
    | r => (false, r)
  (readUnsigned r).map fun (value, inRange, rest) =>
    { negative := negative, value := value, inRange := inRange, rest := rest }

/-! ## Writing -/

def withPoint (places : Nat) (always : Bool) (digits : List Char) : List Char :=
  let digits := List.replicate (places + 1 - digits.length) '0' ++ digits
  let whole := digits.take (digits.length - places)
  let after := digits.drop (digits.length - places)
  if after.isEmpty && !always then whole else whole ++ '.' :: after

def fixed (r : Ratio) (places : Nat) (point : Bool) : List Char :=
  withPoint places point (Nat.toDigits 10 (r.timesTen places).round)

def leading (r : Ratio) (places : Nat) : List Char × Int :=
  if r.num = 0 then (List.replicate (places + 1) '0', 0)
  else
    let x := r.log10
    let digits := Nat.toDigits 10 (r.timesTen (places - x)).round
    if digits.length = places + 1 then (digits, x) else (digits.dropLast, x + 1)

def exponentText (letter : Char) (x : Int) : List Char :=
  let digits := Nat.toDigits 10 x.natAbs
  letter :: (if x < 0 then '-' else '+') :: List.replicate (2 - digits.length) '0' ++ digits

def scientific (r : Ratio) (places : Nat) (point : Bool) (letter : Char) : List Char :=
  let (digits, x) := leading r places
  withPoint places point digits ++ exponentText letter x

def dropZeros (cs : List Char) : List Char :=
  if cs.contains '.' then
    (cs.reverse.dropWhile (· == '0') |>.dropWhile (· == '.')).reverse
  else cs

def general (r : Ratio) (digits : Nat) (keepZeros : Bool) (letter : Char) : List Char :=
  let digits := max 1 digits
  let (first, x) := leading r (digits - 1)
  let trim (cs : List Char) : List Char := if keepZeros then cs else dropZeros cs
  if -4 ≤ x ∧ x < digits then
    trim (fixed r ((digits : Int) - 1 - x).toNat keepZeros)
  else trim (withPoint (digits - 1) keepZeros first) ++ exponentText letter x

def binary (m : Nat) (e : Int) (places : Option Nat) (point : Bool) : List Char :=
  let lowest := if m = 0 then e else max lowestExponent (e + (Nat.log2 m : Int) - 52)
  let bits := (Value.ratio m (e - lowest)).round
  let power := if m = 0 then 0 else lowest + 52
  let digits (n : Nat) : List Char :=
    let count := Nat.pow 16 n
    let whole := if n ≤ 13 then roundDiv bits (Nat.pow 16 (13 - n))
      else bits * Nat.pow 16 (n - 13)
    let after := Nat.toDigits 16 (whole % count)
    Nat.toDigits 16 (whole / count) ++
      if n = 0 then [] else '.' :: List.replicate (n - after.length) '0' ++ after
  let shown := match places with
    | some n => digits n
    | none => dropZeros (digits 13)
  (if point && !shown.contains '.' then shown ++ ['.'] else shown) ++
    'p' :: (if power < 0 then '-' else '+') :: Nat.toDigits 10 power.natAbs

def base (letter : Char) (v : Value) : List Char :=
  match v with
  | .finite _ _ =>
    if letter = 'a' then ['0', 'x'] else if letter = 'A' then ['0', 'X'] else []
  | _ => []

def form (letter : Char) (precision : Option Nat) (alternate : Bool) (v : Value) : List Char :=
  let places := precision.getD 6
  let small : List Char := match v with
    | .infinite => ['i', 'n', 'f']
    | .undefined => ['n', 'a', 'n']
    | .finite m e =>
      let r := Value.ratio m e
      match letter.toLower with
      | 'e' => scientific r places alternate 'e'
      | 'f' => fixed r places alternate
      | 'a' => binary m e precision alternate
      | _ => general r places alternate 'e'
  if letter.isUpper then small.map Char.toUpper else small

end ImageTools.Shell.Decimal
