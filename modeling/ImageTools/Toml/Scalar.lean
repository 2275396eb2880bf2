import ImageTools.Toml.Value

/-!
# Numbers, dates and times

A scalar without quotes is one run of characters, and its form as a whole
decides what it is. Only a date may be followed by a blank and a time.
-/

set_option autoImplicit false

namespace ImageTools.Toml

def grouped (digit : Char → Bool) : List Char → Bool
  | [] => false
  | [c] => digit c
  | c :: '_' :: r => digit c && grouped digit r
  | c :: r => digit c && grouped digit r

def isHexDigit (c : Char) : Bool :=
  c.isDigit || ('a' ≤ c && c ≤ 'f') || ('A' ≤ c && c ≤ 'F')

def isOctalDigit (c : Char) : Bool := '0' ≤ c && c ≤ '7'

def isBinaryDigit (c : Char) : Bool := c == '0' || c == '1'

def digitValue (c : Char) : Nat :=
  if c.isDigit then c.toNat - 48 else if c.isUpper then c.toNat - 55 else c.toNat - 87

def numberOf (base : Nat) (digits : List Char) : Nat :=
  digits.foldl (fun n c => if c == '_' then n else n * base + digitValue c) 0

def isWhole (digits : List Char) : Bool :=
  grouped Char.isDigit digits && (digits.head? != some '0' || digits.length == 1)

def signed : List Char → Bool × List Char
  | '+' :: r => (false, r)
  | '-' :: r => (true, r)
  | cs => (false, cs)

def within64? (n : Int) : Option Int :=
  if -9223372036854775808 ≤ n ∧ n ≤ 9223372036854775807 then some n else none

def ofBase? (base : Nat) (digit : Char → Bool) (digits : List Char) : Option Int :=
  if grouped digit digits then within64? (numberOf base digits) else none

def integer? : List Char → Option Int
  | '0' :: 'x' :: r => ofBase? 16 isHexDigit r
  | '0' :: 'o' :: r => ofBase? 8 isOctalDigit r
  | '0' :: 'b' :: r => ofBase? 2 isBinaryDigit r
  | cs =>
    let (negative, digits) := signed cs
    if isWhole digits then
      let n : Int := numberOf 10 digits
      within64? (if negative then -n else n)
    else none

structure FloatForm where
  negative : Bool
  whole : List Char
  fraction : Option (List Char)
  exponent : Option (Bool × List Char)

def splitAtFirst (p : Char → Bool) (cs : List Char) : List Char × Option (List Char) :=
  (cs.takeWhile (fun c => !p c), (cs.dropWhile (fun c => !p c)).tail?)

def floatForm (cs : List Char) : FloatForm :=
  let (negative, body) := signed cs
  let (mantissa, exponent) := splitAtFirst (fun c => c == 'e' || c == 'E') body
  let (whole, fraction) := splitAtFirst (· == '.') mantissa
  { negative := negative, whole := whole, fraction := fraction
    exponent := exponent.map signed }

def FloatForm.isFloat (f : FloatForm) : Bool :=
  isWhole f.whole && (f.fraction.isSome || f.exponent.isSome) &&
  f.fraction.all (grouped Char.isDigit) &&
  f.exponent.all (fun e => grouped Char.isDigit e.2)

def countDigits (digits : List Char) : Nat := (digits.filter Char.isDigit).length

/-- Numbers from here on round to infinity: half a step above the largest
float with 64 bits. -/
def overflowBound : Nat := Nat.pow 2 1024 - Nat.pow 2 970

def FloatForm.overflows (f : FloatForm) : Bool :=
  let fraction := f.fraction.getD []
  let digits := numberOf 10 (f.whole ++ fraction)
  let power : Int := match f.exponent with
    | none => 0
    | some (true, e) => -(numberOf 10 e : Int)
    | some (false, e) => numberOf 10 e
  let scale : Int := power - countDigits fraction
  let order : Int := (Nat.toDigits 10 digits).length + scale
  if digits = 0 ∨ order ≤ 308 then false
  else if 309 < order then true
  else if 0 ≤ scale then overflowBound ≤ digits * Nat.pow 10 scale.toNat
  else overflowBound * Nat.pow 10 (-scale).toNat ≤ digits

def float? (cs : List Char) : Bool :=
  let f := floatForm cs
  f.isFloat && (f.negative || !f.overflows)

def specialFloat? (cs : List Char) : Bool :=
  let (_, body) := signed cs
  body == ['i', 'n', 'f'] || body == ['n', 'a', 'n']

def twoDigits? (a b : Char) : Option Nat :=
  if a.isDigit && b.isDigit then some ((a.toNat - 48) * 10 + (b.toNat - 48)) else none

def inRange? (a b : Char) (low high : Nat) : Bool :=
  (twoDigits? a b).any fun n => low ≤ n && n ≤ high

def isLeapYear (year : Nat) : Bool :=
  year % 4 == 0 && (year % 100 != 0 || year % 400 == 0)

def daysIn (year month : Nat) : Nat :=
  if month = 2 then (if isLeapYear year then 29 else 28)
  else if month = 4 ∨ month = 6 ∨ month = 9 ∨ month = 11 then 30
  else 31

def afterDate? : List Char → Option (List Char)
  | a :: b :: c :: d :: '-' :: e :: f :: '-' :: g :: h :: r => do
    let century ← twoDigits? a b
    let years ← twoDigits? c d
    let month ← twoDigits? e f
    let day ← twoDigits? g h
    if 1 ≤ month ∧ month ≤ 12 ∧ 1 ≤ day ∧ day ≤ daysIn (century * 100 + years) month
    then some r else none
  | _ => none

def afterTime? : List Char → Option (List Char)
  | a :: b :: ':' :: c :: d :: ':' :: e :: f :: r =>
    if inRange? a b 0 23 && inRange? c d 0 59 && inRange? e f 0 60 then
      match r with
      | '.' :: r =>
        if (r.takeWhile Char.isDigit).isEmpty then none else some (r.dropWhile Char.isDigit)
      | r => some r
    else none
  | _ => none

def isOffset : List Char → Bool
  | [] => true
  | ['Z'] => true
  | ['z'] => true
  | [s, a, b, ':', c, d] => (s == '+' || s == '-') && inRange? a b 0 23 && inRange? c d 0 59
  | _ => false

def isZonedTime (cs : List Char) : Bool := (afterTime? cs).any isOffset

def isMoment (cs : List Char) : Bool :=
  (afterTime? cs).any List.isEmpty ||
  match afterDate? cs with
  | some [] => true
  | some ('T' :: r) => isZonedTime r
  | some ('t' :: r) => isZonedTime r
  | _ => false

def scalar? (cs : List Char) : Option Value :=
  if cs = ['t', 'r', 'u', 'e'] then some (.boolean true)
  else if cs = ['f', 'a', 'l', 's', 'e'] then some (.boolean false)
  else if isMoment cs then some (.moment (String.ofList cs))
  else if specialFloat? cs || float? cs then some (.float (String.ofList cs))
  else (integer? cs).map .integer

def isScalarChar (c : Char) : Bool :=
  c.isAlphanum || c == '_' || c == '+' || c == '-' || c == '.' || c == ':'

def scalar (cs : List Char) : Option (Value × List Char) :=
  let run := cs.takeWhile isScalarChar
  let rest := cs.dropWhile isScalarChar
  match afterDate? run, rest with
  | some [], ' ' :: later =>
    let time := later.takeWhile isScalarChar
    if isZonedTime time then
      some (.moment (String.ofList (run ++ ' ' :: time)), later.dropWhile isScalarChar)
    else (scalar? run).map fun v => (v, rest)
  | _, _ => (scalar? run).map fun v => (v, rest)

end ImageTools.Toml
