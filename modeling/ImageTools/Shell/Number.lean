/-!
# Numbers in texts

How texts are read as numbers of 64 bits: after blanks and a sign come the
digits, and what follows them is left over. A leading zero asks for octal
digits and `0x` for hexadecimal ones, where that is allowed.
-/

set_option autoImplicit false

namespace ImageTools.Shell

def isSpace (c : Char) : Bool := c == ' ' || (9 ≤ c.toNat && c.toNat ≤ 13)

def digitValue? (c : Char) : Option Nat :=
  if c.isDigit then some (c.toNat - 48)
  else if 'a' ≤ c && c ≤ 'z' then some (c.toNat - 87)
  else if 'A' ≤ c && c ≤ 'Z' then some (c.toNat - 55)
  else none

def isDigitOf (base : Nat) (c : Char) : Bool := (digitValue? c).any (· < base)

def valueIn (base : Nat) (digits : List Char) : Nat :=
  digits.foldl (fun n c => n * base + (digitValue? c).getD 0) 0

def readDigits (base : Nat) (cs : List Char) : Option (Nat × List Char) :=
  match cs.takeWhile (isDigitOf base) with
  | [] => none
  | digits => some (valueIn base digits, cs.dropWhile (isDigitOf base))

def readPrefixed (cs : List Char) : Option (Nat × List Char) :=
  match cs with
  | '0' :: 'x' :: r => (readDigits 16 r).orElse fun _ => some (0, 'x' :: r)
  | '0' :: 'X' :: r => (readDigits 16 r).orElse fun _ => some (0, 'X' :: r)
  | '0' :: _ => readDigits 8 cs
  | _ => readDigits 10 cs

def largest : Nat := 9223372036854775807

def signed? (negative : Bool) (n : Nat) : Option Int :=
  if negative then if n ≤ largest + 1 then some (-n) else none
  else if n ≤ largest then some n else none

def readSigned (read : List Char → Option (Nat × List Char)) (cs : List Char) :
    Option (Int × List Char) :=
  let taken (negative : Bool) (cs : List Char) : Option (Int × List Char) := do
    let (n, rest) ← read cs
    return (← signed? negative n, rest)
  match cs.dropWhile isSpace with
  | '-' :: r => taken true r
  | '+' :: r => taken false r
  | r => taken false r

def decimal? (text : String) : Option Int :=
  match readSigned (readDigits 10) text.toList with
  | some (n, r) => if r.all isSpace then some n else none
  | none => none

def natural? (text : String) : Option Nat :=
  match decimal? text with
  | some n => if 0 ≤ n ∧ n ≤ 2147483647 then some n.toNat else none
  | none => none

def valueNumber? (text : String) : Option Int :=
  match readSigned readPrefixed text.toList with
  | some (n, r) => if r.all isSpace then some n else none
  | none => if text.toList.all isSpace then some 0 else none

def digits? (text : String) : Option Nat :=
  match readDigits 10 text.toList with
  | some (n, []) => some n
  | _ => none

end ImageTools.Shell
