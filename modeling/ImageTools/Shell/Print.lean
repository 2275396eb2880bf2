import ImageTools.Shell.Decimal

/-!
# Printing from the shell

The two commands that print text, `echo` and `printf`, read backslash
sequences of their own, and `printf` fills directives with its arguments.
Texts are bytewise, since octal sequences need not form characters.
-/

set_option autoImplicit false

namespace ImageTools.Shell.Print

def isOctal (c : Char) : Bool := '0' ≤ c && c ≤ '7'

def octalChar (digits : List Char) : Char := Char.ofNat (valueIn 8 digits % 256)

def letterEscape? (c : Char) : Option Char :=
  match c with
  | 'a' => some '\x07'
  | 'b' => some '\x08'
  | 'e' => some '\x1b'
  | 'f' => some '\x0c'
  | 'n' => some '\n'
  | 'r' => some '\r'
  | 't' => some '\t'
  | 'v' => some '\x0b'
  | '\\' => some '\\'
  | _ => none

def octalDigits (cs : List Char) : List Char × List Char :=
  let digits := (cs.take 3).takeWhile isOctal
  (digits, cs.drop digits.length)

def readEscape (cs : List Char) : Char × List Char :=
  match cs with
  | [] => ('\\', [])
  | c :: r =>
    match letterEscape? c with
    | some e => (e, r)
    | none =>
      match octalDigits cs with
      | ([], _) => ('\\', cs)
      | (digits, rest) => (octalChar digits, rest)

theorem length_octalDigits_le (cs : List Char) : (octalDigits cs).2.length ≤ cs.length := by
  simp only [octalDigits, List.length_drop]
  omega

theorem length_readEscape_le (cs : List Char) : (readEscape cs).2.length ≤ cs.length := by
  unfold readEscape
  split
  · exact Nat.le_refl _
  · split
    · exact Nat.le_succ _
    · split
      · exact Nat.le_refl _
      · next c r _ _ _ digits rest _ h =>
        have shorter := length_octalDigits_le (c :: r)
        rw [h] at shorter
        exact shorter

def skipZero (cs : List Char) : List Char :=
  match cs with
  | '0' :: c :: r => if isOctal c then c :: r else cs
  | _ => cs

theorem length_skipZero_le (cs : List Char) : (skipZero cs).length ≤ cs.length := by
  unfold skipZero
  split
  · split
    · exact Nat.le_succ _
    · exact Nat.le_refl _
  · exact Nat.le_refl _

def unescape : List Char → List Char × Bool
  | [] => ([], true)
  | '\\' :: 'c' :: _ => ([], false)
  | '\\' :: r =>
    let p := readEscape (skipZero r)
    let q := unescape p.2
    (p.1 :: q.1, q.2)
  | c :: r => let q := unescape r; (c :: q.1, q.2)
termination_by cs => cs.length
decreasing_by
  · exact Nat.lt_succ_of_le
      (Nat.le_trans (length_readEscape_le _) (length_skipZero_le _))
  · exact Nat.lt_succ_self _

/-- What `echo` prints: the words with blanks between them, escapes read, and
a line feed unless the first word is `-n`. -/
def echo (words : List String) : List Char :=
  let (words, ends) := match words with
    | "-n" :: r => (r, false)
    | ws => (ws, true)
  let (text, more) := unescape (" ".intercalate words).toList
  if more && ends then text ++ ['\n'] else text

/-! ## Directives -/

structure Layout where
  left : Bool := false
  plus : Bool := false
  blank : Bool := false
  zero : Bool := false
  alternate : Bool := false
  width : Nat := 0
  precision : Option Nat := none
  deriving DecidableEq, Repr

def Layout.withFlag (l : Layout) (c : Char) : Layout :=
  match c with
  | '-' => { l with left := true }
  | '+' => { l with plus := true }
  | ' ' => { l with blank := true }
  | '0' => { l with zero := true }
  | '#' => { l with alternate := true }
  | _ => l

def Layout.withWidth (l : Layout) (n : Int) : Layout :=
  if n < 0 then { l with left := true, width := n.natAbs } else { l with width := n.natAbs }

def padding (l : Layout) (size : Nat) (c : Char) : List Char := List.replicate (l.width - size) c

def layText (l : Layout) (text : List Char) : List Char :=
  let shown := (l.precision.map text.take).getD text
  if l.left then shown ++ padding l shown.length ' ' else padding l shown.length ' ' ++ shown

def layNumber (l : Layout) (front digits : List Char) : List Char :=
  let digits := List.replicate ((l.precision.getD 0) - digits.length) '0' ++ digits
  let size := front.length + digits.length
  if l.left then front ++ digits ++ padding l size ' '
  else if l.zero && l.precision.isNone then front ++ padding l size '0' ++ digits
  else padding l size ' ' ++ front ++ digits

def layPointed (l : Layout) (letter : Char) (negative : Bool) (v : Decimal.Value) : List Char :=
  let isFinite := match v with
    | .finite _ _ => true
    | _ => false
  let front := if negative then ['-'] else if l.plus then ['+'] else if l.blank then [' '] else []
  layNumber { l with precision := none, zero := l.zero && isFinite }
    (front ++ Decimal.base letter v) (Decimal.form letter l.precision l.alternate v)

def digitsOf (base n : Nat) (l : Layout) : List Char :=
  if n = 0 ∧ l.precision = some 0 then [] else Nat.toDigits base n

def layDecimal (l : Layout) (n : Int) : List Char :=
  let front := if n < 0 then ['-'] else if l.plus then ['+'] else if l.blank then [' '] else []
  layNumber l front (digitsOf 10 n.natAbs l)

def layUnsigned (l : Layout) (kind : Char) (n : Nat) : List Char :=
  match kind with
  | 'o' =>
    let digits := digitsOf 8 n l
    layNumber l [] (if l.alternate && digits.head? != some '0' then '0' :: digits else digits)
  | 'x' => layNumber l (if l.alternate && n != 0 then ['0', 'x'] else []) (digitsOf 16 n l)
  | 'X' =>
    layNumber l (if l.alternate && n != 0 then ['0', 'X'] else [])
      ((digitsOf 16 n l).map Char.toUpper)
  | _ => layNumber l [] (digitsOf 10 n l)

structure Directive where
  layout : Layout
  starWidth : Bool := false
  starPrecision : Bool := false
  /-- None if the format ends before the letter. -/
  letter : Option Char
  text : List Char
  rest : List Char

def isFlag (c : Char) : Bool := ['#', '-', '+', ' ', '0'].contains c

def isWidth (c : Char) : Bool := c == '*' || c.isDigit

def numberOf (cs : List Char) : Nat := valueIn 10 (cs.takeWhile Char.isDigit)

def readDirective (cs : List Char) : Directive :=
  let layout := (cs.takeWhile isFlag).foldl Layout.withFlag {}
  let r := cs.dropWhile isFlag
  let (layout, starWidth, r) := match r with
    | '*' :: r => (layout, true, r)
    | r => ({ layout with width := numberOf r }, false, r.dropWhile isWidth)
  let (layout, starPrecision, r) := match r with
    | '.' :: '*' :: r => (layout, true, r)
    | '.' :: r => ({ layout with precision := some (numberOf r) }, false, r.dropWhile isWidth)
    | r => (layout, false, r)
  { layout := layout, starWidth := starWidth, starPrecision := starPrecision, letter := r.head?
    text := '%' :: cs.take (cs.length - r.length + 1), rest := r.tail }

structure Progress where
  printed : List Char := []
  complaints : List String := []
  args : List String
  /-- Whether printing was stopped. -/
  stopped : Bool := false
  /-- Whether it cannot go on at all. -/
  failed : Bool := false

namespace Progress

def add (p : Progress) (text : List Char) : Progress := { p with printed := p.printed ++ text }

def complain (p : Progress) (text : String) : Progress :=
  { p with complaints := p.complaints ++ [text] }

def next (p : Progress) : String × Progress := (p.args.headD "", { p with args := p.args.tail })

def number (p : Progress) (signedToo : Bool) : Int × Progress :=
  match p.args with
  | [] => (0, p)
  | a :: rest =>
    let p := { p with args := rest }
    match a.toList with
    | '\x22' :: cs => (((cs.headD '\x00').toNat : Nat), p)
    | '\x27' :: cs => (((cs.headD '\x00').toNat : Nat), p)
    | [] => (0, p)
    | cs =>
      let read : Option (Int × List Char) := match cs.dropWhile isSpace with
        | '-' :: r => (readPrefixed r).map fun q => (-(q.1 : Int), q.2)
        | '+' :: r => (readPrefixed r).map fun q => ((q.1 : Int), q.2)
        | r => (readPrefixed r).map fun q => ((q.1 : Int), q.2)
      match read with
      | none => (0, p.complain (a ++ ": expected numeric value"))
      | some (n, r) =>
        let low : Int := if signedToo then -9223372036854775808 else -18446744073709551615
        let high : Int := if signedToo then 9223372036854775807 else 18446744073709551615
        let shown := if signedToo then max low (min n high)
          else if low ≤ n ∧ n ≤ high then n else high
        if !r.isEmpty then (shown, p.complain (a ++ ": not completely converted"))
        else if shown ≠ n then (shown, p.complain (a ++ ": Numerical result out of range"))
        else (shown, p)

def decimal (p : Progress) : Bool × Decimal.Value × Progress :=
  match p.args with
  | [] => (false, .finite 0 0, p)
  | a :: rest =>
    let p := { p with args := rest }
    match a.toList with
    | '\x22' :: cs => (false, .finite (cs.headD '\x00').toNat 0, p)
    | '\x27' :: cs => (false, .finite (cs.headD '\x00').toNat 0, p)
    | [] => (false, .finite 0 0, p)
    | cs =>
      match Decimal.read cs with
      | none => (false, .finite 0 0, p.complain (a ++ ": expected numeric value"))
      | some n =>
        let p := if !n.rest.isEmpty then p.complain (a ++ ": not completely converted")
          else if !n.inRange then p.complain (a ++ ": Numerical result out of range")
          else p
        (n.negative, n.value, p)

def size (p : Progress) : Int × Progress :=
  let (n, p) := p.number true
  (n.bmod 4294967296, p)

def direct (p : Progress) (d : Directive) : Progress :=
  let (layout, p) :=
    if d.starWidth then
      let (n, p) := p.size
      (d.layout.withWidth n, p)
    else (d.layout, p)
  let (layout, p) :=
    if d.starPrecision then
      let (n, p) := p.size
      ({ layout with precision := if n < 0 then none else some n.natAbs }, p)
    else (layout, p)
  match d.letter with
  | none => { p.complain "missing format character" with failed := true }
  | some c =>
    if c = 's' then
      let (a, p) := p.next
      p.add (layText layout a.toList)
    else if c = 'b' then
      let (a, p) := p.next
      let (text, more) := unescape a.toList
      { p.add (layText layout text) with stopped := !more }
    else if c = 'c' then
      let (a, p) := p.next
      p.add (layText { layout with precision := none } [a.toList.headD '\x00'])
    else if c = 'd' ∨ c = 'i' then
      let (n, p) := p.number true
      p.add (layDecimal layout n)
    else if c = 'o' ∨ c = 'u' ∨ c = 'x' ∨ c = 'X' then
      let (n, p) := p.number false
      p.add (layUnsigned layout c (n % 18446744073709551616).toNat)
    else if ['a', 'A', 'e', 'E', 'f', 'F', 'g', 'G'].contains c then
      let (negative, v, p) := p.decimal
      p.add (layPointed layout c negative v)
    else { p.complain (String.ofList d.text ++ ": invalid directive") with failed := true }

end Progress

def format : Nat → List Char → Progress → Progress
  | 0, _, p => p
  | _, [], p => p
  | n + 1, '\\' :: r, p =>
    let q := readEscape r
    format n q.2 (p.add [q.1])
  | n + 1, '%' :: '%' :: r, p => format n r (p.add ['%'])
  | n + 1, '%' :: r, p =>
    let d := readDirective r
    let p := p.direct d
    if p.stopped || p.failed then p else format n d.rest p
  | n + 1, c :: r, p => format n r (p.add [c])

def repeatFormat (form : List Char) : Nat → Progress → Progress
  | 0, p => p
  | n + 1, p =>
    let before := p.args.length
    let p := format (form.length + 1) form p
    if p.stopped || p.failed || p.args.isEmpty || p.args.length == before then p
    else repeatFormat form n p

def printf (form : String) (args : List String) : Progress :=
  repeatFormat form.toList (args.length + 1) { args := args }

end ImageTools.Shell.Print
