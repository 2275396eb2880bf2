/-!
# Patterns

A pattern is a list of characters, of which the unquoted ones may stand for
others: the star for any text, the question mark for one character, and
brackets for one character of a set.
-/

set_option autoImplicit false

namespace ImageTools.Shell

structure Sign where
  char : Char
  quoted : Bool
  deriving DecidableEq, Repr

abbrev Pattern := List Sign

def namedSet? (name : String) : Option (Char → Bool) :=
  if name = "alnum" then some Char.isAlphanum
  else if name = "alpha" then some Char.isAlpha
  else if name = "blank" then some fun c => c == ' ' || c == '\t'
  else if name = "cntrl" then some fun c => c.toNat < 32 || c.toNat == 127
  else if name = "digit" then some Char.isDigit
  else if name = "graph" then some fun c => 32 < c.toNat && c.toNat < 127
  else if name = "lower" then some Char.isLower
  else if name = "print" then some fun c => 32 ≤ c.toNat && c.toNat < 127
  else if name = "punct" then
    some fun c => 32 < c.toNat && c.toNat < 127 && !c.isAlphanum
  else if name = "space" then some fun c => c == ' ' || (9 ≤ c.toNat && c.toNat ≤ 13)
  else if name = "upper" then some Char.isUpper
  else if name = "xdigit" then
    some fun c => c.isDigit || ('a' ≤ c && c ≤ 'f') || ('A' ≤ c && c ≤ 'F')
  else none

def readNamedSet (signs : Pattern) : Option ((Char → Bool) × Pattern) :=
  match signs with
  | ⟨':', false⟩ :: r =>
    let name := r.takeWhile fun s => s.char.isAlpha
    match r.dropWhile (fun s => s.char.isAlpha), namedSet? (String.ofList (name.map (·.char))) with
    | ⟨':', _⟩ :: ⟨']', _⟩ :: rest, some holds => some (holds, rest)
    | _, _ => none
  | _ => none

/-- Whether the brackets at whose inside the signs stand hold the character,
and what follows them; none if they are never closed. The flags tell whether
a set has been found and whether this is its first sign. -/
def readSet (c : Char) : Nat → Bool → Bool → Pattern → Option (Bool × Pattern)
  | 0, _, _, _ => none
  | _, _, _, [] => none
  | n + 1, found, first, s :: r =>
    if !first && !s.quoted && s.char == ']' then some (found, r)
    else
      match (if !s.quoted && s.char == '[' then readNamedSet r else none) with
      | some (holds, rest) => readSet c n (found || holds c) false rest
      | none =>
        match r with
        | ⟨'-', false⟩ :: last :: rest =>
          if !last.quoted && last.char == ']' then readSet c n (found || s.char == c) false r
          else readSet c n (found || (s.char ≤ c && c ≤ last.char)) false rest
        | _ => readSet c n (found || s.char == c) false r

def inBrackets? (c : Char) (signs : Pattern) : Option (Bool × Pattern) :=
  match signs with
  | ⟨'!', false⟩ :: r => (readSet c (r.length + 1) false true r).map fun p => (!p.1, p.2)
  | r => readSet c (r.length + 1) false true r

def anyEnd (fits : List Char → Bool) : List Char → Bool
  | [] => fits []
  | c :: r => fits (c :: r) || anyEnd fits r

def fitsWithin : Nat → Pattern → List Char → Bool
  | 0, _, _ => false
  | _, [], cs => cs.isEmpty
  | n + 1, s :: r, cs =>
    if !s.quoted && s.char == '*' then anyEnd (fitsWithin n r) cs
    else
      match cs with
      | [] => false
      | c :: rest =>
        if !s.quoted && s.char == '?' then fitsWithin n r rest
        else
          match (if !s.quoted && s.char == '[' then inBrackets? c r else none) with
          | some (found, after) => found && fitsWithin n after rest
          | none => s.char == c && fitsWithin n r rest

def Pattern.fits (p : Pattern) (text : List Char) : Bool := fitsWithin (p.length + 1) p text

/-- The pattern in which a backslash that was not quoted itself, since it came
from a value, quotes the character after it. -/
def Pattern.unescape : Pattern → Pattern
  | [] => []
  | [s] => [if s.char == '\\' then { s with quoted := true } else s]
  | s :: t :: r =>
    if s.char == '\\' && !s.quoted then { t with quoted := true } :: Pattern.unescape r
    else s :: Pattern.unescape (t :: r)

def Pattern.isOpen (p : Pattern) : Bool :=
  p.any fun s => !s.quoted && ['*', '?', '['].contains s.char

def Pattern.dropFront (p : Pattern) (longest : Bool) (text : List Char) : List Char :=
  let sizes := List.range (text.length + 1)
  match (if longest then sizes.reverse else sizes).find? fun n => p.fits (text.take n) with
  | some n => text.drop n
  | none => text

def Pattern.dropBack (p : Pattern) (longest : Bool) (text : List Char) : List Char :=
  let sizes := List.range (text.length + 1)
  match (if longest then sizes else sizes.reverse).find? fun n => p.fits (text.drop n) with
  | some n => text.take n
  | none => text

/-- A list without the front of its first text. Where the longest front that
fits is all of that text, nothing is left of the list. -/
def Pattern.dropFrontOfAll (p : Pattern) (longest : Bool) : List (List Char) → List (List Char)
  | [] => []
  | a :: r => if longest && p.fits a then [] else p.dropFront longest a :: r

def Pattern.dropBackOfAll (p : Pattern) (longest : Bool) : List (List Char) → List (List Char)
  | [] => []
  | a :: r =>
    let fitsEnd (a : List Char) : Bool := (List.range (a.length + 1)).any fun n => p.fits (a.drop n)
    if (longest || !r.any fitsEnd) && fitsEnd a then [p.dropBack longest a]
    else if longest then a :: r
    else a :: p.dropBackOfAll longest r

end ImageTools.Shell
