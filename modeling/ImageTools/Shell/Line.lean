import ImageTools.Shell.Field
import ImageTools.Text.Bytewise

/-!
# Lines of input

A line that is read into variables ends with a line feed. A backslash takes
its meaning from the next character, and joins lines at their end. The line
is cut at separators into as many fields as there are variables, and the last
one gets the rest, without the separator that ends it.
-/

set_option autoImplicit false

namespace ImageTools.Shell

structure Line where
  glyphs : List Glyph := []
  /-- Whether a line feed ended it. -/
  ended : Bool := false
  used : Nat := 0

namespace Line

def ofBytes (raw : Bool) : Bool → List UInt8 → Line
  | _, [] => {}
  | escaped, b :: r =>
    let after (escaped : Bool) (glyphs : List Glyph) : Line :=
      let l := ofBytes raw escaped r
      { l with glyphs := glyphs ++ l.glyphs, used := l.used + 1 }
    if b = 0 then after escaped []
    else if escaped then after false [if b = 10 then .begin false else .char (Text.byteChar b) true]
    else if b = 10 then { ended := true, used := 1 }
    else if b = 92 && !raw then after true []
    else after false [.loose (Text.byteChar b)]

structure Cutter where
  fields : List (List Char) := []
  /-- The field being read, latest character first. -/
  current : List Char := []
  /-- How many more fields there can be. -/
  left : Nat
  /-- A blank has ended a field, and more of the separator may follow. -/
  spaced : Bool := false
  /-- How much of the last field is kept if nothing else follows. -/
  kept : Option Nat := none

namespace Cutter

def add (k : Cutter) (c : Char) : Cutter :=
  { k with current := c :: k.current, spaced := false }

def addLast (k : Cutter) (c : Char) (separates blank : Bool) : Cutter :=
  let current := c :: k.current
  if blank then { k with current := current, kept := k.kept.orElse fun _ => some k.current.length }
  else
    { k with current := current, spaced := false,
             kept := if separates && k.spaced then k.kept else none }

def separate (k : Cutter) (c : Char) (blank : Bool) : Cutter :=
  if k.spaced then { k with spaced := blank }
  else if k.current.isEmpty && blank then k
  else if k.left = 1 then
    { k with left := 0, current := c :: k.current, kept := some k.current.length, spaced := blank }
  else
    { k with fields := k.current.reverse :: k.fields, current := [], left := k.left - 1,
             spaced := blank }

def step (separators : List Char) (k : Cutter) : Glyph → Cutter
  | .char c _ => { k.add c with spaced := false }
  | .loose c =>
    let separates := separators.contains c
    let blank := separates && Shell.Cutter.isBlank c
    if k.left = 0 then k.addLast c separates blank
    else if separates then k.separate c blank
    else k.add c
  | .begin _ => { k with spaced := false }
  | _ => k

def finish (k : Cutter) : List (List Char) :=
  let last := k.current.reverse.take (k.kept.getD k.current.length)
  (if last.isEmpty then k.fields else last :: k.fields).reverse

end Cutter

def fields (separators : List Char) (count : Nat) (l : Line) : List String :=
  ((l.glyphs.foldl (Cutter.step separators) { left := count }).finish).map String.ofList

end Line

end ImageTools.Shell
