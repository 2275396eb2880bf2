import ImageTools.Shell.Pattern

/-!
# Fields

An expanded word is cut into fields where values that were not quoted hold
separators. Blanks among the separators count only between other characters;
every other separator ends a field. A list of arguments is also cut between
any two of them.
-/

set_option autoImplicit false

namespace ImageTools.Shell

inductive Glyph
  | char (c : Char) (quoted : Bool)
  /-- A character of a value that separators cut. -/
  | loose (c : Char)
  /-- Quotes begin or end here, so there is a field even if it is empty. -/
  | mark
  /-- A value begins here; if whole, only its cuts are ends of fields. -/
  | begin (whole : Bool)
  /-- The end of an argument before the next. -/
  | cut
  deriving DecidableEq, Repr

structure Cutter where
  fields : List Pattern := []
  /-- The field being read, latest character first. -/
  current : Pattern := []
  /-- Whether the field is there even if it has no characters. -/
  started : Bool := false
  /-- A blank has ended a field, and more of the separator may follow. -/
  spaced : Bool := false
  whole : Bool := false
  afterWhole : Bool := false

namespace Cutter

def isBlank (c : Char) : Bool := c == ' ' || c == '\t' || c == '\n'

def add (k : Cutter) (c : Char) (quoted : Bool) : Cutter :=
  { k with current := ⟨c, quoted⟩ :: k.current, started := true, spaced := false }

def endField (k : Cutter) : Cutter :=
  { k with fields := k.current.reverse :: k.fields, current := [], started := false }

def separate (k : Cutter) (blank : Bool) : Cutter :=
  if k.spaced then { k with spaced := blank }
  else
    let spaced := blank && !k.afterWhole && !k.whole
    if !k.started && spaced then k else { k.endField with spaced := spaced }

def step (separators : List Char) (k : Cutter) : Glyph → Cutter
  | .char c quoted => k.add c quoted
  | .loose c =>
    if !k.whole && separators.contains c then k.separate (isBlank c) else k.add c false
  | .mark => { k with started := true, spaced := false }
  | .begin whole => { k with whole := whole, afterWhole := k.whole, spaced := false }
  | .cut => k.separate true

def finish (k : Cutter) : List Pattern :=
  (if k.started || k.whole then k.endField else k).fields.reverse

end Cutter

def fieldsOf (separators : List Char) (glyphs : List Glyph) : List Pattern :=
  (glyphs.foldl (Cutter.step separators) {}).finish

def signsOf (glyphs : List Glyph) : Pattern :=
  glyphs.filterMap fun g =>
    match g with
    | .char c quoted => some ⟨c, quoted⟩
    | .loose c => some ⟨c, false⟩
    | _ => none

def Pattern.text (p : Pattern) : String := String.ofList (p.map (·.char))

end ImageTools.Shell
