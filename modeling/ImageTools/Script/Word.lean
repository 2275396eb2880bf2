/-!
# Shell words

How text is written into a shell script so that the shell reads it back as
it was: as a word of its own, or inside a double-quoted string.
-/

set_option autoImplicit false

namespace ImageTools.Script

def isPlain (c : Char) : Bool :=
  c.isAlphanum || ['_', '-', '.', '/', ':', ',', '=', '+', '@', '%'].contains c

/-- A character between single quotes; the quote itself is written by
closing, escaping and opening again. -/
def quoteChar (c : Char) : List Char :=
  if c = '\x27' then ['\x27', '\\', '\x27', '\x27'] else [c]

def singleQuoted (text : List Char) : List Char :=
  '\x27' :: text.flatMap quoteChar ++ ['\x27']

/-- The word that the shell reads as `text`: quoted only if it is empty or
holds a character that is not plain. -/
def word (text : String) : String :=
  if text.toList ≠ [] ∧ text.toList.all isPlain then text
  else String.ofList (singleQuoted text.toList)

def isSpecial (c : Char) : Bool :=
  c == '\x22' || c == '$' || c == '\x60' || c == '\\'

def escapeChar (c : Char) : List Char :=
  if isSpecial c then ['\\', c] else [c]

def escape (text : String) : String :=
  String.ofList (text.toList.flatMap escapeChar)

end ImageTools.Script
