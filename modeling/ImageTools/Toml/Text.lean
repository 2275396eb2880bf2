/-!
# Characters, keys and strings of a document

The lowest level of reading: blanks, line ends, comments, keys, and the four
kinds of strings. Every reader takes the characters that are left and gives
back those after what it has read, or fails.
-/

set_option autoImplicit false

namespace ImageTools.Toml

abbrev Reader (α : Type) := List Char → Option (α × List Char)

def isBlank (c : Char) : Bool := c == ' ' || c == '\t'

def skipBlanks (cs : List Char) : List Char := cs.dropWhile isBlank

def isTextual (c : Char) : Bool :=
  c == '\t' || (32 ≤ c.toNat && c.toNat != 127)

def lineEnd? : List Char → Option (List Char)
  | '\n' :: r => some r
  | '\r' :: '\n' :: r => some r
  | _ => none

def skipComment : List Char → List Char
  | '#' :: r => r.dropWhile isTextual
  | cs => cs

def finishLine (cs : List Char) : Option (List Char) :=
  match skipComment (skipBlanks cs) with
  | [] => some []
  | rest => lineEnd? rest

def isBareKeyChar (c : Char) : Bool := c.isAlphanum || c == '-' || c == '_'

def hexValue? (c : Char) : Option Nat :=
  if c.isDigit then some (c.toNat - 48)
  else if 'a' ≤ c ∧ c ≤ 'f' then some (c.toNat - 87)
  else if 'A' ≤ c ∧ c ≤ 'F' then some (c.toNat - 55)
  else none

def hexNumber? : List Char → Nat → Option Nat
  | [], n => some n
  | c :: r, n => (hexValue? c).bind fun d => hexNumber? r (n * 16 + d)

def charOfHex? (digits : List Char) : Option Char :=
  (hexNumber? digits 0).bind fun n => if n.isValidChar then some (Char.ofNat n) else none

def shortEscape? (c : Char) : Option Char :=
  match c with
  | 'b' => some '\x08'
  | 't' => some '\t'
  | 'n' => some '\n'
  | 'f' => some '\x0c'
  | 'r' => some '\r'
  | '\x22' => some '\x22'
  | '\\' => some '\\'
  | _ => none

def prepend (c : Char) (read : Option (List Char × List Char)) : Option (List Char × List Char) :=
  read.map fun p => (c :: p.1, p.2)

def basicRest : List Char → Option (List Char × List Char)
  | '\x22' :: r => some ([], r)
  | '\\' :: 'u' :: a :: b :: c :: d :: r =>
    (charOfHex? [a, b, c, d]).bind fun x => prepend x (basicRest r)
  | '\\' :: 'U' :: a :: b :: c :: d :: e :: f :: g :: h :: r =>
    (charOfHex? [a, b, c, d, e, f, g, h]).bind fun x => prepend x (basicRest r)
  | '\\' :: c :: r => (shortEscape? c).bind fun x => prepend x (basicRest r)
  | c :: r => if isTextual c && c != '\\' then prepend c (basicRest r) else none
  | [] => none

def literalRest : List Char → Option (List Char × List Char)
  | '\x27' :: r => some ([], r)
  | c :: r => if isTextual c then prepend c (literalRest r) else none
  | [] => none

inductive Margin
  /-- In the text. -/
  | inside
  /-- Behind a backslash that ends its line, before the line end. -/
  | trailing
  /-- In the blank space that such a backslash removes. -/
  | leading
  deriving DecidableEq

/-- The rest of a string in three double quotes. Up to two quotes may stand
before the closing three; a backslash at the end of a line removes the line
end and all blank space after it. -/
def longBasicRest : Margin → List Char → Option (List Char × List Char)
  | .trailing, '\n' :: r => longBasicRest .leading r
  | .trailing, '\r' :: '\n' :: r => longBasicRest .leading r
  | .trailing, c :: r => if isBlank c then longBasicRest .trailing r else none
  | .leading, ' ' :: r => longBasicRest .leading r
  | .leading, '\t' :: r => longBasicRest .leading r
  | .leading, '\n' :: r => longBasicRest .leading r
  | .leading, '\r' :: '\n' :: r => longBasicRest .leading r
  | _, '\x22' :: '\x22' :: '\x22' :: '\x22' :: '\x22' :: r => some (['\x22', '\x22'], r)
  | _, '\x22' :: '\x22' :: '\x22' :: '\x22' :: r => some (['\x22'], r)
  | _, '\x22' :: '\x22' :: '\x22' :: r => some ([], r)
  | _, '\\' :: 'u' :: a :: b :: c :: d :: r =>
    (charOfHex? [a, b, c, d]).bind fun x => prepend x (longBasicRest .inside r)
  | _, '\\' :: 'U' :: a :: b :: c :: d :: e :: f :: g :: h :: r =>
    (charOfHex? [a, b, c, d, e, f, g, h]).bind fun x => prepend x (longBasicRest .inside r)
  | _, '\\' :: '\n' :: r => longBasicRest .leading r
  | _, '\\' :: '\r' :: '\n' :: r => longBasicRest .leading r
  | _, '\\' :: c :: r =>
    if isBlank c then longBasicRest .trailing r
    else (shortEscape? c).bind fun x => prepend x (longBasicRest .inside r)
  | _, '\n' :: r => prepend '\n' (longBasicRest .inside r)
  | _, '\r' :: '\n' :: r => prepend '\n' (longBasicRest .inside r)
  | _, c :: r => if isTextual c && c != '\\' then prepend c (longBasicRest .inside r) else none
  | _, [] => none

def longLiteralRest : List Char → Option (List Char × List Char)
  | '\x27' :: '\x27' :: '\x27' :: '\x27' :: '\x27' :: r => some (['\x27', '\x27'], r)
  | '\x27' :: '\x27' :: '\x27' :: '\x27' :: r => some (['\x27'], r)
  | '\x27' :: '\x27' :: '\x27' :: r => some ([], r)
  | '\n' :: r => prepend '\n' (longLiteralRest r)
  | '\r' :: '\n' :: r => prepend '\n' (longLiteralRest r)
  | c :: r => if isTextual c then prepend c (longLiteralRest r) else none
  | [] => none

def dropFirstLineEnd (cs : List Char) : List Char := (lineEnd? cs).getD cs

def asString (read : Option (List Char × List Char)) : Option (String × List Char) :=
  read.map fun p => (String.ofList p.1, p.2)

def string : Reader String
  | '\x22' :: '\x22' :: '\x22' :: r => asString (longBasicRest .inside (dropFirstLineEnd r))
  | '\x22' :: r => asString (basicRest r)
  | '\x27' :: '\x27' :: '\x27' :: r => asString (longLiteralRest (dropFirstLineEnd r))
  | '\x27' :: r => asString (literalRest r)
  | _ => none

def simpleKey : Reader String
  | '\x22' :: r => asString (basicRest r)
  | '\x27' :: r => asString (literalRest r)
  | cs =>
    match cs.takeWhile isBareKeyChar with
    | [] => none
    | word => some (String.ofList word, cs.dropWhile isBareKeyChar)

def depthLimit : Nat := 80

def keyParts : Nat → Reader (List String)
  | 0, _ => none
  | n + 1, cs =>
    match simpleKey (skipBlanks cs) with
    | none => none
    | some (k, rest) =>
      match skipBlanks rest with
      | '.' :: rest => (keyParts n rest).map fun p => (k :: p.1, p.2)
      | rest => some ([k], rest)

def key : Reader (List String) := keyParts (depthLimit - 1)

end ImageTools.Toml
