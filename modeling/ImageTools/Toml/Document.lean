import ImageTools.Toml.Scalar
import ImageTools.Toml.Table
import ImageTools.Toml.Text

/-!
# Documents

A document is read in two steps: its characters become expressions (an
entry, a table header, a header of a list of tables), and the expressions
build the table of the document, each checked against what is there.
-/

set_option autoImplicit false

namespace ImageTools.Toml

inductive Expression
  | entry (key : List String) (value : Value)
  | header (path : List String)
  | element (path : List String)
  deriving Repr

def skipSpace : Bool → List Char → List Char
  | _, '\n' :: r => skipSpace false r
  | _, '\r' :: '\n' :: r => skipSpace false r
  | false, '#' :: r => skipSpace true r
  | false, c :: r => if isBlank c then skipSpace false r else c :: r
  | true, c :: r => if isTextual c then skipSpace true r else c :: r
  | _, [] => []

def arrayRest (element : Reader Value) : Nat → Reader (List Value)
  | 0, _ => none
  | n + 1, cs =>
    match skipSpace false cs with
    | ']' :: r => some ([], r)
    | cs =>
      match element cs with
      | none => none
      | some (v, r) =>
        match skipSpace false r with
        | ']' :: r => some ([v], r)
        | ',' :: r => (arrayRest element n r).map fun p => (v :: p.1, p.2)
        | _ => none

def keyValue (element : Reader Value) : Reader (List String × Value) := fun cs =>
  match key cs with
  | some (path, '=' :: r) => (element (skipBlanks r)).map fun p => ((path, p.1), p.2)
  | _ => none

def inlineRest (element : Reader Value) : Nat → Entries → Reader Entries
  | 0, _, _ => none
  | n + 1, es, cs =>
    match keyValue element cs with
    | none => none
    | some ((path, v), r) =>
      match addValue path v .closed es with
      | none => none
      | some es =>
        match skipBlanks r with
        | ',' :: r => inlineRest element n es r
        | '\x7d' :: r => some (es, r)
        | _ => none

def inlineTable (element : Reader Value) (cs : List Char) : Option (Entries × List Char) :=
  match skipBlanks cs with
  | '\x7d' :: r => some ([], r)
  | _ => inlineRest element (cs.length + 1) [] cs

def atom : Reader Value
  | '\x22' :: r => (string ('\x22' :: r)).map fun p => (.string p.1, p.2)
  | '\x27' :: r => (string ('\x27' :: r)).map fun p => (.string p.1, p.2)
  | cs => scalar cs

def value : Nat → Reader Value
  | depth + 1, '[' :: r =>
    (arrayRest (value depth) (r.length + 1) r).map fun p => (.array p.1, p.2)
  | depth + 1, '\x7b' :: r =>
    (inlineTable (value depth) r).map fun p => (.table .closed p.1, p.2)
  | _, cs => atom cs

def expression : Reader Expression
  | '[' :: '[' :: r =>
    match key r with
    | some (path, ']' :: ']' :: r) => (finishLine r).map fun r => (.element path, r)
    | _ => none
  | '[' :: r =>
    match key r with
    | some (path, ']' :: r) => (finishLine r).map fun r => (.header path, r)
    | _ => none
  | cs =>
    match keyValue (value (depthLimit - 1)) cs with
    | some ((path, v), r) => (finishLine r).map fun r => (.entry path v, r)
    | none => none

def isIdle : List Char → Bool
  | '#' :: _ => true
  | '\n' :: _ => true
  | '\r' :: _ => true
  | _ => false

def expressions : Nat → List Char → Option (List Expression)
  | 0, _ => none
  | n + 1, cs =>
    match skipBlanks cs with
    | [] => some []
    | c :: r =>
      if isIdle (c :: r) then (finishLine (c :: r)).bind (expressions n)
      else
        match expression (c :: r) with
        | none => none
        | some (e, r) => (expressions n r).map (e :: ·)

/-- The table built so far, and the header that entries belong to. -/
structure Draft where
  root : Entries := []
  current : List String := []

def Draft.add (d : Draft) : Expression → Option Draft
  | .entry path v =>
    (update .headerPath (addValue path v) d.current .header d.root).map fun root =>
      { d with root := root }
  | .header path =>
    (update .headerPath (fun _ => openTable (path.getLastD "")) path.dropLast .header d.root).map
      fun root => { root := root, current := path }
  | .element path =>
    (update .headerPath (fun _ => openElement (path.getLastD "")) path.dropLast .header d.root).map
      fun root => { root := root, current := path }

def build (es : List Expression) : Option Entries :=
  (es.foldlM Draft.add {}).map Draft.root

def dropByteOrderMark : List Char → List Char
  | c :: r => if c.toNat = 0xFEFF then r else c :: r
  | [] => []

def parse (text : String) : Option Entries :=
  let cs := dropByteOrderMark text.toList
  (expressions (cs.length + 1) cs).bind build

end ImageTools.Toml
