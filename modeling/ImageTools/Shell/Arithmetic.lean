import ImageTools.Shell.Machine
import ImageTools.Shell.Number

/-!
# Calculations

Expressions on numbers of 64 bits with the operators of C, except those that
change a variable by one. Names stand for variables, whose values are
numbers, and a variable without a value is zero. What the operators for
truth and choice leave out is read, but not computed.
-/

set_option autoImplicit false

namespace ImageTools.Shell.Arithmetic

inductive Token
  | number (n : Int64)
  | name (text : String)
  | sign (text : String)
  deriving DecidableEq, Repr

def signs : List String :=
  ["<<=", ">>=", "<=", ">=", "<<", ">>", "==", "!=", "&&", "||", "+=", "-=", "*=", "/=", "%=",
    "&=", "|=", "^=", "+", "-", "*", "/", "%", "<", ">", "=", "!", "~", "&", "|", "^", "?", ":",
    "(", ")"]

def tokens : Nat → List Char → List Token
  | 0, _ => []
  | _, [] => []
  | n + 1, c :: r =>
    if isSpace c then tokens n r
    else if c.isDigit then
      match readPrefixed (c :: r) with
      | some (v, rest) => .number (Int64.ofNat (min v largest)) :: tokens n rest
      | none => []
    else if Lexer.isNameStart c then
      .name (String.ofList ((c :: r).takeWhile Lexer.isNameChar)) ::
        tokens n ((c :: r).dropWhile Lexer.isNameChar)
    else
      match signs.find? fun s => s.toList.isPrefixOf (c :: r) with
      | some s => .sign s :: tokens n ((c :: r).drop s.length)
      | none => .sign (String.ofList [c]) :: tokens n r

def rank? (s : String) : Option Nat :=
  if ["*", "/", "%"].contains s then some 0
  else if ["+", "-"].contains s then some 1
  else if ["<<", ">>"].contains s then some 2
  else if ["<", "<=", ">", ">="].contains s then some 3
  else if ["==", "!="].contains s then some 4
  else if s = "&" then some 5
  else if s = "^" then some 6
  else if s = "|" then some 7
  else none

def ofBool (b : Bool) : Int64 := if b then 1 else 0

def result? (s : String) (a b : Int64) : Option Int64 :=
  match s with
  | "*" => some (a * b)
  | "/" => if b = 0 then none else some (a / b)
  | "%" => if b = 0 then none else some (a % b)
  | "+" => some (a + b)
  | "-" => some (a - b)
  | "<<" => some (a <<< b)
  | ">>" => some (a >>> b)
  | "<" => some (ofBool (a < b))
  | "<=" => some (ofBool (a ≤ b))
  | ">" => some (ofBool (b < a))
  | ">=" => some (ofBool (b ≤ a))
  | "==" => some (ofBool (a == b))
  | "!=" => some (ofBool (a != b))
  | "&" => some (a &&& b)
  | "^" => some (a ^^^ b)
  | "|" => some (a ||| b)
  | _ => none

def assigning? (s : String) : Option (Option String) :=
  if s = "=" then some none
  else if ["<<=", ">>=", "+=", "-=", "*=", "/=", "%=", "&=", "|=", "^="].contains s then
    some (some (String.ofList s.toList.dropLast))
  else none

inductive Part
  | assignment
  | choice
  | any
  | all
  /-- Operators that bind at least as tightly as the rank. -/
  | ranked (rank : Nat)
  | primary

def failure {α : Type} (source text : String) : Action α :=
  Action.fail ("arithmetic expression: " ++ text ++ ": \"" ++ source ++ "\"")

def lookup (name : String) : Action Int64 := do
  let text := ((← get).valueOf? name).getD ""
  match valueNumber? text with
  | some n => return Int64.ofInt n
  | none => Action.fail ("Illegal number: " ++ text)

def store (name : String) (n : Int64) : Action Int64 := do
  Action.assign name (toString n.toInt)
  return n

def operate (source s : String) (a b : Int64) : Action Int64 :=
  match result? s a b with
  | some n => return n
  | none => failure source "division by zero"

def rankedRest (operand : List Token → Action (Int64 × List Token)) (source : String)
    (live : Bool) (rank : Nat) : Nat → Int64 → List Token → Action (Int64 × List Token)
  | 0, a, ts => return (a, ts)
  | n + 1, a, ts =>
    match ts with
    | .sign s :: r =>
      if rank? s = some rank then do
        let (b, r) ← operand r
        let v ← if live then operate source s a b else pure b
        rankedRest operand source live rank n v r
      else return (a, ts)
    | _ => return (a, ts)

/-- The value of a part of the expression and the tokens after it. Unless it
is live it is only read. -/
def calculate (source : String) : Nat → Part → Bool → List Token → Action (Int64 × List Token)
  | 0, _, _, _ => failure source "expecting primary"
  | n + 1, .assignment, live, ts =>
    match ts with
    | .name x :: .sign s :: r =>
      match assigning? s with
      | some op => do
        let (v, r) ← calculate source n .assignment live r
        if live then
          match op with
          | none => return (← store x v, r)
          | some op => return (← store x (← operate source op (← lookup x) v), r)
        else return (v, r)
      | none => calculate source n .choice live ts
    | _ => calculate source n .choice live ts
  | n + 1, .choice, live, ts => do
    let (a, r) ← calculate source n .any live ts
    match r with
    | .sign "?" :: r =>
      let (b, r) ← calculate source n .assignment (live && a != 0) r
      match r with
      | .sign ":" :: r =>
        let (c, r) ← calculate source n .choice (live && a == 0) r
        return (if a != 0 then b else c, r)
      | _ => failure source "expecting ':'"
    | r => return (a, r)
  | n + 1, .any, live, ts => do
    let (a, r) ← calculate source n .all live ts
    match r with
    | .sign "||" :: r =>
      let (b, r) ← calculate source n .any (live && a == 0) r
      return (ofBool (a != 0 || b != 0), r)
    | r => return (a, r)
  | n + 1, .all, live, ts => do
    let (a, r) ← calculate source n (.ranked 7) live ts
    match r with
    | .sign "&&" :: r =>
      let (b, r) ← calculate source n .all (live && a != 0) r
      return (ofBool (a != 0 && b != 0), r)
    | r => return (a, r)
  | n + 1, .ranked rank, live, ts => do
    let operand : List Token → Action (Int64 × List Token) :=
      match rank with
      | 0 => calculate source n .primary live
      | rank + 1 => calculate source n (.ranked rank) live
    let (a, r) ← operand ts
    rankedRest operand source live rank n a r
  | n + 1, .primary, live, ts =>
    match ts with
    | .sign "(" :: r => do
      let (v, r) ← calculate source n .assignment live r
      match r with
      | .sign ")" :: r => return (v, r)
      | _ => failure source "expecting ')'"
    | .number v :: r => return (v, r)
    | .name x :: r => do return (← if live then lookup x else pure 0, r)
    | .sign "+" :: r => calculate source n .primary live r
    | .sign "-" :: r => do
      let (v, r) ← calculate source n .primary live r
      return (-v, r)
    | .sign "!" :: r => do
      let (v, r) ← calculate source n .primary live r
      return (ofBool (v == 0), r)
    | .sign "~" :: r => do
      let (v, r) ← calculate source n .primary live r
      return (~~~v, r)
    | _ => failure source "expecting primary"

def evaluate (source : String) : Action Int := do
  let ts := tokens (source.length + 1) source.toList
  let (v, r) ← calculate source (16 * ts.length + 16) .assignment true ts
  match r with
  | [] => return v.toInt
  | _ => failure source "expecting EOF"

end ImageTools.Shell.Arithmetic
