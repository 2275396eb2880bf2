import ImageTools.FileSystem.Access
import ImageTools.Shell.Number
import ImageTools.Text.Bytewise

/-!
# Tests

A test is a list of words: comparisons of texts and numbers, questions about
files, and these joined by `!`, `-a`, `-o` and parentheses. Which words are
operators depends on how many words there are and on those around them.
-/

set_option autoImplicit false

namespace ImageTools.Shell.Test

inductive Lexeme
  | ending
  | operand
  | unary
  | binary
  | opposite
  | both
  | either
  | opening
  | closing
  deriving DecidableEq, Repr

def unaryNames : List String :=
  ["-r", "-w", "-x", "-e", "-f", "-d", "-c", "-b", "-p", "-u", "-g", "-k", "-s", "-t", "-z", "-n",
    "-h", "-L", "-S", "-O", "-G"]

def binaryNames : List String :=
  ["=", "!=", "<", ">", "-eq", "-ne", "-ge", "-gt", "-le", "-lt", "-nt", "-ot", "-ef"]

def operator? (word : String) : Option Lexeme :=
  if unaryNames.contains word then some .unary
  else if binaryNames.contains word then some .binary
  else match word with
    | "!" => some .opposite
    | "-a" => some .both
    | "-o" => some .either
    | "(" => some .opening
    | ")" => some .closing
    | _ => none

def isOperandBefore : List String → Bool
  | [] => true
  | [_] => false
  | s :: _ => operator? s == some .binary

def lexeme : List String → Lexeme
  | [] => .ending
  | w :: r =>
    match operator? w with
    | some .unary => if isOperandBefore r then .operand else .unary
    | some .opening => if r.isEmpty then .operand else .opening
    | some l => l
    | none => .operand

/-! ## Files -/

def modeOf? (fs : FileSystem) (path : String) : Option (Nat × Nat) :=
  match fs.locate (Text.gather path) with
  | .error _ => none
  | .ok i =>
    match fs.node? i with
    | some (.file mode _) => some (i, mode)
    | some (.device _) => some (i, 0o666)
    | _ => some (i, 0o755)

def isLink (fs : FileSystem) (path : String) : Bool :=
  match fs.parentOf (Text.gather path) with
  | .ok (dir, name) =>
    match (fs.entry? dir.last name).bind fs.node? with
    | some (.link _) => true
    | _ => false
  | .error _ => false

def hasBits (fs : FileSystem) (path : String) (bits : Nat) : Bool :=
  (modeOf? fs path).any fun p => p.2 &&& bits != 0

def askFile (fs : FileSystem) (op path : String) : Bool :=
  let node := ((fs.locate (Text.gather path)).toOption).bind fs.node?
  match op with
  | "-r" => (modeOf? fs path).any fun p => fs.mayRead p.1 p.2
  | "-w" => (modeOf? fs path).any fun p => fs.mayWrite p.1 p.2
  | "-x" => (modeOf? fs path).any fun p => fs.mayExecute p.1 p.2
  | "-e" => node.isSome
  | "-f" => match node with
    | some (.file _ _) => true
    | _ => false
  | "-d" => match node with
    | some (.directory _) => true
    | _ => false
  | "-c" => match node with
    | some (.device _) => true
    | _ => false
  | "-s" => match node with
    | some (.file _ bytes) => bytes.size != 0
    | some (.directory _) => true
    | _ => false
  | "-u" => hasBits fs path 0o4000
  | "-g" => hasBits fs path 0o2000
  | "-k" => hasBits fs path 0o1000
  | "-h" => isLink fs path
  | "-L" => isLink fs path
  | "-O" => (modeOf? fs path).any fun p => fs.owns p.1
  | "-G" => (modeOf? fs path).any fun p => fs.owns p.1
  | _ => false

/-! ## Evaluation -/

def objection (word text : String) : String := if word = "" then text else word ++ ": " ++ text

def number (text : String) : Except String Int :=
  match decimal? text with
  | some n => .ok n
  | none => .error ("Illegal number: " ++ text)

def unary (fs : FileSystem) (op text : String) : Except String Bool :=
  match op with
  | "-z" => .ok (text == "")
  | "-n" => .ok (text != "")
  | "-t" => (number text).map fun _ => false
  | _ => .ok (askFile fs op text)

def compare (a b : String) (holds : Int → Int → Bool) : Except String Bool := do
  let x ← number a
  let y ← number b
  .ok (holds x y)

def binary (fs : FileSystem) (a op b : String) : Except String Bool :=
  match op with
  | "=" => .ok (a == b)
  | "!=" => .ok (a != b)
  | "<" => .ok (decide (a < b))
  | ">" => .ok (decide (b < a))
  | "-eq" => compare a b fun x y => x == y
  | "-ne" => compare a b fun x y => x != y
  | "-ge" => compare a b fun x y => y ≤ x
  | "-gt" => compare a b fun x y => y < x
  | "-le" => compare a b fun x y => x ≤ y
  | "-lt" => compare a b fun x y => x < y
  | "-ef" =>
    match fs.locate (Text.gather a), fs.locate (Text.gather b) with
    | .ok i, .ok j => .ok (i == j)
    | _, _ => .ok false
  | _ => .ok false

inductive Part
  | disjunction
  | conjunction
  | negation
  | primary

/-- The truth of a part of a test that begins with the words, of which the
first is known to be the given lexeme, and the words from its last one on. -/
def evaluate (fs : FileSystem) : Nat → Part → Lexeme → List String →
    Except String (Bool × List String)
  | 0, _, _, ws => .ok (false, ws)
  | n + 1, .disjunction, l, ws => do
    let (b, ws) ← evaluate fs n .conjunction l ws
    if lexeme ws.tail = .either then
      let next := ws.drop 2
      let (c, ws) ← evaluate fs n .disjunction (lexeme next) next
      .ok (b || c, ws)
    else .ok (b, ws)
  | n + 1, .conjunction, l, ws => do
    let (b, ws) ← evaluate fs n .negation l ws
    if lexeme ws.tail = .both then
      let next := ws.drop 2
      let (c, ws) ← evaluate fs n .conjunction (lexeme next) next
      .ok (b && c, ws)
    else .ok (b, ws)
  | n + 1, .negation, l, ws =>
    if l = .opposite then do
      let l := lexeme ws.tail
      let (b, ws) ← evaluate fs n .negation l (if l = .ending then ws else ws.tail)
      .ok (!b, ws)
    else evaluate fs n .primary l ws
  | n + 1, .primary, l, ws =>
    match l, ws with
    | .ending, ws => .ok (false, ws)
    | _, [] => .ok (false, [])
    | .opening, _ :: r =>
      if lexeme r = .closing then .ok (false, r)
      else do
        let (b, ws) ← evaluate fs n .disjunction (lexeme r) r
        if lexeme ws.tail = .closing then .ok (b, ws.tail)
        else .error "closing paren expected"
    | .unary, op :: r =>
      match r with
      | [] => .error (objection op "argument expected")
      | text :: _ => (unary fs op text).map (·, r)
    | _, a :: r =>
      if lexeme r = .binary then
        match r with
        | op :: b :: more => (binary fs a op b).map (·, b :: more)
        | [op] => .error (objection op "argument expected")
        | [] => .ok (a != "", [a])
      else .ok (a != "", a :: r)

def truth (fs : FileSystem) (words : List String) : Except String Bool := do
  let last := words.getLast?
  let (l, ws) : Lexeme × List String :=
    match words with
    | [_, op, _] =>
      if operator? op = some .binary then (.operand, words)
      else if words.head? = some "(" ∧ last = some ")" then
        (lexeme (words.drop 1).dropLast, (words.drop 1).dropLast)
      else if words.head? = some "!" then (.opposite, words)
      else (lexeme words, words)
    | [_, _, _, _] =>
      if words.head? = some "(" ∧ last = some ")" then
        (lexeme (words.drop 1).dropLast, (words.drop 1).dropLast)
      else if words.head? = some "!" then (.opposite, words)
      else (lexeme words, words)
    | _ => (lexeme words, words)
  let (b, rest) ← evaluate fs (4 * ws.length + 4) .disjunction l ws
  match rest with
  | w :: _ :: _ => .error (objection w "unexpected operator")
  | _ => .ok b

end ImageTools.Shell.Test
