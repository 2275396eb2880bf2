import ImageTools.Manifest

/-!
# The grammar of the command line

The program's commands form a tree. `Grammar` describes the words one level
of the tree accepts, and `scan` reads them up to the name of a deeper level.
Flags may stand before or after operands, two dashes end them, and three of
them are accepted on every level, where the deepest level that gives one
wins.
-/

set_option autoImplicit false

namespace ImageTools.CommandLine

inductive Kind
  | text
  | path
  deriving DecidableEq, Repr

def Kind.accepts : Kind → String → Bool
  | .text, _ => true
  | .path, value => value != ""

structure Grammar where
  /-- Flags without a value that may be given once. -/
  switches : List String := []
  /-- Flags with a value. -/
  options : List (String × Kind) := []
  /-- Whether the version can be asked for. -/
  version : Bool := false
  /-- The operands, in order. -/
  operands : List Kind := []
  /-- Whether the last operand may be repeated. -/
  repeats : Bool := false
  /-- The names of the deeper levels; a level that has some takes no operands. -/
  commands : List String := []

def sharedOptions : List (String × Kind) := [("toolchain-root", .path), ("emulator", .path)]

def Grammar.kindOf? (g : Grammar) (name : String) : Option Kind :=
  (sharedOptions ++ g.options).lookup name

def Grammar.operandKind? (g : Grammar) (index : Nat) : Option Kind :=
  match g.operands[index]? with
  | some kind => some kind
  | none => if g.repeats then g.operands.getLast? else none

structure Given where
  switches : List String := []
  values : List (String × String) := []
  operands : List String := []
  deriving DecidableEq, Repr

/-- The outcome of reading one level. A value that was given as a word of
its own is checked only when the next flag or operand is met, so it may
still be open when a deeper level begins. -/
inductive Scan
  | usage
  | help
  | version
  | finished (given : Given)
  | command (given : Given) (unchecked : Option (String × String)) (name : String)
      (rest : List String)
  deriving DecidableEq, Repr

namespace Grammar

def accept? (g : Grammar) (given : Given) (name value : String) : Option Given :=
  match g.kindOf? name with
  | some kind =>
    if kind.accepts value && (given.values.lookup name).isNone then
      some { given with values := given.values ++ [(name, value)] }
    else none
  | none => none

def settle? (g : Grammar) (given : Given) : Option (String × String) → Option Given
  | none => some given
  | some (name, value) => g.accept? given name value

def addOperand? (g : Grammar) (given : Given) (value : String) : Option Given :=
  match g.operandKind? given.operands.length with
  | some kind =>
    if kind.accepts value then some { given with operands := given.operands ++ [value] } else none
  | none => none

def finish (g : Grammar) (given : Given) : Scan :=
  if g.commands.isEmpty && g.operands.length ≤ given.operands.length then .finished given
  else .usage

def scanOperands (g : Grammar) (given : Given) : List String → Scan
  | [] => g.finish given
  | w :: r =>
    match g.addOperand? given w with
    | some given => g.scanOperands given r
    | none => .usage

def cluster (g : Grammar) : List Char → Option Scan
  | [] => none
  | 'h' :: _ => some .help
  | 'v' :: r => g.cluster r
  | 'V' :: _ => some (if g.version then .version else .usage)
  | _ :: _ => some .usage

inductive Form
  | dashes
  | long (name : String) (value : Option String)
  | short (letters : List Char)
  | plain

def form (word : String) : Form :=
  match word.toList with
  | ['-', '-'] => .dashes
  | '-' :: '-' :: r =>
    .long (String.ofList (r.takeWhile (· != '=')))
      ((r.dropWhile (· != '=')).tail?.map String.ofList)
  | '-' :: c :: r => .short (c :: r)
  | _ => .plain

def isPlain (word : String) : Bool :=
  match form word with
  | .plain => true
  | _ => false

def longFlag (g : Grammar) (given : Given) (name : String) : Given ⊕ Scan :=
  if name = "help" then .inr .help
  else if name = "version" ∧ g.version then .inr .version
  else if name = "verbose" then .inl given
  else if name ∈ g.switches ∧ name ∉ given.switches then
    .inl { given with switches := given.switches ++ [name] }
  else .inr .usage

def scan (g : Grammar) (given : Given) (unchecked : Option (String × String)) :
    List String → Scan
  | [] =>
    match g.settle? given unchecked with
    | some given => g.finish given
    | none => .usage
  | w :: r =>
    if w ∈ g.commands then .command given unchecked w r
    else
      match g.settle? given unchecked with
      | none => .usage
      | some given =>
        match form w with
        | .dashes => g.scanOperands given r
        | .long name (some value) =>
          match g.accept? given name value with
          | some given => g.scan given none r
          | none => .usage
        | .long name none =>
          match g.kindOf? name with
          | some _ =>
            match r with
            | v :: r => if isPlain v then g.scan given (some (name, v)) r else .usage
            | [] => .usage
          | none =>
            match g.longFlag given name with
            | .inl given => g.scan given none r
            | .inr s => s
        | .short letters =>
          match g.cluster letters with
          | some s => s
          | none => g.scan given none r
        | .plain =>
          match g.addOperand? given w with
          | some given => g.scan given none r
          | none => .usage

end Grammar

end ImageTools.CommandLine
