/-!
# Words and tokens of shell text

A word remembers of every character whether it was quoted, since only
unquoted ones can be patterns, and keeps parameters, commands and
calculations unexpanded. Tokens are words, operators and redirections, and
the texts of here-documents, which follow the end of their line.
-/

set_option autoImplicit false

namespace ImageTools.Shell

inductive Operation
  | value
  | length
  /-- Not understood, which is an error only once the word is expanded. -/
  | invalid
  /-- The flags tell whether an empty value counts as none. -/
  | orElse (colon : Bool)
  | ifSet (colon : Bool)
  | orAssign (colon : Bool)
  | orFail (colon : Bool)
  /-- Takes off what fits a pattern; the flags ask for the longest fit. -/
  | dropFront (longest : Bool)
  | dropBack (longest : Bool)
  deriving DecidableEq, Repr

inductive Piece
  | char (c : Char) (quoted : Bool)
  /-- Quotes begin or end here. -/
  | mark
  | parameter (name : String) (operation : Operation) (quoted : Bool) (operand : List Piece)
  /-- Commands, whose text begins on the given line and may end with a closing
  parenthesis. Unless it has to, what comes after the commands is left out. -/
  | command (text : List Char) (line : Nat) (closed quoted : Bool)
  | arithmetic (expression : List Piece) (quoted : Bool)
  deriving Repr

abbrev Word := List Piece

def bareText? : Word → Option (List Char)
  | [] => some []
  | .char c false :: r => (bareText? r).map (c :: ·)
  | _ => none

def isBare (text : String) (w : Word) : Bool :=
  !w.isEmpty && bareText? w == some text.toList

def plainText : Word → List Char
  | [] => []
  | .char c _ :: r => c :: plainText r
  | _ :: r => plainText r

inductive Operator
  | newline
  | semicolon
  | ampersand
  | pipe
  | andThen
  | orElse
  | openParen
  | closeParen
  /-- The end of the commands of one case. -/
  | caseEnd
  deriving DecidableEq, Repr

inductive Direction
  | input
  | output
  | append
  /-- Output to a file that may exist in any case. -/
  | clobber
  | update
  | duplicateInput
  | duplicateOutput
  /-- Input that follows in the text; the flag asks to strip leading tabs. -/
  | document (strip : Bool)
  deriving DecidableEq, Repr

inductive Token
  | word (w : Word)
  | operator (o : Operator)
  /-- A redirection with the number written before it, if any. -/
  | redirect (descriptor : Option Nat) (direction : Direction)
  /-- A here-document. -/
  | document (text : Word)
  /-- The text ends. -/
  | ending
  /-- The text ends inside a word, of which these pieces have been read. -/
  | failure (text : String) (before : Word)
  deriving Repr

structure Located where
  line : Nat
  token : Token
  within : List String := []
  deriving Repr

structure Nesting where
  /-- Parentheses (`false`) and lists of cases (`true`), innermost first. -/
  opened : List Bool := []
  /-- A command may begin here. -/
  command : Bool := true
  /-- The pattern of a case may begin here. -/
  pattern : Bool := false
  /-- The subject of a list of cases is being read. -/
  subject : Bool := false

namespace Nesting

def leaders : List String :=
  ["if", "then", "else", "elif", "do", "while", "until", "!", "\x7b"]

def stepWord (n : Nesting) (w : Word) : Nesting :=
  if n.pattern then
    if isBare "esac" w then { n with opened := n.opened.tail, pattern := false, command := false }
    else { n with pattern := false, command := false }
  else if n.subject && isBare "in" w then
    { opened := true :: n.opened, command := false, pattern := true }
  else if n.command then
    if isBare "case" w then { n with subject := true, command := false }
    else if isBare "esac" w && n.opened.head? == some true then
      { n with opened := n.opened.tail, command := false }
    else if leaders.any fun l => isBare l w then n
    else { n with command := false }
  else n

def step (n : Nesting) : Token → Nesting
  | .word w => n.stepWord w
  | .operator .openParen =>
    if n.pattern then n else { n with opened := false :: n.opened, command := true }
  | .operator .closeParen =>
    match n.opened with
    | false :: r => { n with opened := r, command := true }
    | _ => { n with command := true, pattern := false }
  | .operator .caseEnd => { n with pattern := true, command := false }
  | .operator .newline => { n with command := !n.pattern && !n.subject }
  | .operator _ => { n with command := true }
  | _ => n

def closesAll (tokens : List Located) : Bool :=
  (tokens.foldr (fun t n => step n t.token) {}).opened.isEmpty

end Nesting

end ImageTools.Shell
