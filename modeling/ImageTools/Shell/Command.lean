import ImageTools.Shell.Lexer

/-!
# Shell commands

Commands are simple commands with assignments and redirections, joined by
separators and operators, and the compound forms for branches, loops, lists
of cases and functions. Commands that can complain know their line.
-/

set_option autoImplicit false

namespace ImageTools.Shell

structure Redirect where
  descriptor : Nat
  direction : Direction
  /-- The name of the file or the number of the channel. -/
  target : Word
  /-- Which here-document is meant, for a redirection to one. -/
  document : Nat
  deriving Repr

inductive Command
  | nothing
  | simple (line : Nat) (assignments : List (String × Word)) (words : List Word)
      (redirects : List Redirect)
  | opposite (c : Command)
  | pipe (first rest : Command)
  | background (c : Command)
  | both (first second : Command)
  | either (first second : Command)
  | sequence (first second : Command)
  | branch (test yes no : Command)
  /-- Runs the body while the test succeeds, or if negated, while it fails. -/
  | loop (negated : Bool) (test body : Command)
  | each (line : Nat) (name : String) (words : List Word) (body : Command)
  /-- Looks for the first case that fits the subject. -/
  | select (line : Nat) (subject : Word) (cases : Command)
  /-- One case, and those after it. -/
  | case (patterns : List Word) (body next : Command)
  | subshell (line : Nat) (c : Command) (redirects : List Redirect)
  | redirected (line : Nat) (c : Command) (redirects : List Redirect)
  | define (line : Nat) (name : String) (body : Command)
  deriving Repr

structure SyntaxError where
  line : Nat
  text : String
  deriving DecidableEq, Repr

def keywords : List String :=
  ["!", "\x7b", "\x7d", "case", "do", "done", "elif", "else", "esac", "fi", "for", "if", "in",
    "then", "until", "while"]

def closers : List String := ["\x7d", "do", "done", "elif", "else", "esac", "fi", "then"]

def keyword? : Token → Option String
  | .word w => keywords.find? fun k => isBare k w
  | _ => none

def inQuotes (text : String) : String := "\"" ++ text ++ "\""

def Operator.shown : Operator → String
  | .newline => "newline"
  | .semicolon => inQuotes ";"
  | .ampersand => inQuotes "&"
  | .pipe => inQuotes "|"
  | .andThen => inQuotes "&&"
  | .orElse => inQuotes "||"
  | .openParen => inQuotes "("
  | .closeParen => inQuotes ")"
  | .caseEnd => inQuotes ";;"

def Token.shown (t : Token) : String :=
  match t with
  | .word _ => (keyword? t).elim "word" inQuotes
  | .operator o => o.shown
  | .redirect _ _ => "redirection"
  | _ => "end of file"

def isNamed (text : String) : Bool :=
  match text.toList with
  | [] => false
  | c :: r => Lexer.isNameStart c && r.all Lexer.isNameChar

def assignment? (w : Word) : Option (String × Word) :=
  let isLetter : Piece → Bool
    | .char c false => Lexer.isNameChar c
    | _ => false
  match bareText? (w.takeWhile isLetter), w.dropWhile isLetter with
  | some letters, .char '=' false :: value =>
    if isNamed (String.ofList letters) then some (String.ofList letters, value) else none
  | _, _ => none

def specialNames : List String :=
  [".", ":", "break", "continue", "eval", "exec", "exit", "export", "local", "readonly", "return",
    "set", "shift", "times", "trap", "unset"]

def alias? (aliases : List (String × String)) (t : Located) : Option (String × String) :=
  match t.token with
  | .word w =>
    if (keyword? t.token).isSome then none
    else
      aliases.find? fun a => isBare a.1 w && !t.within.contains a.1
  | _ => none

def replaceAliases (aliases : List (String × String)) : Nat → List Located → List Located
  | 0, ts => ts
  | _, [] => []
  | n + 1, t :: r =>
    match alias? aliases t with
    | none => t :: r
    | some (name, text) =>
      let inner := (tokens t.line text.toList).filterMap fun i =>
        match i.token with
        | .ending => none
        | token => some { line := i.line, token := token, within := name :: t.within }
      let isBlank := (text.toList.getLast?).any fun c => c == ' ' || c == '\t'
      let r := if isBlank then replaceAliases aliases n r else r
      replaceAliases aliases n (inner ++ r)

structure Reader where
  rest : List Located
  /-- The line up to which the text has been read. -/
  line : Nat := 1
  aliases : List (String × String) := []
  /-- The number of here-documents whose sign was read. -/
  announced : Nat
  documents : Array Word
  /-- The last word or here-document that was read. -/
  latest : Word := []

abbrev Parse := StateT Reader (Except SyntaxError)

namespace Parse

def peek : Parse Located := do
  return (← get).rest.headD { line := 1, token := .ending }

def failAt {α : Type} (line : Nat) (text : String) : Parse α :=
  throw { line := line, text := "Syntax error: " ++ text }

def unexpected {α : Type} (expecting : Option String) : Parse α := do
  let t ← peek
  match t.token with
  | .failure text _ => failAt t.line text
  | token =>
    failAt t.line (token.shown ++ " unexpected" ++
      expecting.elim "" fun e => " (expecting " ++ e ++ ")")

/-- Takes the here-documents in that come next, of which some are expected.
The line is that of the last token. -/
def absorb (expected : Nat) (line : Nat) :
    List Located → Array Word → Except SyntaxError (Nat × List Located × Array Word)
  | { line, token := .document w, .. } :: r, documents => absorb expected line r (documents.push w)
  | { line := place, token := .failure text before, within } :: r, documents =>
    if documents.size < expected then throw { line := place, text := "Syntax error: " ++ text }
    else .ok (line, { line := place, token := .failure text before, within } :: r, documents)
  | ts, documents => .ok (line, ts, documents)

def advance : Parse Unit := do
  let s ← get
  let t := s.rest.headD { line := s.line, token := .ending }
  let expected := match t.token with
    | .operator .newline => s.announced
    | _ => 0
  let (line, rest, documents) ← absorb expected t.line s.rest.tail s.documents
  let latest := match t.token with
    | .word w => w
    | _ => if documents.size = s.documents.size then s.latest else documents.back?.getD []
  set { s with rest := rest, line := line, documents := documents, latest := latest }

def aliasLimit : Nat := 1000

def unalias : Parse Unit :=
  modify fun s =>
    if s.aliases.isEmpty then s
    else { s with rest := replaceAliases s.aliases aliasLimit s.rest }

def skipNewlines : Parse Unit := do
  for _ in (← get).rest do
    match (← peek).token with
    | .operator .newline => advance
    | _ => return

def isKeyword (text : String) : Parse Bool := do
  return keyword? (← peek).token == some text

def isOperator (o : Operator) : Parse Bool := do
  match (← peek).token with
  | .operator p => return o == p
  | _ => return false

def expectKeyword (text : String) : Parse Unit := do
  if ← isKeyword text then advance else unexpected (some (inQuotes text))

def expectOperator (o : Operator) : Parse Unit := do
  if ← isOperator o then advance else unexpected (some o.shown)

def expectClose : Parse Unit := do
  match (← peek).token with
  | .word _ => failAt (← peek).line "word unexpected (expecting \")\")"
  | _ => expectOperator .closeParen

def endsList (t : Token) : Bool :=
  match t with
  | .ending => true
  | .operator .closeParen => true
  | .operator .caseEnd => true
  | _ => (keyword? t).any closers.contains

def whole (list : Parse Command) (line : Nat) (text : List Char) (closed : Bool)
    (documents : Array Word) : Except SyntaxError (Command × Array Word) := do
  let start : Reader :=
    { rest := tokens line text, line := line, announced := documents.size, documents := documents }
  let read : Parse Command := do
    skipNewlines
    let c ← if endsList (← peek).token then pure .nothing else list
    if closed then expectOperator .closeParen
    return c
  let (c, s) ← read start
  return (c, s.documents)

def checkWord (list : Parse Command) : Nat → Word → Parse Unit
  | 0, _ => return
  | _, [] => return
  | n + 1, p :: r => do
    match p with
    | .command text line closed _ =>
      match whole list line text closed #[] with
      | .ok (_, documents) => documents.toList.forM fun w => checkWord list n w
      | .error e => throw e
    | .parameter _ _ _ operand => checkWord list n operand
    | .arithmetic expression _ => checkWord list n expression
    | _ => pure ()
    checkWord list n r

def unfinished {α : Type} (list : Parse Command) (n : Nat) (before : Word) : Parse α := do
  checkWord list n before
  unexpected none

def checkDocuments (list : Parse Command) (n first : Nat) : Parse Unit := do
  ((← get).documents.toList.drop first).forM (checkWord list n)

def standardOf : Direction → Nat
  | .output => 1
  | .append => 1
  | .clobber => 1
  | .duplicateOutput => 1
  | _ => 0

def redirect (list : Parse Command) (n : Nat) (descriptor : Option Nat) (direction : Direction) :
    Parse Redirect := do
  advance
  match (← peek).token with
  | .word w =>
    let s ← get
    let number := s.announced
    match direction with
    | .document _ => set { s with announced := number + 1 }
    | _ => checkWord list n w
    advance
    return { descriptor := descriptor.getD (standardOf direction), direction := direction
             target := w, document := number }
  | .failure _ before => unfinished list n before
  | _ => unexpected none

def redirects (list : Parse Command) : Nat → Parse (List Redirect)
  | 0 => return []
  | n + 1 => do
    match (← peek).token with
    | .redirect descriptor direction =>
      let r ← redirect list n descriptor direction
      return r :: (← redirects list n)
    | _ => return []

def words (list : Parse Command) : Nat → Parse (List Word)
  | 0 => return []
  | n + 1 => do
    match (← peek).token with
    | .word w =>
      checkWord list n w
      advance
      return w :: (← words list n)
    | .failure _ before => unfinished list n before
    | _ => return []

structure Simple where
  assignments : List (String × Word) := []
  words : List Word := []
  redirects : List Redirect := []

def function (command : Parse Command) (name : Word) : Parse Command := do
  advance
  expectClose
  let text := String.ofList (plainText name)
  let t ← peek
  if !(isBare text name && isNamed text) || specialNames.contains text then
    failAt t.line "Bad function name"
  else
    skipNewlines
    return .define t.line text (← command)

def simple (list command : Parse Command) (line : Nat) : Nat → Simple → Parse Command
  | 0, _ => unexpected none
  | n + 1, s => do
    if s.words.isEmpty then unalias
    match (← peek).token with
    | .word w =>
      checkWord list n w
      advance
      match (if s.words.isEmpty then assignment? w else none) with
      | some a => simple list command line n { s with assignments := s.assignments ++ [a] }
      | none => simple list command line n { s with words := s.words ++ [w] }
    | .redirect descriptor direction =>
      let r ← redirect list n descriptor direction
      simple list command line n { s with redirects := s.redirects ++ [r] }
    | .operator .openParen =>
      match s with
      | { assignments := [], words := [name], redirects := [] } => function command name
      | _ => return .simple line s.assignments s.words s.redirects
    | .failure _ before => unfinished list n before
    | _ => return .simple line s.assignments s.words s.redirects

def pattern (list : Parse Command) (n : Nat) : Parse Word := do
  match (← peek).token with
  | .word w =>
    checkWord list n w
    advance
    return w
  | .ending => unexpected (some (inQuotes ")"))
  | .failure _ before => unfinished list n before
  | _ =>
    let latest := (← get).latest
    advance
    return latest

def patterns (list : Parse Command) : Nat → Parse (List Word)
  | 0 => unexpected none
  | n + 1 => do
    let w ← pattern list n
    match (← peek).token with
    | .operator .pipe =>
      advance
      return w :: (← patterns list n)
    | _ =>
      expectClose
      return [w]

def cases (list optional : Parse Command) : Nat → Parse Command
  | 0 => unexpected none
  | n + 1 => do
    skipNewlines
    if ← isKeyword "esac" then
      advance
      return .nothing
    else
      if ← isOperator .openParen then advance
      let ps ← patterns list n
      let body ← optional
      skipNewlines
      if ← isKeyword "esac" then
        advance
        return .case ps body .nothing
      else
        expectOperator .caseEnd
        return .case ps body (← cases list optional n)

def branches (list : Parse Command) : Nat → Parse Command
  | 0 => unexpected none
  | n + 1 => do
    let test ← list
    expectKeyword "then"
    let yes ← list
    if ← isKeyword "elif" then
      advance
      return .branch test yes (← branches list n)
    else if ← isKeyword "else" then
      advance
      let no ← list
      expectKeyword "fi"
      return .branch test yes no
    else
      expectKeyword "fi"
      return .branch test yes .nothing

def allArguments : Word := [.mark, .parameter "@" .value true [], .mark]

def loopOverWords (list : Parse Command) (n line : Nat) : Parse Command := do
  match (← peek).token with
  | .word v =>
    let name := String.ofList (plainText v)
    if !(isBare name v && isNamed name) then failAt (← peek).line "Bad for loop variable"
    advance
    skipNewlines
    let values ←
      if ← isKeyword "in" then
        advance
        let ws ← words list n
        if (← isOperator .newline) || (← isOperator .semicolon) then advance
        else unexpected none
        pure ws
      else
        if ← isOperator .semicolon then advance
        pure [allArguments]
    skipNewlines
    expectKeyword "do"
    let body ← list
    expectKeyword "done"
    return .each line name values body
  | .failure _ _ => unexpected none
  | _ => failAt (← peek).line "Bad for loop variable"

def selection (list optional : Parse Command) (n line : Nat) : Parse Command := do
  match (← peek).token with
  | .word subject =>
    checkWord list n subject
    advance
    skipNewlines
    expectKeyword "in"
    return .select line subject (← cases list optional n)
  | .failure _ before => unfinished list n before
  | _ => unexpected (some "word")

def withRedirects (list : Parse Command) (n line : Nat) (c : Command) : Parse Command := do
  match ← redirects list n with
  | [] => return c
  | rs =>
    match c with
    | .subshell line c _ => return .subshell line c rs
    | c => return .redirected line c rs

def command (list optional self : Parse Command) (n : Nat) : Parse Command := do
  unalias
  let t ← peek
  let line := t.line
  match keyword? t.token, t.token with
  | some "if", _ =>
    advance
    withRedirects list n line (← branches list n)
  | some "while", _ =>
    advance
    let test ← list
    expectKeyword "do"
    let body ← list
    expectKeyword "done"
    withRedirects list n line (.loop false test body)
  | some "until", _ =>
    advance
    let test ← list
    expectKeyword "do"
    let body ← list
    expectKeyword "done"
    withRedirects list n line (.loop true test body)
  | some "for", _ =>
    advance
    withRedirects list n line (← loopOverWords list n line)
  | some "case", _ =>
    advance
    withRedirects list n line (← selection list optional n line)
  | some "\x7b", _ =>
    advance
    let c ← list
    expectKeyword "\x7d"
    withRedirects list n line c
  | some _, _ => unexpected none
  | none, .operator .openParen =>
    advance
    let c ← list
    expectOperator .closeParen
    withRedirects list n line (.subshell line c [])
  | none, .word _ => simple list self line n {}
  | none, .redirect _ _ => simple list self line n {}
  | none, .failure _ before => unfinished list n before
  | none, _ => unexpected none

def pipes (command : Parse Command) : Nat → Parse Command
  | 0 => unexpected none
  | n + 1 => do
    let first ← command
    if ← isOperator .pipe then
      advance
      skipNewlines
      return .pipe first (← pipes command n)
    else return first

def pipeline (command : Parse Command) (n : Nat) : Parse Command := do
  if ← isKeyword "!" then
    advance
    return .opposite (← pipes command n)
  else pipes command n

def chain (pipeline : Parse Command) : Nat → Command → Parse Command
  | 0, _ => unexpected none
  | n + 1, first => do
    if ← isOperator .andThen then
      advance
      skipNewlines
      chain pipeline n (.both first (← pipeline))
    else if ← isOperator .orElse then
      advance
      skipNewlines
      chain pipeline n (.either first (← pipeline))
    else return first

def join : Command → Command → Command
  | .nothing, c => c
  | a, b => .sequence a b

/-- Commands and separators. On the top level a list ends with its line;
elsewhere it ends where a token says so. -/
def commands (chain : Parse Command) (top : Bool) : Nat → Bool → Command → Parse Command
  | 0, _, _ => unexpected none
  | n + 1, mayEnd, done => do
    if !top then skipNewlines
    let t ← peek
    match t.token with
    | .operator .newline =>
      advance
      return done
    | .ending => return done
    | token =>
      if !top && mayEnd && endsList token then return done
      let c ← chain
      let isBackground ← isOperator .ampersand
      let done := join done (if isBackground then .background c else c)
      match (← peek).token with
      | .ending => return done
      | .operator .newline => commands chain top n true done
      | .operator .ampersand =>
        advance
        commands chain top n true done
      | .operator .semicolon =>
        advance
        commands chain top n true done
      | .failure _ _ => unexpected none
      | _ => if top then unexpected none else return done

def commandWith (list optional : Parse Command) (n : Nat) : Nat → Parse Command
  | 0 => unexpected none
  | k + 1 => command list optional (commandWith list optional n k) n

def list (top mayEnd : Bool) : Nat → Parse Command
  | 0 => unexpected none
  | n + 1 =>
    let one := pipeline (commandWith (list false false n) (list false true n) n n) n
    commands (one >>= chain one n) top n mayEnd .nothing

end Parse

def Reader.next (fuel : Nat) (s : Reader) : Except SyntaxError (Option Command × Reader) :=
  match (s.rest.headD { line := 1, token := .ending }).token with
  | .ending => .ok (none, s)
  | _ =>
    let read : Parse Command := do
      let c ← Parse.list true false fuel
      Parse.checkDocuments (Parse.list false false fuel) fuel s.documents.size
      return c
    (read s).map fun p => (some p.1, p.2)

def Reader.ofText (line : Nat) (text : List Char) (documents : Array Word) : Reader × Nat :=
  ({ rest := tokens line text, line := line, announced := documents.size,
     documents := documents },
    2 * text.length + 8)

def commandsOf (line : Nat) (text : List Char) (closed : Bool) (documents : Array Word) :
    Except SyntaxError (Command × Array Word) :=
  Parse.whole (Parse.list false true (2 * text.length + 8)) line text closed documents

end ImageTools.Shell
