import ImageTools.Shell.Word

/-!
# Cutting shell text into tokens

Shell text is cut into tokens by a machine that takes one character at a
time, so that reading two texts in a row is reading their concatenation.
Whatever encloses words of its own, such as the braces of a parameter or the
parentheses of a substitution, opens a new level of the machine, which ends
with the closing sign.
-/

set_option autoImplicit false

namespace ImageTools.Shell

structure Delimiter where
  text : List Char
  expands : Bool
  strip : Bool
  deriving DecidableEq, Repr

inductive Scope
  | program
  /-- Commands between parentheses, with their text so far, latest first. -/
  | substitution (text : List Char) (line : Nat) (quoted : Bool)
  /-- What follows an operation in braces. Unless it is plain, its characters
  count as quoted. -/
  | operand (name : String) (operation : Operation) (quoted plain : Bool)
  | arithmetic (quoted : Bool) (depth : Nat)
  /-- A text in which parameters are expanded, and the line that ends it. -/
  | document (ending : Option Delimiter)
  deriving DecidableEq, Repr

def Scope.quotes : Scope → Bool
  | .operand _ _ _ plain => !plain
  | .arithmetic _ _ => true
  | .document _ => true
  | _ => false

def Scope.isProgram : Scope → Bool
  | .program => true
  | .substitution _ _ _ => true
  | _ => false

def Scope.isOperand : Scope → Bool
  | .operand _ _ _ _ => true
  | _ => false

def Scope.isDocument : Scope → Bool
  | .document _ => true
  | _ => false

inductive Mode
  | blank
  | word
  | single
  /-- Between double quotes that began on this level. -/
  | double
  | escape
  | dollar
  /-- In a parameter's name, latest letter first. -/
  | name (letters : List Char)
  | brace
  | braceHash
  /-- After a sign that follows a number sign in braces. -/
  | braceHashSign (sign : Char)
  | braceName (letters : List Char) (length : Bool)
  | braceColon (name : String)
  | braceTrim (name : String) (sign : Char)
  | paren
  /-- After a closing parenthesis that may end a calculation. -/
  | closing
  | backquote (text : List Char)
  | backquoteEscape (text : List Char)
  /-- After the first character of an operator that may have two. -/
  | operator (first : Char) (descriptor : Option Nat)
  | operatorDocument (descriptor : Option Nat)
  | comment
  /-- In a here-document that is taken as it is: its lines so far and the line
  being read, latest character first. -/
  | document (body current : List Char)
  /-- At the start of a line of any other, after the part of its last line that
  was read, latest character first, and maybe after tabs that do not count. -/
  | lineStart (tabbed : Bool) (read : List Char)
  deriving DecidableEq, Repr

structure Level where
  scope : Scope
  mode : Mode
  /-- The word being read, latest piece first. -/
  word : List Piece := []
  /-- Whether the word stands between double quotes begun on this level. -/
  inner : Bool := false
  /-- The tokens so far, latest first. -/
  tokens : List Located := []
  /-- The here-documents that begin after this line. -/
  awaited : List Delimiter := []
  /-- Whether the next word ends a here-document, and if so, how it strips. -/
  delimiter : Option Bool := none

structure Lexer where
  top : Level := { scope := .program, mode := .blank }
  /-- The enclosing levels, innermost first. -/
  below : List Level := []
  line : Nat := 1
  /-- A backslash was read that may belong to a line end. -/
  held : Bool := false

namespace Lexer

def isNameStart (c : Char) : Bool := c.isAlpha || c == '_'

def isNameChar (c : Char) : Bool := c.isAlphanum || c == '_'

def isSign (c : Char) : Bool := ['?', '#', '*', '@', '$', '!', '-'].contains c

def goto (s : Lexer) (m : Mode) : Lexer := { s with top := { s.top with mode := m } }

def push (s : Lexer) (p : Piece) : Lexer :=
  { s with top := { s.top with word := p :: s.top.word } }

def isQuoted (s : Lexer) : Bool := s.top.inner || s.top.scope.quotes

def resume (s : Lexer) : Lexer := s.goto (if s.top.inner then .double else .word)

def pushChar (s : Lexer) (c : Char) : Lexer := s.push (.char c s.isQuoted)

def emitAt (s : Lexer) (line : Nat) (t : Token) : Lexer :=
  { s with
    top := { s.top with tokens := { line := line, token := t } :: s.top.tokens,
                        delimiter := none } }

def emit (s : Lexer) (t : Token) : Lexer := s.emitAt s.line t

def isUnquoted (w : Word) : Bool :=
  w.all fun p => match p with
    | .char _ quoted => !quoted
    | .mark => false
    | _ => true

def endWord (s : Lexer) : Lexer :=
  let w := s.top.word.reverse
  let awaited := match s.top.delimiter with
    | some strip =>
      s.top.awaited ++ [{ text := plainText w, expands := isUnquoted w, strip := strip }]
    | none => s.top.awaited
  { s with top := { s.top with word := [], awaited := awaited, mode := .blank } }.emit (.word w)

def openLevel (s : Lexer) (scope : Scope) (mode : Mode) : Lexer :=
  { s with top := { scope := scope, mode := mode }, below := s.top :: s.below }

def openOperand (s : Lexer) (name : String) (operation : Operation) : Lexer :=
  let plain := match operation with
    | .dropFront _ => true
    | .dropBack _ => true
    | _ => !s.isQuoted
  s.openLevel (.operand name operation s.isQuoted plain) .word

def Level.piece (l : Level) : Piece :=
  match l.scope with
  | .substitution text line quoted => .command text.reverse line true quoted
  | .operand name operation quoted _ => .parameter name operation quoted l.word.reverse
  | .arithmetic quoted _ => .arithmetic l.word.reverse quoted
  | _ => .mark

def closeLevel (s : Lexer) : Lexer :=
  match s.below with
  | [] => s
  | l :: r => { s with top := l, below := r }.push (Level.piece s.top) |>.resume

def pushParameter (s : Lexer) (name : String) (operation : Operation) : Lexer :=
  (s.push (.parameter name operation s.isQuoted [])).resume

def stepSign? (s : Lexer) (c : Char) : Option Lexer :=
  match c with
  | '\\' => some (s.goto .escape)
  | '$' => if s.top.delimiter.isSome then none else some (s.goto .dollar)
  | '\x60' => if s.top.delimiter.isSome then none else some (s.goto (.backquote []))
  | _ => none

def openDouble (s : Lexer) : Lexer :=
  { s with top := { s.top with inner := true, mode := .double } }.push .mark

def closeDouble (s : Lexer) : Lexer :=
  { s with top := { s.top with inner := false, mode := .word } }.push .mark

def openSingle (s : Lexer) : Lexer := (s.push .mark).goto .single

def beginDocument (s : Lexer) : Lexer :=
  let s := s.goto .blank
  match s.top.awaited with
  | [] => s
  | d :: _ =>
    if d.expands then s.openLevel (.document (some d)) (.lineStart false [])
    else s.goto (.document [] [])

def endLine (s : Lexer) : Lexer :=
  (s.emitAt (s.line + 1) (.operator .newline)).beginDocument

def stepClose (s : Lexer) : Lexer :=
  match s.top.scope with
  | .substitution _ _ _ =>
    if Nesting.closesAll s.top.tokens then s.closeLevel else s.emit (.operator .closeParen)
  | _ => s.emit (.operator .closeParen)

def stepBlank (s : Lexer) (c : Char) : Lexer :=
  match c with
  | ' ' => s
  | '\t' => s
  | '\n' => s.endLine
  | ';' => s.goto (.operator ';' none)
  | '&' => s.goto (.operator '&' none)
  | '|' => s.goto (.operator '|' none)
  | '<' => s.goto (.operator '<' none)
  | '>' => s.goto (.operator '>' none)
  | '(' => s.emit (.operator .openParen)
  | ')' => s.stepClose
  | '#' => s.goto .comment
  | '\x27' => s.openSingle
  | '\x22' => s.openDouble
  | c =>
    match s.stepSign? c with
    | some s => s
    | none => (s.pushChar c).goto .word

def endsWord (c : Char) : Bool :=
  [' ', '\t', '\n', ';', '&', '|', '<', '>', '(', ')'].contains c

def descriptor? (word : List Piece) : Option Nat :=
  match word with
  | [.char c false] => if c.isDigit then some (c.toNat - 48) else none
  | _ => none

def stepProgramWord (s : Lexer) (c : Char) : Lexer :=
  if endsWord c then
    match (if c == '<' || c == '>' then descriptor? s.top.word else none) with
    | some n => { s with top := { s.top with word := [], mode := .operator c (some n) } }
    | none => s.endWord.stepBlank c
  else
    match c with
    | '\x27' => s.openSingle
    | '\x22' => s.openDouble
    | c => (s.stepSign? c).getD (s.pushChar c)

def stepOperandWord (s : Lexer) (plain : Bool) (c : Char) : Lexer :=
  match c with
  | '\x7d' => s.closeLevel
  | '\x22' => s.openDouble
  | c =>
    if plain && c == '\x27' then s.openSingle
    else (s.stepSign? c).getD (s.pushChar c)

def stepArithmeticWord (s : Lexer) (quoted : Bool) (depth : Nat) (c : Char) : Lexer :=
  let deeper (n : Nat) : Lexer :=
    { s with top := { s.top with scope := .arithmetic quoted n } }.pushChar c
  match c with
  | '(' => deeper (depth + 1)
  | ')' => if depth = 0 then s.goto .closing else deeper (depth - 1)
  | c => (s.stepSign? c).getD (s.pushChar c)

def stepWord (s : Lexer) (c : Char) : Lexer :=
  match s.top.scope with
  | .operand _ _ _ plain => s.stepOperandWord plain c
  | .arithmetic quoted depth => s.stepArithmeticWord quoted depth c
  | .document _ => (s.stepSign? c).getD (s.pushChar c)
  | _ => s.stepProgramWord c

def stepDouble (s : Lexer) (c : Char) : Lexer :=
  if c = '\x22' then s.closeDouble else (s.stepSign? c).getD (s.pushChar c)

def stepRegion (s : Lexer) (c : Char) : Lexer :=
  if s.top.inner then s.stepDouble c else s.stepWord c

def isEscapable (s : Lexer) (c : Char) : Bool :=
  c == '$' || c == '\x60' || c == '\\' || (c == '\x22' && !s.top.scope.isDocument) ||
    (c == '\x7d' && s.top.scope.isOperand)

def stepEscape (s : Lexer) (c : Char) : Lexer :=
  if s.isQuoted && !s.isEscapable c then
    ((s.push (.char '\\' true)).push (.char c true)).resume
  else (s.push (.char c true)).resume

def stepDollar (s : Lexer) (c : Char) : Lexer :=
  if c = '\x7b' then s.goto .brace
  else if c = '(' then s.goto .paren
  else if isNameStart c then s.goto (.name [c])
  else if c.isDigit || isSign c then s.pushParameter (String.ofList [c]) .value
  else (s.pushChar '$').resume.stepRegion c

def nameOf (letters : List Char) : String := String.ofList letters.reverse

def stepName (s : Lexer) (letters : List Char) (c : Char) : Lexer :=
  if isNameChar c then s.goto (.name (c :: letters))
  else (s.pushParameter (nameOf letters) .value).stepRegion c

def operation? (colon : Bool) (c : Char) : Option Operation :=
  match c with
  | '-' => some (.orElse colon)
  | '+' => some (.ifSet colon)
  | '=' => some (.orAssign colon)
  | '?' => some (.orFail colon)
  | _ => none

def stepAfterName (s : Lexer) (name : String) (c : Char) : Lexer :=
  match c with
  | '\x7d' => s.pushParameter name .value
  | ':' => s.goto (.braceColon name)
  | '#' => s.goto (.braceTrim name c)
  | '%' => s.goto (.braceTrim name c)
  | c => s.resume.openOperand name ((operation? false c).getD .invalid)

def stepBrace (s : Lexer) (c : Char) : Lexer :=
  if c = '#' then s.goto .braceHash
  else if isNameChar c then s.goto (.braceName [c] false)
  else if isSign c then s.goto (.braceName [c] false)
  else if c = '\x7d' then s.pushParameter "" .invalid
  else s.resume.openOperand "" .invalid

def stepBraceHash (s : Lexer) (c : Char) : Lexer :=
  if isNameChar c then s.goto (.braceName [c] true)
  else if c = '\x7d' then s.pushParameter "#" .value
  else s.goto (.braceHashSign c)

def continuesName (letters : List Char) (c : Char) : Bool :=
  match letters.getLast? with
  | some first => if isSign first then false else if first.isDigit then c.isDigit else isNameChar c
  | none => false

def stepBraceName (s : Lexer) (letters : List Char) (length : Bool) (c : Char) : Lexer :=
  if continuesName letters c then s.goto (.braceName (c :: letters) length)
  else if !length then s.stepAfterName (nameOf letters) c
  else if c = '\x7d' then s.pushParameter (nameOf letters) .length
  else (s.resume.openOperand (nameOf letters) .invalid).stepWord c

def stepBraceColon (s : Lexer) (name : String) (c : Char) : Lexer :=
  if c = '\x7d' then s.resume.openOperand name .value
  else s.resume.openOperand name ((operation? true c).getD .invalid)

def stepBraceTrim (s : Lexer) (name : String) (sign c : Char) : Lexer :=
  let operation (longest : Bool) : Operation :=
    if sign = '#' then .dropFront longest else .dropBack longest
  if c = sign then s.resume.openOperand name (operation true)
  else (s.resume.openOperand name (operation false)).stepWord c

def stepBraceHashSign (s : Lexer) (sign c : Char) : Lexer :=
  if c = '\x7d' then
    if isSign sign then s.pushParameter (String.ofList [sign]) .length
    else s.pushParameter "" .invalid
  else
    let s := s.stepAfterName "#" sign
    match s.top.mode with
    | .braceColon name => s.stepBraceColon name c
    | .braceTrim name sign => s.stepBraceTrim name sign c
    | _ => s.stepWord c

def stepParen (s : Lexer) (c : Char) : Lexer :=
  let quoted := s.isQuoted
  if c = '(' then s.resume.openLevel (.arithmetic quoted 0) .word
  else (s.resume.openLevel (.substitution [c] s.line quoted) .blank).stepBlank c

def stepClosing (s : Lexer) (c : Char) : Lexer :=
  if c = ')' then s.closeLevel else ((s.pushChar ')').resume).stepWord c

def stepBackquoteEscape (s : Lexer) (text : List Char) (c : Char) : Lexer :=
  if c = '\\' ∨ c = '\x60' ∨ c = '$' ∨ (c = '\x22' ∧ s.isQuoted) then
    s.goto (.backquote (c :: text))
  else s.goto (.backquote (c :: '\\' :: text))

def stepBackquote (s : Lexer) (text : List Char) (c : Char) : Lexer :=
  match c with
  | '\x60' => (s.push (.command text.reverse 1 false s.isQuoted)).resume
  | '\\' => s.goto (.backquoteEscape text)
  | c => s.goto (.backquote (c :: text))

def single? (first : Char) (descriptor : Option Nat) : Token :=
  if first = '&' then .operator .ampersand
  else if first = '|' then .operator .pipe
  else if first = ';' then .operator .semicolon
  else if first = '<' then .redirect descriptor .input
  else .redirect descriptor .output

def pair? (first second : Char) (descriptor : Option Nat) : Option Token :=
  match first, second with
  | '&', '&' => some (.operator .andThen)
  | '|', '|' => some (.operator .orElse)
  | ';', ';' => some (.operator .caseEnd)
  | '>', '>' => some (.redirect descriptor .append)
  | '>', '|' => some (.redirect descriptor .clobber)
  | '>', '&' => some (.redirect descriptor .duplicateOutput)
  | '<', '&' => some (.redirect descriptor .duplicateInput)
  | '<', '>' => some (.redirect descriptor .update)
  | _, _ => none

def stepOperator (s : Lexer) (first : Char) (descriptor : Option Nat) (c : Char) : Lexer :=
  if first = '<' ∧ c = '<' then s.goto (.operatorDocument descriptor)
  else
    match pair? first c descriptor with
    | some t => (s.goto .blank).emit t
    | none => ((s.goto .blank).emit (single? first descriptor)).stepBlank c

def emitDocumentSign (s : Lexer) (descriptor : Option Nat) (strip : Bool) : Lexer :=
  let s := (s.goto .blank).emit (.redirect descriptor (.document strip))
  { s with top := { s.top with delimiter := some strip } }

def stepOperatorDocument (s : Lexer) (descriptor : Option Nat) (c : Char) : Lexer :=
  if c = '-' then s.emitDocumentSign descriptor true
  else (s.emitDocumentSign descriptor false).stepBlank c

def calculationText : String := "Missing '))'"

def bracesText : String := "Missing '\x7d'"

def endDocument (s : Lexer) (line : Nat) (t : Token) : Lexer :=
  let s := { s with top := { s.top with awaited := s.top.awaited.tail } }
  (s.emitAt line t).beginDocument

def missingIn? : List Level → Option String
  | [] => none
  | l :: _ =>
    match l.scope with
    | .arithmetic _ _ => some calculationText
    | _ => some bracesText

def closeDocument (s : Lexer) (line : Nat) : Lexer :=
  let levels := s.top :: s.below
  let inner := levels.takeWhile fun l => !l.scope.isDocument
  match levels.dropWhile fun l => !l.scope.isDocument with
  | own :: reader :: r =>
    let token := match missingIn? inner with
      | some text => .failure text []
      | none => .document own.word.reverse
    { s with top := reader, below := r }.endDocument line token
  | _ => s

def dropTabs (d : Delimiter) (current : List Char) : List Char :=
  if d.strip then (current.reverse.dropWhile (· == '\t')).reverse else current

def documentToken (body : List Char) : Token := .document (body.reverse.map (.char · true))

def stepDocument (s : Lexer) (body current : List Char) (c : Char) : Lexer :=
  match s.top.awaited with
  | [] => s.goto .blank
  | d :: _ =>
    if c ≠ '\n' then s.goto (.document body (c :: current))
    else
      let line := dropTabs d current
      if line == d.text.reverse then s.endDocument (s.line + 1) (documentToken body)
      else s.goto (.document ('\n' :: line ++ body) [])

def stepInside (s : Lexer) (c : Char) : Lexer :=
  match s.top.mode with
  | .blank => s.stepBlank c
  | .word => s.stepWord c
  | .single => if c = '\x27' then (s.push .mark).resume else s.push (.char c true)
  | .double => s.stepDouble c
  | .escape => s.stepEscape c
  | .dollar => s.stepDollar c
  | .name letters => s.stepName letters c
  | .brace => s.stepBrace c
  | .braceHash => s.stepBraceHash c
  | .braceHashSign sign => s.stepBraceHashSign sign c
  | .braceName letters length => s.stepBraceName letters length c
  | .braceColon name => s.stepBraceColon name c
  | .braceTrim name sign => s.stepBraceTrim name sign c
  | .paren => s.stepParen c
  | .closing => s.stepClosing c
  | .backquote text => s.stepBackquote text c
  | .backquoteEscape text => s.stepBackquoteEscape text c
  | .operator first descriptor => s.stepOperator first descriptor c
  | .operatorDocument descriptor => s.stepOperatorDocument descriptor c
  | .comment => if c = '\n' then s.endLine else s
  | .document body current => s.stepDocument body current c
  | .lineStart _ _ => s.resume

def endingIn? : List Level → Option Delimiter
  | [] => none
  | l :: r =>
    match l.scope with
    | .document ending => ending
    | .program => none
    | .substitution _ _ _ => none
    | _ => endingIn? r

def ending? (s : Lexer) : Option Delimiter := endingIn? (s.top :: s.below)

def leaveStart (s : Lexer) (read : List Char) : Lexer := read.reverse.foldl stepInside s.resume

def stepStart (s : Lexer) (tabbed : Bool) (read : List Char) (c : Char) : Lexer :=
  match s.ending? with
  | none => (s.leaveStart read).stepInside c
  | some d =>
    let rest := d.text.drop read.length
    if d.strip && read.isEmpty && c == '\t' then s.goto (.lineStart true [])
    else if rest.head? == some c then s.goto (.lineStart tabbed (c :: read))
    else if rest.isEmpty && c == '\n' then s.closeDocument (s.line + 1)
    else (s.leaveStart read).stepInside c

def step (s : Lexer) (c : Char) : Lexer :=
  match s.top.mode with
  | .lineStart tabbed read => s.stepStart tabbed read c
  | _ => s.stepInside c

/-- Whether a line end here begins a line of what is being read, and is not
taken for something else. -/
def countsLines (s : Lexer) : Bool :=
  match s.top.mode with
  | .single => false
  | .escape => false
  | .brace => false
  | .braceHash => false
  | .braceName _ _ => false
  | .braceColon _ => false
  | .backquote _ => false
  | .backquoteEscape _ => false
  | _ => true

def startLine (s : Lexer) : Lexer :=
  let inText := s.top.mode = .word || s.top.mode = .double
  if inText && s.ending?.isSome then s.goto (.lineStart false []) else s

/-- Whether a backslash before a line end would take that line end away. -/
def holdsBackslash (s : Lexer) : Bool :=
  match s.top.mode with
  | .single => false
  | .escape => false
  | .backquoteEscape _ => false
  | .comment => false
  | .document _ _ => false
  | .lineStart tabbed _ => !tabbed
  | _ => true

def Level.record (l : Level) (c : Char) : Level :=
  match l.scope with
  | .substitution text line quoted => { l with scope := .substitution (c :: text) line quoted }
  | _ => l

def record (s : Lexer) (c : Char) : Lexer :=
  { s with top := Level.record s.top c, below := s.below.map fun l => Level.record l c }

def expectsSign (s : Lexer) : Bool :=
  match s.top.mode with
  | .escape => true
  | .brace => true
  | .braceHash => true
  | .braceName _ length => !length
  | .braceColon _ => true
  | _ => false

def take (s : Lexer) (c : Char) : Lexer :=
  if c ≠ '\n' then (s.record c).step c
  else
    let next := (s.record c).step c
    let next := if s.countsLines then next.startLine else next
    if s.expectsSign then next else { next with line := next.line + 1 }

def beforeBackslash (s : Lexer) : Lexer :=
  match s.top.mode with
  | .lineStart _ (c :: read) => s.leaveStart (c :: read)
  | _ => s

def feed (s : Lexer) (c : Char) : Lexer :=
  if s.held then
    let s := { s with held := false }
    if c = '\n' then { (s.record '\\').record c with line := s.line + 1 }
    else (s.take '\\').take c
  else if c = '\\' then
    let s := s.beforeBackslash
    if s.holdsBackslash then { s with held := true } else s.take c
  else s.take c

def run (s : Lexer) (cs : List Char) : Lexer := cs.foldl feed s

theorem run_append (s : Lexer) (a b : List Char) : s.run (a ++ b) = (s.run a).run b :=
  List.foldl_append

/-! ## The end of the text -/

def unterminatedText : String := "Unterminated quoted string"

def backquoteText : String := "EOF in backquote substitution"

def substitutionText : String := "end of file unexpected (expecting \")\")"

def openPieces : List Level → Word
  | [] => []
  | l :: r =>
    match l.scope with
    | .substitution text line _ => [.command text.reverse line true false]
    | _ => l.word.reverse ++ openPieces r

def missing? (s : Lexer) : Option String :=
  match s.top.mode with
  | .single => some unterminatedText
  | .double => some unterminatedText
  | .backquote _ => some backquoteText
  | .backquoteEscape _ => some backquoteText
  | .brace => some (if s.isQuoted then unterminatedText else bracesText)
  | .braceHash => some (if s.isQuoted then unterminatedText else bracesText)
  | .braceHashSign _ => some (if s.isQuoted then unterminatedText else bracesText)
  | .braceName _ _ => some (if s.isQuoted then unterminatedText else bracesText)
  | .braceColon _ => some (if s.isQuoted then unterminatedText else bracesText)
  | .braceTrim _ _ => some bracesText
  | _ =>
    match s.top.scope with
    | .operand _ _ _ plain =>
      some (if s.top.inner || !plain then unterminatedText else bracesText)
    | .arithmetic _ _ => some calculationText
    | _ => if s.top.inner then some unterminatedText else none

def settlePiece (s : Lexer) : Lexer :=
  match s.top.mode with
  | .escape => (s.push (.char '\\' true)).resume
  | .dollar => (s.pushChar '$').resume
  | .name letters => s.pushParameter (nameOf letters) .value
  | .lineStart _ read =>
    if s.ending?.any fun d => read == d.text.reverse then s.resume else s.leaveStart read
  | _ => s

def settle (s : Lexer) : Lexer :=
  let s := s.settlePiece
  match s.top.mode with
  | .word => if s.top.scope.isDocument then s else s.endWord
  | .operator first descriptor => s.emit (single? first descriptor)
  | .operatorDocument descriptor => s.emitDocumentSign descriptor false
  | _ => s

def endDocuments : Nat → Lexer → Lexer
  | 0, s => s
  | n + 1, s =>
    match s.top.scope.isDocument, s.top.mode, s.top.awaited with
    | true, _, _ => endDocuments n (s.settlePiece.closeDocument s.line)
    | _, .document body current, d :: _ =>
      let line := dropTabs d current
      let body := if line == d.text.reverse then body else line ++ body
      endDocuments n (s.endDocument s.line (documentToken body))
    | _, _, _ :: _ => endDocuments n s.beginDocument
    | _, _, [] => s

def failure? (s : Lexer) : Option String :=
  let levels := s.top :: s.below
  let isSubstitution (l : Level) : Bool := l.scope.isProgram && l.scope != .program
  if s.top.mode = .paren || levels.any isSubstitution then some substitutionText
  else if levels.any fun l => l.scope.isDocument then
    match s.missing? with
    | some text =>
      some (if text = backquoteText ∨ text = calculationText then text else bracesText)
    | none => none
  else s.missing?

def release (s : Lexer) : Lexer := if s.held then { s with held := false }.step '\\' else s

def finish (s : Lexer) : List Located :=
  let s := s.release
  let levels := (s.top :: s.below).reverse
  match s.failure? with
  | some text =>
    let tokens := (levels.headD s.top).tokens.reverse
    tokens ++ [{ line := s.line, token := .failure text (openPieces levels) }]
  | none =>
    let awaited := levels.flatMap fun l => l.awaited
    let s := endDocuments (2 * awaited.length + 2) s.settle
    s.top.tokens.reverse ++ [{ line := s.line, token := .ending }]

end Lexer

def tokens (line : Nat) (text : List Char) : List Located :=
  (Lexer.run { line := line } text).finish

def documentWord (text : List Char) : Except String Word :=
  let start : Lexer := { top := { scope := .document none, mode := .word } }
  let s := (start.run text).release
  match s.failure? with
  | some text => .error text
  | none => .ok s.settlePiece.top.word.reverse

end ImageTools.Shell
