import ImageTools.Shell.Arithmetic
import ImageTools.Shell.Field

/-!
# Expansion

A word becomes fields: its parameters are replaced by their values, commands
by their output and calculations by their result; then it is cut into
fields, and fields that are open patterns become the matching names of the
file system, if there are any.
-/

set_option autoImplicit false

namespace ImageTools.Shell

abbrev Substitute := List Char → Nat → Bool → Action (List Char)

namespace Machine

def parameter? (m : Machine) (name : String) : Option String :=
  match name with
  | "?" => some (toString m.status)
  | "#" => some (toString m.args.length)
  | "$" => some (toString m.shell)
  | "!" => m.lastJob.map toString
  | "-" => some m.optionLetters
  | "0" => some m.name
  | _ =>
    match digits? name with
    | some 0 => some m.name
    | some n => m.args[n - 1]?
    | none => m.valueOf? name

def isList (name : String) : Bool := name == "@" || name == "*"

def joinedArgs (m : Machine) : String :=
  String.intercalate (String.ofList (m.separators.take 1)) m.args

def homes : List (String × String) :=
  [("root", "/root"), ("daemon", "/usr/sbin"), ("bin", "/bin"), ("sys", "/dev"), ("sync", "/bin"),
    ("games", "/usr/games"), ("man", "/var/cache/man"), ("lp", "/var/spool/lpd"),
    ("mail", "/var/mail"), ("news", "/var/spool/news"), ("uucp", "/var/spool/uucp"),
    ("proxy", "/bin"), ("www-data", "/var/www"), ("backup", "/var/backups"),
    ("list", "/var/list"), ("irc", "/run/ircd"), ("nobody", "/nonexistent")]

def homeOf? (m : Machine) (user : String) : Option String :=
  if user = "" then m.valueOf? "HOME" else homes.lookup user

end Machine

/-! ## Tildes -/

def tildeName (assigned : Bool) : Word → Option (List Char × Word)
  | [] => some ([], [])
  | .char c false :: r =>
    if c = '/' ∨ (assigned ∧ c = ':') then some ([], .char c false :: r)
    else (tildeName assigned r).map fun p => (c :: p.1, p.2)
  | _ => none

def replaceTilde (m : Machine) (assigned : Bool) (w : Word) : Word :=
  match w with
  | .char '~' false :: r =>
    match tildeName assigned r with
    | some (user, rest) =>
      match m.homeOf? (String.ofList user) with
      | some home => home.toList.map (.char · true) ++ rest
      | none => w
    | none => w
  | w => w

def replaceTildes (m : Machine) : Nat → Word → Word
  | 0, w => w
  | n + 1, w =>
    let w := replaceTilde m true w
    let isColon : Piece → Bool
      | .char ':' false => true
      | _ => false
    match w.dropWhile (fun p => !isColon p) with
    | colon :: rest => w.takeWhile (fun p => !isColon p) ++ colon :: replaceTildes m n rest
    | [] => w

/-! ## Values -/

def valueGlyphs (quoted : Bool) (value : List Char) : List Glyph :=
  if quoted then value.map (.char · true) else .begin false :: value.map .loose

def argumentGlyphs (quoted : Bool) (args : List String) : List Glyph :=
  .begin quoted ::
    [Glyph.cut].intercalate (args.map fun a =>
      a.toList.map fun c => if quoted then .char c true else .loose c)

inductive Use
  | fields
  | text
  deriving DecidableEq, Repr

def isSpread (use : Use) (name : String) (quoted : Bool) : Bool :=
  Machine.isList name && use == .fields && !(quoted && name == "*")

def listGlyphs (m : Machine) (use : Use) (name : String) (quoted : Bool) : List Glyph :=
  if isSpread use name quoted then argumentGlyphs quoted m.args
  else valueGlyphs quoted m.joinedArgs.toList

def remainder (args : List String) (use : Use) (name : String) (quoted : Bool) (value : String)
    (drop : List Char → List Char) (dropOfAll : List (List Char) → List (List Char)) :
    List Glyph :=
  if !isSpread use name quoted then valueGlyphs quoted (drop value.toList)
  else if quoted && args.isEmpty then []
  else argumentGlyphs quoted ((dropOfAll (args.map String.toList)).map String.ofList)

def parameterText (m : Machine) (name : String) : Option String :=
  if Machine.isList name then some m.joinedArgs else m.parameter? name

def assignDefault (name value : String) : Action Unit :=
  if isNamed name then Action.assign name value
  else Action.fail (name ++ ": bad variable name")

def reportUnset {α : Type} (name text : String) : Action α := Action.fail (name ++ ": " ++ text)

def unsetText (colon : Bool) : String := "parameter not set" ++ if colon then " or null" else ""

def demandValue (name : String) : Action String := do
  let m ← get
  match parameterText m name with
  | some value => return value
  | none => if m.isOn 'u' then reportUnset name (unsetText false) else return ""

def plainValue (use : Use) (name : String) (quoted : Bool) : Action (List Glyph) := do
  if Machine.isList name then return listGlyphs (← get) use name quoted
  else return valueGlyphs quoted (← demandValue name).toList

def literal (inOperand : Bool) (c : Char) (quoted : Bool) : Glyph :=
  if inOperand && !quoted then .loose c else .char c quoted

def beginsValue (inOperand : Bool) (before : Option Piece) : Bool :=
  inOperand && match before with
    | some (.char _ false) => false
    | _ => true

def expandParameter (operand : Use → Bool → Word → Action (List Glyph)) (use : Use) (name : String)
    (operation : Operation) (quoted : Bool) (word : Word) : Action (List Glyph) := do
  let m ← get
  let value := parameterText m name
  let isUnset (colon : Bool) : Bool := value.isNone || (colon && value == some "")
  let textOf (w : Word) : Action String := do
    return (signsOf (← operand .text false (replaceTilde m false w))).text
  match operation with
  | .invalid => Action.fail "Bad substitution"
  | .value => plainValue use name quoted
  | .length => return valueGlyphs quoted (toString (← demandValue name).length).toList
  | .orElse colon =>
    if isUnset colon then operand use true (replaceTilde m false word)
    else plainValue use name quoted
  | .ifSet colon =>
    if isUnset colon then return [] else operand use true (replaceTilde m false word)
  | .orAssign colon =>
    if isUnset colon then assignDefault name (← textOf word)
    plainValue use name quoted
  | .orFail colon =>
    if isUnset colon then
      reportUnset name (← if word.isEmpty then pure (unsetText colon) else textOf word)
    else plainValue use name quoted
  | .dropFront longest =>
    let text ← demandValue name
    if value.isNone then return valueGlyphs quoted []
    let pattern := (signsOf (← operand .text false word)).unescape
    return remainder m.args use name quoted text (pattern.dropFront longest)
      (pattern.dropFrontOfAll longest)
  | .dropBack longest =>
    let text ← demandValue name
    if value.isNone then return valueGlyphs quoted []
    let pattern := (signsOf (← operand .text false word)).unescape
    return remainder m.args use name quoted text (pattern.dropBack longest)
      (pattern.dropBackOfAll longest)

/-- Expands the pieces of a word. The number bounds its depth; the piece
before the first one is known. -/
def expandPieces (run : Substitute) : Nat → Use → Bool → Option Piece → Word →
    Action (List Glyph)
  | 0, _, _, _, _ => return []
  | _, _, _, _, [] => return []
  | n + 1, use, inOperand, before, p :: r => do
    match p, r with
    | .mark, .parameter "@" .value true [] :: .mark :: r =>
      -- Quotes around nothing but the arguments do not make a field.
      let glyphs := listGlyphs (← get) use "@" true
      return (if (← get).args.isEmpty then [] else glyphs) ++
        (← expandPieces run n use inOperand (some .mark) r)
    | _, _ =>
      let first ← match p with
        | .char c quoted =>
          let begun := if !quoted && beginsValue inOperand before then [Glyph.begin false] else []
          pure (begun ++ [literal inOperand c quoted])
        | .mark => pure [Glyph.mark]
        | .parameter name operation quoted word =>
          expandParameter (fun use inOperand w => expandPieces run n use inOperand none w) use name
            operation quoted word
        | .command text line closed quoted => do
          pure (valueGlyphs quoted (← run text line closed))
        | .arithmetic expression quoted => do
          let source := (signsOf (← expandPieces run n .text false none expression)).text
          pure (valueGlyphs quoted (toString (← Arithmetic.evaluate source)).toList)
      return first ++ (← expandPieces run n use inOperand (some p) r)

def pieceLimit : Nat := 1000000

/-! ## Names of files -/

def namesIn (fs : FileSystem) (dir : String) : List String :=
  match fs.resolve (Text.gather dir) with
  | .ok t =>
    match fs.node? t.last with
    | some (.directory entries) => "." :: ".." :: entries.map fun e => Text.spread e.1
    | _ => []
  | .error _ => []

def isThere (fs : FileSystem) (path : String) : Bool :=
  let path := Text.gather path
  fs.pathExists path ||
    match fs.parentOf path with
    | .ok (dir, name) => (fs.entry? dir.last name).isSome
    | .error _ => false

def fittingNames (p : Pattern) (names : List String) : List String :=
  let dotted := (p.head?.map (·.char)) == some '.'
  names.filter fun name =>
    (dotted || name.toList.head? != some '.') && p.fits name.toList

def splitSlashes (p : Pattern) : List Pattern :=
  p.foldr
    (fun s parts => match parts with
      | [] => [[s]]
      | part :: rest => if s.char == '/' then [] :: part :: rest else (s :: part) :: rest)
    [[]]

/-- The paths that fit the parts, after a path that ends in a slash or is
empty; the flag tells whether a part of it was an open pattern. -/
def fittingPaths (fs : FileSystem) : Bool → String → List Pattern → List String
  | _, path, [] => [path]
  | found, path, [part] =>
    if part.isOpen then
      (fittingNames part (namesIn fs (if path = "" then "." else path))).map (path ++ ·)
    else
      let path := path ++ part.text
      if found && !isThere fs path then [] else [path]
  | found, path, part :: rest =>
    if part.isOpen then
      (fittingNames part (namesIn fs (if path = "" then "." else path))).flatMap fun name =>
        fittingPaths fs true (path ++ name ++ "/") rest
    else fittingPaths fs found (path ++ part.text ++ "/") rest

def pathsOf (fs : FileSystem) (p : Pattern) : List String :=
  if !p.unescape.isOpen then [p.text]
  else
    match fittingPaths fs false "" (splitSlashes p.unescape) with
    | [] => [p.text]
    | paths => paths.mergeSort fun a b => decide (a ≤ b)

/-! ## Words -/

def expandText (run : Substitute) (w : Word) : Action String := do
  let w := replaceTilde (← get) false w
  return (signsOf (← expandPieces run pieceLimit .text false none w)).text

def expandValue (run : Substitute) (w : Word) : Action String := do
  let w := replaceTildes (← get) w.length w
  return (signsOf (← expandPieces run pieceLimit .text false none w)).text

def expandPattern (run : Substitute) (w : Word) : Action Pattern := do
  let w := replaceTilde (← get) false w
  return (signsOf (← expandPieces run pieceLimit .text false none w)).unescape

def expandWord (run : Substitute) (w : Word) : Action (List String) := do
  let w := replaceTilde (← get) false w
  let glyphs ← expandPieces run pieceLimit .fields false none w
  let m ← get
  let fields := fieldsOf m.separators glyphs
  if m.isOn 'f' then return fields.map Pattern.text
  else return fields.flatMap (pathsOf m.system.files)

def expandWords (run : Substitute) (ws : List Word) : Action (List String) := do
  return (← ws.mapM (expandWord run)).flatten

end ImageTools.Shell
