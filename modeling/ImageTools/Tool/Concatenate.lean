import ImageTools.Process.System
import ImageTools.Tool.FileName

/-!
# The program that copies files to its output

It copies the files that its words name, or its input, and can number lines
and make bytes visible. What it cannot read it complains about, and goes on.
-/

set_option autoImplicit false

namespace ImageTools.Tool.Concatenate

structure Style where
  number : Bool := false
  numberNonblank : Bool := false
  squeeze : Bool := false
  ends : Bool := false
  tabs : Bool := false
  nonprinting : Bool := false
  deriving DecidableEq, Repr

namespace Style

def isPlain (s : Style) : Bool := s == {}

def withLetter? (s : Style) (c : Char) : Option Style :=
  match c with
  | 'b' => some { s with number := true, numberNonblank := true }
  | 'e' => some { s with ends := true, nonprinting := true }
  | 'n' => some { s with number := true }
  | 's' => some { s with squeeze := true }
  | 't' => some { s with tabs := true, nonprinting := true }
  | 'u' => some s
  | 'v' => some { s with nonprinting := true }
  | 'A' => some { s with ends := true, tabs := true, nonprinting := true }
  | 'E' => some { s with ends := true }
  | 'T' => some { s with tabs := true }
  | _ => none

def longNames : List (String × Char) :=
  [("number-nonblank", 'b'), ("number", 'n'), ("squeeze-blank", 's'), ("show-nonprinting", 'v'),
    ("show-ends", 'E'), ("show-tabs", 'T'), ("show-all", 'A'), ("help", 'h'), ("version", 'V')]

def quotedName (name : String) : String := "\x27--" ++ name ++ "\x27"

def letterOf (option : String) : Except String Char :=
  let name := String.ofList (option.toList.takeWhile (· != '='))
  let fitting := longNames.filter fun l => name.isPrefixOf l.1
  let found (l : String × Char) : Except String Char :=
    if option.toList.contains '=' then
      .error ("option " ++ quotedName l.1 ++ " doesn\x27t allow an argument")
    else .ok l.2
  match longNames.find? fun l => l.1 = name, fitting with
  | some l, _ => found l
  | none, [l] => found l
  | none, [] => .error ("unrecognized option " ++ quotedName option)
  | none, ls =>
    .error ("option " ++ quotedName option ++ " is ambiguous; possibilities:" ++
      String.join (ls.map fun l => " " ++ quotedName l.1))

def withLetters (s : Style) : List Char → Except String Style
  | [] => .ok s
  | c :: r =>
    match s.withLetter? c with
    | some s => s.withLetters r
    | none => .error ("invalid option -- \x27" ++ String.ofList [c] ++ "\x27")

def read (s : Style) : List String → Except String (Style × List String)
  | [] => .ok (s, [])
  | w :: ws =>
    match w.toList with
    | ['-', '-'] => .ok (s, ws)
    | '-' :: '-' :: name => do
      let c ← letterOf (String.ofList name)
      (s.withLetter? c).elim (read s ws) fun s => read s ws
    | '-' :: c :: cs => do read (← s.withLetters (c :: cs)) ws
    | _ => (read s ws).map fun p => (p.1, w :: p.2)

end Style

structure Cursor where
  fresh : Bool := true
  /-- The blank lines just passed. -/
  blanks : Nat := 0
  /-- The number of the last numbered line. -/
  line : Nat := 0

def ascii (text : String) : List UInt8 := text.toList.map Text.charByte

def visible (s : Style) (b : UInt8) : List UInt8 :=
  if b = 9 then if s.tabs then ascii "^I" else [b]
  else if !s.nonprinting then [b]
  else
    let low (b : UInt8) : List UInt8 :=
      if b < 32 then ascii "^" ++ [b + 64] else if b = 127 then ascii "^?" else [b]
    if b < 128 then low b else ascii "M-" ++ low (b - 128)

def lineNumber (n : Nat) : List UInt8 :=
  let digits := toString n
  ascii (String.ofList (List.replicate (6 - digits.length) ' ') ++ digits ++ "\t")

def step (s : Style) (k : Cursor) (b : UInt8) : Cursor × List UInt8 :=
  if b = 10 then
    let blanks := if k.fresh then k.blanks + 1 else 0
    if s.squeeze && 2 ≤ blanks then ({ k with blanks := blanks }, [])
    else
      let numbered := k.fresh && s.number && !s.numberNonblank
      let line := if numbered then k.line + 1 else k.line
      ({ fresh := true, blanks := blanks, line := line },
        (if numbered then lineNumber line else []) ++ (if s.ends then ascii "$" else []) ++ [b])
  else
    let numbered := k.fresh && s.number
    let line := if numbered then k.line + 1 else k.line
    ({ fresh := false, blanks := 0, line := line },
      (if numbered then lineNumber line else []) ++ visible s b)

def format (s : Style) (k : Cursor) (bytes : List UInt8) : Cursor × List UInt8 :=
  if s.isPlain then (k, bytes)
  else
    bytes.foldl (fun done b => let r := step s done.1 b; (r.1, done.2 ++ r.2)) (k, [])

structure Copying where
  system : System
  cursor : Cursor := {}
  /-- Whether all has gone well so far. -/
  ok : Bool := true
  readInput : Bool := false
  /-- Whether the output cannot be written to. -/
  broken : Bool := false

def complain (p : Process) (text : String) (s : System) : System :=
  match p.descriptors.get? 2 with
  | none => s
  | some c =>
    let bytes := Text.bytesOf (p.words.headD "" ++ ": " ++ text ++ "\n")
    match s.write c (ByteArray.mk bytes.toArray) with
    | .ok s => s
    | .error _ => s

def Copying.failWith (k : Copying) (p : Process) (text : String) : Copying :=
  { k with system := complain p text k.system, ok := false }

def isOutput (s : System) (input output : Nat) : Bool :=
  match s.target? input, s.target? output with
  | some (.node i offset), some (.node j _) =>
    i == j && match s.files.node? i with
      | some (.file _ bytes) => offset < bytes.size
      | _ => false
  | _, _ => false

def copyChannel (style : Style) (p : Process) (output : Nat) (name : String) (k : Copying)
    (input : Nat) : Copying :=
  if isOutput k.system input output then
    k.failWith p (FileName.shown name ++ ": input file is output file")
  else
    match k.system.readAll input with
    | .error e => k.failWith p (FileName.shown name ++ ": " ++ e.plainText)
    | .ok (bytes, s) =>
      let (cursor, shown) := format style k.cursor bytes.toList
      match s.write output (ByteArray.mk shown.toArray) with
      | .ok s => { k with system := s, cursor := cursor }
      | .error e => { { k with system := s }.failWith p ("write error: " ++ e.plainText) with
          broken := true }

def copyOne (style : Style) (p : Process) (output : Nat) (k : Copying) (name : String) : Copying :=
  if k.broken then k
  else if name = "-" then
    let k := { k with readInput := true }
    match p.descriptors.get? 0 with
    | none => k.failWith p ("-: " ++ SystemError.badDescriptor.plainText)
    | some c => copyChannel style p output name k c
  else
    match k.system.openPath p.descriptors name .input with
    | .error e => k.failWith p (FileName.shown name ++ ": " ++ e.plainText)
    | .ok (c, s) => copyChannel style p output name { k with system := s } c

def run (p : Process) (s : System) : System × Ending :=
  match Style.read {} p.words.tail with
  | .error text =>
    let hint := "Try \x27" ++ p.words.headD "" ++ " --help\x27 for more information."
    (complain p (text ++ "\n" ++ hint) s, .exited 1)
  | .ok (style, names) =>
    match p.descriptors.get? 1 with
    | none =>
      (complain p ("standard output: " ++ SystemError.badDescriptor.plainText) s, .exited 1)
    | some output =>
      let names := if names.isEmpty then ["-"] else names
      let k := names.foldl (copyOne style p output) { system := s }
      let k :=
        if k.readInput && !k.broken && (p.descriptors.get? 0).isNone then
          k.failWith p ("closing standard input: " ++ SystemError.badDescriptor.plainText)
        else k
      (k.system, .exited (if k.ok then 0 else 1))

end ImageTools.Tool.Concatenate
