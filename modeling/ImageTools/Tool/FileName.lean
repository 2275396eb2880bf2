import ImageTools.Text.Bytewise

/-!
# File names in messages

A name that a shell would not take as one plain word is shown in quotes, as
it would have to be written there. Bytes outside of printable ASCII are shown
by their numbers.
-/

set_option autoImplicit false

namespace ImageTools.Tool.FileName

def isMarked (c : Char) : Bool := " !\x22$&()*;<=>[^\x60|?\\:\x27".toList.contains c

def isPlain (c : Char) : Bool := 32 ≤ c.toNat && c.toNat < 127

def needsQuotes (name : List Char) : Bool :=
  name.isEmpty || name == ['\x7b'] || name == ['\x7d'] ||
    ['#', '~'].any (fun c => name.head? == some c) || name.any fun c => isMarked c || !isPlain c

def isSame (c : Char) : Bool := c.isAlphanum || " \x27%+,-./:]_".toList.contains c

def escaped (c : Char) : List Char :=
  let letters := [('\x07', 'a'), ('\x08', 'b'), ('\x0c', 'f'), ('\n', 'n'), ('\r', 'r'), ('\t', 't'),
    ('\x0b', 'v')]
  match letters.lookup c with
  | some letter => ['\\', letter]
  | none =>
    let n := c.toNat
    '\\' :: [n / 64 % 8, n / 8 % 8, n % 8].map fun d => Char.ofNat (48 + d)

def inQuotes : Bool → List Char → List Char
  | _, [] => []
  | afterEscaped, c :: r =>
    if !isPlain c then
      (if afterEscaped then [] else ['\x27', '$', '\x27']) ++ escaped c ++ inQuotes true r
    else if c = '\x27' then ['\x27', '\\', '\x27', '\x27'] ++ inQuotes false r
    else (if afterEscaped then ['\x27', '\x27'] else []) ++ c :: inQuotes false r

def shown (name : String) : String :=
  let cs := name.toList
  if !needsQuotes cs then name
  else if cs.contains '\x27' && cs.all isSame then "\x22" ++ name ++ "\x22"
  else "\x27" ++ String.ofList (inQuotes false cs) ++ "\x27"

end ImageTools.Tool.FileName
