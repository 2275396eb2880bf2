import ImageTools.Text.Hidden

/-!
# Quoted text

A text between double quotes, on one line and without hidden characters:
double quotes and backslashes are escaped, a few controls have letters, and
every other hidden character is written as its number between braces.
-/

set_option autoImplicit false

namespace ImageTools.Text

def hexDigits (n : Nat) : List Char := Nat.toDigits 16 n

def quoteChar (c : Char) : List Char :=
  match c with
  | '\x00' => ['\\', '0']
  | '\t' => ['\\', 't']
  | '\n' => ['\\', 'n']
  | '\r' => ['\\', 'r']
  | '\\' => ['\\', '\\']
  | '\x22' => ['\\', c]
  | c => if isHidden c then ['\\', 'u', '\x7b'] ++ hexDigits c.toNat ++ ['\x7d'] else [c]

def quoted (text : String) : String :=
  String.ofList ('\x22' :: text.toList.flatMap quoteChar ++ ['\x22'])

end ImageTools.Text
