/-!
# Text from arbitrary bytes

Bytes are read as UTF-8. Where they are not, every longest start of a
character that breaks off, and every byte that starts none, becomes one
replacement character, so that no byte is dropped without a trace.
-/

set_option autoImplicit false

namespace ImageTools.Text

def continues (b : UInt8) : Bool := 0x80 ≤ b && b ≤ 0xBF

def payload (b : UInt8) : Nat := b.toNat % 64

/-- The bytes that may follow `a` as the second byte of a character with
three bytes; surrogates and overlong forms are ruled out. -/
def secondOfThree (a b : UInt8) : Bool :=
  if a = 0xE0 then 0xA0 ≤ b && b ≤ 0xBF
  else if a = 0xED then 0x80 ≤ b && b ≤ 0x9F
  else continues b

def secondOfFour (a b : UInt8) : Bool :=
  if a = 0xF0 then 0x90 ≤ b && b ≤ 0xBF
  else if a = 0xF4 then 0x80 ≤ b && b ≤ 0x8F
  else continues b

def replacement : Char := Char.ofNat 0xFFFD

def decodeLossy : List UInt8 → List Char
  | [] => []
  | a :: r =>
    if a < 0x80 then Char.ofNat a.toNat :: decodeLossy r
    else if 0xC2 ≤ a && a ≤ 0xDF then
      match r with
      | b :: r₁ =>
        if continues b then Char.ofNat ((a.toNat % 32) * 64 + payload b) :: decodeLossy r₁
        else replacement :: decodeLossy (b :: r₁)
      | [] => [replacement]
    else if 0xE0 ≤ a && a ≤ 0xEF then
      match r with
      | b :: r₁ =>
        if secondOfThree a b then
          match r₁ with
          | c :: r₂ =>
            if continues c then
              Char.ofNat (((a.toNat % 16) * 64 + payload b) * 64 + payload c) :: decodeLossy r₂
            else replacement :: decodeLossy (c :: r₂)
          | [] => [replacement]
        else replacement :: decodeLossy (b :: r₁)
      | [] => [replacement]
    else if 0xF0 ≤ a && a ≤ 0xF4 then
      match r with
      | b :: r₁ =>
        if secondOfFour a b then
          match r₁ with
          | c :: r₂ =>
            if continues c then
              match r₂ with
              | d :: r₃ =>
                if continues d then
                  Char.ofNat ((((a.toNat % 8) * 64 + payload b) * 64 + payload c) * 64 + payload d)
                    :: decodeLossy r₃
                else replacement :: decodeLossy (d :: r₃)
              | [] => [replacement]
            else replacement :: decodeLossy (c :: r₂)
          | [] => [replacement]
        else replacement :: decodeLossy (b :: r₁)
      | [] => [replacement]
    else replacement :: decodeLossy r

def ofBytes (bytes : ByteArray) : String :=
  match String.fromUTF8? bytes with
  | some text => text
  | none => String.ofList (decodeLossy bytes.toList)

end ImageTools.Text
