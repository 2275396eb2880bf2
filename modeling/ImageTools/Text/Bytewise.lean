import ImageTools.Text.Lossy

/-!
# Text as bytes

Programs hand each other bytes, which need not be the UTF-8 form of any
text. A bytewise text has one character for every byte, the one with the
byte's number, so that text functions work on bytes.
-/

set_option autoImplicit false

namespace ImageTools.Text

def byteChar (b : UInt8) : Char := Char.ofNat b.toNat

def charByte (c : Char) : UInt8 := UInt8.ofNat c.toNat

def bytesOf (text : String) : List UInt8 := text.toList.map charByte

def bytewise (bytes : List UInt8) : String := String.ofList (bytes.map byteChar)

def spread (text : String) : String := bytewise text.toUTF8.toList

def gather (text : String) : String := String.ofList (decodeLossy (bytesOf text))

theorem charByte_byteChar (b : UInt8) : charByte (byteChar b) = b := by
  have h : b.toNat.isValidChar := Or.inl (Nat.lt_of_lt_of_le b.toNat_lt (by decide))
  have hc : (Char.ofNat b.toNat).toNat = b.toNat := by
    rw [Char.ofNat, dif_pos h]
    rfl
  rw [charByte, byteChar, hc, UInt8.ofNat_toNat]

theorem bytesOf_bytewise (bytes : List UInt8) : bytesOf (bytewise bytes) = bytes := by
  induction bytes with
  | nil => rfl
  | cons b r ih =>
    simp only [bytesOf, bytewise, String.toList_ofList, List.map_cons, charByte_byteChar]
    simpa [bytesOf, bytewise] using ih

end ImageTools.Text
