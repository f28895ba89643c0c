/-!
# Hexadecimal texts — numbers and bytes in base sixteen

Numbers are written in lower case, bytes of a value in upper case; both
come from the digits of the number, most significant first.
-/

namespace RecordStore

namespace Text

/-- The lower-case hexadecimal digits of a number, without leading zeros. -/
def hexDigits (n : Nat) : List Char := Nat.toDigits 16 n

/-- A number as `0x` and its digits. -/
def hex (n : Nat) : String := "0x" ++ String.ofList (hexDigits n)

/-- A 32-bit word as `0x` and exactly eight digits. -/
def hexWord (n : UInt32) : String :=
  "0x" ++ String.ofList (List.leftpad 8 '0' (hexDigits n.toNat))

/-- A byte as two upper-case digits. -/
def hexByte (b : UInt8) : List Char :=
  List.leftpad 2 '0' ((hexDigits b.toNat).map Char.toUpper)

/-- Bytes one after the other, two upper-case digits each. -/
def hexBytes (bytes : ByteArray) : String :=
  String.ofList (bytes.data.toList.flatMap hexByte)

end Text

end RecordStore
