import RecordStore.Size
import RecordStore.Text.Hex
/-!
# Field values — integers, strings and blobs

A field of a record holds a value of one of three types, or is unset. The
type is fixed when the field is written. An unset field is `none` wherever
an optional field value appears.
-/

namespace RecordStore

/-- The type of a field value. -/
inductive FieldType where
  /-- A 32-bit signed integer. -/
  | int
  /-- A text. -/
  | string
  /-- A sequence of bytes. -/
  | blob
  deriving DecidableEq, Repr, Inhabited

namespace FieldType

/-- The place of the type in the order across types; unset fields rank below every type. -/
def rank : FieldType → Nat
  | int => 1
  | string => 2
  | blob => 3

/-- The name of the type. -/
def name : FieldType → String
  | int => "int"
  | string => "string"
  | blob => "blob"

/-- Types of one rank are the same type. -/
theorem rank_inj {a b : FieldType} : a.rank = b.rank ↔ a = b := by
  cases a <;> cases b <;> decide

end FieldType

/-- The value of a field that has been written. -/
inductive FieldValue where
  /-- An integer, stored in the field word itself. -/
  | int (v : Int32)
  /-- A text, stored with its length outside the field word. -/
  | string (s : String)
  /-- Bytes, stored with their length outside the field word. -/
  | blob (bytes : ByteArray)

namespace FieldValue

/-- Values are equal if they are of one type and hold the same integer, text or bytes. -/
instance : DecidableEq FieldValue
  | int a, int b => decidable_of_iff (a = b) (by simp)
  | string a, string b => decidable_of_iff (a = b) (by simp)
  | blob a, blob b => decidable_of_iff (a.data = b.data) (by simp [ByteArray.ext_iff])
  | int _, string _ | int _, blob _ | string _, int _ => isFalse (by simp)
  | string _, blob _ | blob _, int _ | blob _, string _ => isFalse (by simp)

/-- The type of the value. -/
def type : FieldValue → FieldType
  | int _ => .int
  | string _ => .string
  | blob _ => .blob

/-- The integer, where the value is one. -/
def asInt? : FieldValue → Option Int32
  | int v => some v
  | _ => none

/-- The text, where the value is one. -/
def asString? : FieldValue → Option String
  | string s => some s
  | _ => none

/-- The bytes, where the value is a blob. -/
def asBlob? : FieldValue → Option ByteArray
  | blob bytes => some bytes
  | _ => none

/-- Bytes the value takes outside its field word. A text is stored with a closing zero byte. -/
def storedSize : FieldValue → Nat
  | int _ => 0
  | string s => Size.longValue (s.utf8ByteSize + 1)
  | blob bytes => Size.longValue bytes.size

/-- How messages show the value: an integer in decimal, a text between quotes as it is,
a blob as upper-case hexadecimal digits. -/
def text : FieldValue → String
  | int v => toString v.toInt
  | string s => "\"" ++ s ++ "\""
  | blob bytes => Text.hexBytes bytes

/-- Whether the value is a text with a zero character in it. -/
def hasNul : FieldValue → Bool
  | string s => s.toList.contains '\x00'
  | _ => false

end FieldValue

/-- A field of a record: its value, or nothing where it was never written. -/
abbrev Field := Option FieldValue

namespace Field

/-- Bytes a field takes outside its word; an unset field takes none. -/
def storedSize (f : Field) : Nat := f.elim 0 FieldValue.storedSize

end Field

end RecordStore
