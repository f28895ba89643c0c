import RecordStore.Checksum
import RecordStore.Client.Error
import RecordStore.Text.Quoted
/-!
# Schemas — the layout of a type of objects in records

An object has integer attributes, each with a name. Its record holds them
in the byte order of their names, so that the layout does not depend on the
order in which they were declared. The fingerprint of a schema tells
layouts apart: it is a checksum over the names and their number.
-/

namespace RecordStore

/-- An attribute of objects: its name, and how it is read from an object and written to it. -/
structure Attribute (α : Type) where
  name : String
  get : α → Int32
  set : α → Int32 → α

/-- The layout of a type: the attributes in the order of their fields, and the object that
has none of them set yet. -/
structure Schema (α : Type) where
  typeName : String
  blank : α
  attributes : List (Attribute α)

namespace Attribute

variable {α : Type}

/-- How diagnostics show the attribute. -/
def inspect (a : Attribute α) : String := "Attribute(" ++ Text.quoted a.name ++ ")"

end Attribute

namespace Schema

variable {α : Type}

/-! ## Names -/

/-- The bytes of a name. -/
def nameBytes (name : String) : List UInt8 := name.toByteArray.data.toList

/-- Whether a name comes before another in byte order, or is the same. -/
def nameLe (a b : String) : Bool := (Ord.compare (nameBytes a) (nameBytes b)).isLE

/-- Attributes in the byte order of their names; those of one name keep their order. -/
def sorted (attributes : List (Attribute α)) : List (Attribute α) :=
  attributes.mergeSort fun a b => nameLe a.name b.name

/-- The first name that stands twice in a row. -/
def firstRepeated? : List String → Option String
  | a :: b :: rest => if a = b then some a else firstRepeated? (b :: rest)
  | _ => none

/-- Drops every attribute whose name is that of the one kept before it. -/
def dropRepeated (before : Option String) : List (Attribute α) → List (Attribute α)
  | [] => []
  | a :: rest =>
    if before = some a.name then dropRepeated before rest
    else a :: dropRepeated (some a.name) rest

/-! ## Construction -/

/-- The schema of attributes with different names. -/
def new? (typeName : String) (blank : α) (attributes : List (Attribute α)) :
    Except ClientError (Schema α) :=
  match firstRepeated? ((sorted attributes).map Attribute.name) with
  | some name => .error (.invalidSchema typeName (.declaredTwice name))
  | none => .ok ⟨typeName, blank, sorted attributes⟩

/-- The schema of attributes, of which the first of each name counts. -/
def declared (typeName : String) (blank : α) (attributes : List (Attribute α)) : Schema α :=
  ⟨typeName, blank, dropRepeated none (sorted attributes)⟩

/-! ## What a schema says -/

/-- The names in the order of their fields. -/
def names (s : Schema α) : List String := s.attributes.map Attribute.name

/-- The number of attributes. -/
def size (s : Schema α) : Nat := s.attributes.length

/-- Whether there are no attributes. -/
def isEmpty (s : Schema α) : Bool := s.attributes.isEmpty

/-- The field of an attribute. -/
def indexOf? (s : Schema α) (name : String) : Option Nat := s.names.idxOf? name

/-! ## Fingerprints -/

/-- A number of 32 bits as four bytes, the lowest first. -/
def littleEndian (n : UInt32) : List UInt8 :=
  [n.toUInt8, (n >>> 8).toUInt8, (n >>> 16).toUInt8, (n >>> 24).toUInt8]

/-- The bytes that a fingerprint is taken of: each name with a zero byte behind it, then the
number of names. -/
def fingerprintBytes (names : List String) : List UInt8 :=
  (names.flatMap fun name => nameBytes name ++ [0]) ++ littleEndian names.length.toUInt32

/-- The fingerprint, as an integer that a field can hold. -/
def fingerprint (s : Schema α) : Int32 :=
  (Checksum.ofBytes (fingerprintBytes s.names)).toInt32

/-- How diagnostics show the schema. -/
def inspect (s : Schema α) : String :=
  "Schema \x7b type_name: " ++ Text.quoted s.typeName ++ ", attributes: " ++
    Text.quotedList s.names ++ ", fingerprint: " ++ Text.hexWord s.fingerprint.toUInt32 ++
    " \x7d"

/-- The number of fields of a record that holds an object. -/
def recordLength (s : Schema α) (withFingerprint : Bool) : Nat :=
  if withFingerprint then s.size + 1 else s.size

end Schema

end RecordStore
