import RecordStore.Schema.Basic
/-!
# Schemas of tuples — objects as arrays of integers

An object whose attributes are declared in a list is an array with one
integer for each of them, in the order of the declaration.
-/

namespace RecordStore

namespace Attribute

/-- The attribute that an entry of an array stands for; an entry that the array does not have
reads as zero. -/
def entry (name : String) (k : Nat) : Attribute (Array Int32) where
  name
  get := fun object => object[k]?.getD 0
  set := fun object v => object.setIfInBounds k v

end Attribute

/-- The declaration of a type whose objects are arrays. -/
structure TupleType where
  typeName : String
  names : List String
  /-- Whether a name that is declared twice is an error. -/
  isStrict : Bool
  deriving DecidableEq, Repr

namespace TupleType

/-- The object whose entries are all zero. -/
def blank (t : TupleType) : Array Int32 := Array.replicate t.names.length 0

/-- One attribute for each name. -/
def attributes (t : TupleType) : List (Attribute (Array Int32)) :=
  t.names.zipIdx.map fun p => .entry p.1 p.2

/-- The schema of the type. -/
def schema? (t : TupleType) : Except ClientError (Schema (Array Int32)) :=
  if t.isStrict then Schema.new? t.typeName t.blank t.attributes
  else .ok (Schema.declared t.typeName t.blank t.attributes)

end TupleType

end RecordStore
