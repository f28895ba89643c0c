import RecordStore.Field.Basic
/-!
# The order of fields — unset, then integers, texts and blobs

Values of one type compare by value: integers by size, texts and blobs byte
by byte. Values of different types compare by the rank of their types, and
an unset field comes before every value.
-/

namespace RecordStore

namespace FieldValue

/-- Compares two values, of one type or of two. -/
def compare : FieldValue → FieldValue → Ordering
  | int a, int b => Ord.compare a b
  | string a, string b => Ord.compare a.toByteArray.data.toList b.toByteArray.data.toList
  | blob a, blob b => Ord.compare a.data.toList b.data.toList
  | a, b => Ord.compare a.type.rank b.type.rank

end FieldValue

namespace Field

/-- Compares two fields, either of which may be unset. -/
def compare : Field → Field → Ordering
  | none, none => .eq
  | none, some _ => .lt
  | some _, none => .gt
  | some a, some b => a.compare b

@[simp] theorem compare_some (a b : FieldValue) :
    compare (some a) (some b) = a.compare b := rfl

end Field

end RecordStore
