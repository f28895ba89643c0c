import RecordStore.Region.Basic
/-!
# Listings — live records in the order of their creation

What a region is to those who use it: a list of live records, each with its
key and its fields, oldest first. The operations on listings say what
creating, deleting and writing mean, without slots, sequence numbers or
space.
-/

namespace RecordStore

/-- A live record as it is known from outside: its key and its fields. -/
structure LiveRecord where
  key : SlotKey
  fields : Array Field
  deriving DecidableEq

namespace LiveRecord

/-- A record of unset fields. -/
def fresh (key : SlotKey) (length : Nat) : LiveRecord := ⟨key, Array.replicate length none⟩

/-- The record with one field written. -/
def write (x : LiveRecord) (index : Nat) (value : FieldValue) : LiveRecord :=
  { x with fields := x.fields.setIfInBounds index (some value) }

end LiveRecord

namespace Listing

variable {l : List LiveRecord} {key : SlotKey} {x : LiveRecord}

/-- The live record under a key. -/
def lookup (key : SlotKey) (l : List LiveRecord) : Option LiveRecord :=
  l.find? fun x => x.key = key

/-- The listing without the record under a key. -/
def without (key : SlotKey) (l : List LiveRecord) : List LiveRecord :=
  l.filter fun x => x.key ≠ key

/-- The listing with one field of the record under a key written. -/
def written (key : SlotKey) (index : Nat) (value : FieldValue) (l : List LiveRecord) :
    List LiveRecord :=
  l.map fun x => if x.key = key then x.write index value else x

/-- The record that follows the one under a key. -/
def after (key : SlotKey) : List LiveRecord → Option LiveRecord
  | [] => none
  | x :: rest => if x.key = key then rest.head? else after key rest

theorem mem_of_lookup (h : lookup key l = some x) : x ∈ l ∧ x.key = key :=
  ⟨List.mem_of_find?_eq_some h, by simpa using List.find?_some h⟩

theorem lookup_eq_none_iff : lookup key l = none ↔ ∀ x ∈ l, x.key ≠ key := by
  simp [lookup]

/-- Where no key occurs twice, a member is what its key finds. -/
theorem lookup_eq_some_iff (hl : (l.map LiveRecord.key).Nodup) :
    lookup key l = some x ↔ x ∈ l ∧ x.key = key := by
  constructor
  · exact mem_of_lookup
  · rintro ⟨hx, rfl⟩
    induction l with
    | nil => cases hx
    | cons y rest ih =>
      rw [List.map_cons, List.nodup_cons] at hl
      rcases List.mem_cons.1 hx with rfl | hx
      · simp [lookup]
      · have hne : y.key ≠ x.key := fun he => hl.1 (he ▸ List.mem_map_of_mem hx)
        rw [← ih hl.2 hx]
        simp [lookup, hne]

end Listing

end RecordStore
