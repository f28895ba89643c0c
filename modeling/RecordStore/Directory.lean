/-!
# Directories — finite maps as lists of bindings

A directory binds keys to values, each key at most once, in the order in
which the keys were first bound. Binding a key again replaces its value in
place.
-/

namespace RecordStore

/-- A list of bindings. -/
structure Directory (κ α : Type) where
  bindings : List (κ × α) := []
  deriving Repr

namespace Directory

variable {κ α : Type} [DecidableEq κ]

/-- The value of the first binding of a key. -/
def lookup (key : κ) : List (κ × α) → Option α
  | [] => none
  | b :: rest => if b.1 = key then some b.2 else lookup key rest

/-- Replaces the value of a key, or binds the key behind the others. -/
def update (key : κ) (a : α) : List (κ × α) → List (κ × α)
  | [] => [(key, a)]
  | b :: rest => if b.1 = key then (key, a) :: rest else b :: update key a rest

/-- A directory without bindings. -/
def empty : Directory κ α := {}

/-- The value bound to a key. -/
def find? (d : Directory κ α) (key : κ) : Option α := lookup key d.bindings

/-- Whether a key is bound. -/
def contains (d : Directory κ α) (key : κ) : Bool := (d.find? key).isSome

/-- Binds a key to a value. -/
def insert (d : Directory κ α) (key : κ) (a : α) : Directory κ α := ⟨update key a d.bindings⟩

/-- Takes a key out. -/
def erase (d : Directory κ α) (key : κ) : Directory κ α :=
  ⟨d.bindings.filter fun b => b.1 ≠ key⟩

/-- The bound keys, in the order in which they were first bound. -/
def keys (d : Directory κ α) : List κ := d.bindings.map Prod.fst

/-! ## What is found after a change -/

@[simp] theorem find?_empty (key : κ) : (empty : Directory κ α).find? key = none := rfl

theorem lookup_update (l : List (κ × α)) (key other : κ) (a : α) :
    lookup other (update key a l) = if key = other then some a else lookup other l := by
  induction l with
  | nil => simp [update, lookup]
  | cons b rest ih =>
    by_cases hb : b.1 = key
    · by_cases ho : key = other <;> simp_all [update, lookup]
    · by_cases ho : b.1 = other
      · have : ¬ key = other := fun h => hb (ho.trans h.symm)
        simp_all [update, lookup]
      · simp_all [update, lookup]

/-- Only the key that was bound finds something else. -/
theorem find?_insert (d : Directory κ α) (key other : κ) (a : α) :
    (d.insert key a).find? other = if key = other then some a else d.find? other :=
  lookup_update d.bindings key other a

@[simp] theorem find?_insert_self (d : Directory κ α) (key : κ) (a : α) :
    (d.insert key a).find? key = some a := by simp [find?_insert]

theorem lookup_filter_ne (l : List (κ × α)) (key other : κ) :
    lookup other (l.filter fun b => b.1 ≠ key) = if key = other then none else lookup other l := by
  induction l with
  | nil => simp [lookup]
  | cons b rest ih =>
    by_cases hb : b.1 = key
    · by_cases ho : key = other <;> simp_all [lookup]
    · by_cases ho : b.1 = other
      · have : ¬ key = other := fun h => hb (ho.trans h.symm)
        simp_all [lookup]
      · simp_all [lookup]

/-- Only the key that was taken out finds nothing any more. -/
theorem find?_erase (d : Directory κ α) (key other : κ) :
    (d.erase key).find? other = if key = other then none else d.find? other :=
  lookup_filter_ne d.bindings key other

@[simp] theorem find?_erase_self (d : Directory κ α) (key : κ) :
    (d.erase key).find? key = none := by simp [find?_erase]

end Directory

end RecordStore
