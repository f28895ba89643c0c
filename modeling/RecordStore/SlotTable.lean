/-!
# Slot tables — reused slots under generations

A slot table stores values in numbered slots. A value is addressed by its
slot and the generation the slot had when the value went in; a removal
starts the slot's next generation, so a key given out earlier no longer
finds anything when the slot is filled again. Emptied slots are reused, the
last one emptied first.
-/

namespace RecordStore

/-- The address of a value: a slot and one of its generations. -/
structure SlotKey where
  slot : UInt32
  generation : UInt32
  deriving DecidableEq, Repr

/-- One slot: its current generation, and its value if it is occupied. -/
structure Slot (α : Type) where
  generation : UInt32
  value : Option α
  deriving Repr

namespace Slot

variable {α : Type}

/-- The slot after its value left: empty, under the next generation. -/
def emptied (s : Slot α) : Slot α := ⟨s.generation + 1, none⟩

/-- Whether the slot holds a value that satisfies `p`. -/
def holds (p : α → Bool) (s : Slot α) : Bool := s.value.any p

end Slot

/-- A table of slots with the list of the empty ones, the next to be reused in front. -/
structure SlotTable (α : Type) where
  slots : Array (Slot α) := #[]
  free : List UInt32 := []
  count : Nat := 0
  deriving Repr

namespace SlotTable

variable {α : Type}

/-- A table without slots. -/
def empty : SlotTable α := {}

/-- Slots are numbered in 32 bits, so a table has no more than these. -/
def maxSlots : Nat := UInt32.size

/-- The slot with the given number, where the table has it. -/
def slot? (t : SlotTable α) (slot : UInt32) : Option (Slot α) := t.slots[slot.toNat]?

/-- The value under a key, where the key is current. -/
def get? (t : SlotTable α) (key : SlotKey) : Option α :=
  (t.slot? key.slot).bind fun s => if s.generation = key.generation then s.value else none

/-- Whether the key is current. -/
def contains (t : SlotTable α) (key : SlotKey) : Bool := (t.get? key).isSome

/-- The key of the value in a slot, where the slot is occupied. -/
def keyAt? (t : SlotTable α) (slot : UInt32) : Option SlotKey :=
  (t.slot? slot).bind fun s => s.value.map fun _ => ⟨slot, s.generation⟩

/-- Puts a slot in the place of the one with the given number. -/
def putSlot (t : SlotTable α) (slot : UInt32) (s : Slot α) : Array (Slot α) :=
  t.slots.setIfInBounds slot.toNat s

/-- Stores a value and gives its key: in the slot emptied last, else in a new one. Nothing
is stored when no slot is empty and the table has all its slots. -/
def insert? (t : SlotTable α) (a : α) : Option (SlotKey × SlotTable α) :=
  match t.free with
  | slot :: free =>
    let generation := ((t.slot? slot).map Slot.generation).getD 0
    some (⟨slot, generation⟩,
      { slots := t.putSlot slot ⟨generation, some a⟩, free, count := t.count + 1 })
  | [] =>
    if t.slots.size < maxSlots then
      some (⟨t.slots.size.toUInt32, 0⟩,
        { slots := t.slots.push ⟨0, some a⟩, free := [], count := t.count + 1 })
    else
      none

/-- Puts a value in the place of the one under a current key. -/
def replace (t : SlotTable α) (key : SlotKey) (a : α) : SlotTable α :=
  if t.contains key then
    { t with slots := t.putSlot key.slot ⟨key.generation, some a⟩ }
  else
    t

/-- Takes out the value under a current key. -/
def remove? (t : SlotTable α) (key : SlotKey) : Option (α × SlotTable α) :=
  (t.get? key).map fun a =>
    (a, { slots := t.putSlot key.slot (Slot.emptied ⟨key.generation, some a⟩)
          free := key.slot :: t.free
          count := t.count - 1 })

/-- The numbers of the slots that hold a value satisfying `p`, in increasing order. -/
def slotsWhere (t : SlotTable α) (p : α → Bool) : List UInt32 :=
  (t.slots.toList.zipIdx.filter fun s => s.1.holds p).map fun s => s.2.toUInt32

/-- Takes out every value that satisfies `p`, in the order of the slots. The slots are
emptied in that order, so the last of them is the next to be reused. -/
def drain (t : SlotTable α) (p : α → Bool) : List α × SlotTable α :=
  let freed := t.slotsWhere p
  (t.slots.toList.filterMap fun s => s.value.filter p,
    { slots := t.slots.map fun s => if s.holds p then s.emptied else s
      free := freed.reverse ++ t.free
      count := t.count - freed.length })

end SlotTable

end RecordStore
