import RecordStore.Lock.Basic
import RecordStore.Query.Cursor
import RecordStore.Query.Plan
/-!
# Regions — records under a capacity

A region holds records, each of a fixed number of fields, and the queries
built over them. Records and the values in them take space, which the
capacity of the region bounds; queries take memory of their own, which
nothing bounds. A region is traversed in the order in which its records
were created, whichever slots they lie in.
-/

namespace RecordStore

/-- A live record: its place in the order of creation, and its fields. -/
structure Record where
  seq : Nat
  fields : Array Field
  deriving DecidableEq

namespace Record

/-- What a record takes: the charge of its creation, and what its values take outside their
field words. -/
def size (rec : Record) : Nat :=
  Size.record rec.fields.size + rec.fields.foldl (fun bytes f => bytes + f.storedSize) 0

end Record

/-- A region: its identity and capacity, its lock, its records, and the queries over them. -/
structure Region where
  id : RegionId
  /-- The name of a shared region; a local region has none. -/
  name : Option String
  /-- The most bytes that records and their values may take together. -/
  capacity : Nat
  lock : RegionLock := {}
  /-- The number of connections attached to the region. -/
  attached : Nat := 0
  records : SlotTable Record := {}
  /-- The slots of the live records with their sequence numbers, oldest record first. -/
  order : List (Nat × UInt32) := []
  /-- The sequence number of the next record. -/
  nextSeq : Nat := 0
  queries : SlotTable Cursor := {}
  /-- Bytes taken by records and their values. -/
  used : Nat := 0
  /-- Bytes held by live queries. -/
  queryBytes : Nat := 0

namespace Region

/-- A region as it is made, without records, queries or anyone attached. -/
def fresh (id : RegionId) (name : Option String) (capacity : Nat) : Region :=
  { id, name, capacity }

/-- Whether the region is private to the connection that made it. -/
def isLocal (r : Region) : Bool := r.name.isNone

/-! ## Space -/

/-- Bytes still free. -/
def available (r : Region) : Nat := r.capacity - r.used

/-- Takes bytes, if they are free. -/
def charge (r : Region) (bytes : Nat) : Except Error Unit × Region :=
  if r.available < bytes then
    (.error (.regionFull bytes r.available), r)
  else
    (.ok (), { r with used := r.used + bytes })

/-- Gives bytes back. -/
def refund (r : Region) (bytes : Nat) : Region := { r with used := r.used - bytes }

/-- Takes or gives back the difference when something of one size makes place for something
of another. -/
def recharge (r : Region) (old new : Nat) : Except Error Unit × Region :=
  if old < new then r.charge (new - old) else (.ok (), r.refund (old - new))

/-! ## Records -/

/-- The record under a key. -/
def record (r : Region) (key : SlotKey) : Except Error Record :=
  match r.records.get? key with
  | some rec => .ok rec
  | none => .error (.badRecord .recordGone)

/-- Creates a record of unset fields, behind all others. The charge is given back where the
record finds no slot. Its fields lie in one block of memory; where that would be too large, the
creation is broken off after the record was charged for, and the charge stays. -/
def create (r : Region) (length : Nat) : Except Error (Attempt SlotKey) × Region :=
  match Size.recordWord length with
  | .panicked p => (.ok (.panicked p), r)
  | .done size =>
    match r.charge size with
    | (.error err, r) => (.error err, r)
    | (.ok (), charged) =>
      if Size.maxBlock < length * Size.fieldCell then
        (.ok (.panicked .capacityOverflow), charged)
      else
        match charged.records.insert? ⟨charged.nextSeq, Array.replicate length none⟩ with
        | none => (.error (.internal .slotsExhausted), charged.refund size)
        | some (key, records) =>
          (.ok (.done key), { charged with
            records
            order := charged.order ++ [(charged.nextSeq, key.slot)]
            nextSeq := charged.nextSeq + 1 })

/-- The key of the record that an entry of the order stands for. -/
def keyOf? (r : Region) (entry : Nat × UInt32) : Option SlotKey := r.records.keyAt? entry.2

/-- The oldest record. -/
def first (r : Region) : Option SlotKey := r.order.head?.bind r.keyOf?

/-- The record created next after a given one, among those that are live. -/
def next (r : Region) (key : SlotKey) : Except Error (Option SlotKey) :=
  (r.record key).map fun rec => (r.order.find? fun e => rec.seq < e.1).bind r.keyOf?

/-- Deletes a record and gives back all it took. -/
def delete (r : Region) (key : SlotKey) : Except Error Unit × Region :=
  match r.records.remove? key with
  | none => (.error (.badRecord .recordGone), r)
  | some (rec, records) =>
    let removed := { r with records, order := r.order.filter fun e => e.1 ≠ rec.seq }
    (.ok (), removed.refund rec.size)

/-- The number of fields of a record. -/
def length (r : Region) (key : SlotKey) : Except Error Nat :=
  (r.record key).map fun rec => rec.fields.size

/-! ## Fields -/

/-- A field of a record. -/
def get (r : Region) (key : SlotKey) (index : Nat) : Except Error Field := do
  let entry ← r.record key
  match entry.fields[index]? with
  | some field => .ok field
  | none => .error (.fieldOutOfRange index entry.fields.size)

/-- Puts a value into a field of a record, whatever it was before. -/
def write (r : Region) (key : SlotKey) (index : Nat) (value : FieldValue) : Region :=
  match r.records.get? key with
  | some rec =>
    let fields := rec.fields.setIfInBounds index (some value)
    { r with records := r.records.replace key { rec with fields } }
  | none => r

/-- Writes a field. Only the difference to what the field took before is charged. -/
def set (r : Region) (key : SlotKey) (index : Nat) (value : FieldValue) :
    Except Error Unit × Region :=
  match r.get key index with
  | .error err => (.error err, r)
  | .ok old =>
    match r.recharge old.storedSize value.storedSize with
    | (.error err, r) => (.error err, r)
    | (.ok (), charged) => (.ok (), charged.write key index value)

end Region

end RecordStore
