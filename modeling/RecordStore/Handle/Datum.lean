import RecordStore.Handle
/-!
# Handles as data — how handles are handed over

A handle is handed over as a structure with a named member for each of its
parts. It is read back from a structure that has at least these members, or
from a list of exactly their values in order. Every part must be there and
have its own kind, and a number must fit the width of its part: nothing is
converted.
-/

namespace RecordStore

/-- Data without a type of its own. -/
inductive Datum where
  | null
  | boolean (b : Bool)
  | integer (n : Int)
  /-- A number that is not an integer. -/
  | fraction
  | text (s : String)
  | list (items : List Datum)
  | composite (members : List (String × Datum))
  deriving Inhabited

namespace Datum

/-- The first member of a name. -/
def member? (name : String) : List (String × Datum) → Option Datum
  | [] => none
  | m :: rest => if m.1 = name then some m.2 else member? name rest

/-- The values of the named parts, in the order of the names. -/
def parts? (names : List String) : Datum → Option (List Datum)
  | list items => if items.length = names.length then some items else none
  | composite members => names.mapM fun name => member? name members
  | _ => none

/-- The truth value, where the datum is one. -/
def asBoolean? : Datum → Option Bool
  | boolean b => some b
  | _ => none

/-- The integer, where the datum is one from zero up to a bound, which it does not reach. -/
def asNatBelow? (bound : Nat) : Datum → Option Nat
  | integer n => if 0 ≤ n ∧ n < bound then some n.toNat else none
  | _ => none

/-- The number of 64 bits, where the datum is one. -/
def asWord64? (d : Datum) : Option UInt64 := (d.asNatBelow? UInt64.size).map Nat.toUInt64

/-- The number of 32 bits, where the datum is one. -/
def asWord32? (d : Datum) : Option UInt32 := (d.asNatBelow? UInt32.size).map Nat.toUInt32

/-- A number of 64 bits. -/
def ofWord64 (n : UInt64) : Datum := integer n.toNat

/-- A number of 32 bits. -/
def ofWord32 (n : UInt32) : Datum := integer n.toNat

end Datum

namespace LockMode

/-- The name of the mode in data. -/
def datumName : LockMode → String
  | shared => "Shared"
  | exclusive => "Exclusive"

/-- The mode of a name. -/
def ofDatumName? (name : String) : Option LockMode :=
  if name = shared.datumName then some shared
  else if name = exclusive.datumName then some exclusive
  else none

/-- The mode as data. -/
def toDatum (mode : LockMode) : Datum := .text mode.datumName

/-- The mode that data stand for: its name, alone or as the only member of a structure, with
nothing under it. -/
def ofDatum? : Datum → Option LockMode
  | .text name => ofDatumName? name
  | .composite [(name, .null)] => ofDatumName? name
  | _ => none

end LockMode

namespace DbHandle

/-- The handle as data. -/
def toDatum (db : DbHandle) : Datum :=
  .composite [("region", Datum.ofWord64 db.region.raw),
    ("connection", Datum.ofWord64 db.connection.raw), ("local", .boolean db.isLocal)]

/-- The handle that data stand for. -/
def ofDatum? (d : Datum) : Option DbHandle := do
  match ← d.parts? ["region", "connection", "local"] with
  | [region, connection, isLocal] =>
    return ⟨⟨← region.asWord64?⟩, ⟨← connection.asWord64?⟩, ← isLocal.asBoolean?⟩
  | _ => none

end DbHandle

namespace SlotKey

/-- An address in a region, under the region and the connection it was obtained through, as
data. -/
def toDatum (region : RegionId) (connection : ConnectionId) (key : SlotKey) : Datum :=
  .composite [("region", Datum.ofWord64 region.raw),
    ("connection", Datum.ofWord64 connection.raw), ("slot", Datum.ofWord32 key.slot),
    ("generation", Datum.ofWord32 key.generation)]

/-- The region, the connection and the address that data stand for. -/
def ofDatum? (d : Datum) : Option (RegionId × ConnectionId × SlotKey) := do
  match ← d.parts? ["region", "connection", "slot", "generation"] with
  | [region, connection, slot, generation] =>
    return (⟨← region.asWord64?⟩, ⟨← connection.asWord64?⟩,
      ⟨← slot.asWord32?, ← generation.asWord32?⟩)
  | _ => none

end SlotKey

namespace RecordHandle

/-- The handle as data. -/
def toDatum (rec : RecordHandle) : Datum := rec.key.toDatum rec.region rec.connection

/-- The handle that data stand for. -/
def ofDatum? (d : Datum) : Option RecordHandle :=
  (SlotKey.ofDatum? d).map fun (region, connection, key) => ⟨region, connection, key⟩

end RecordHandle

namespace QueryHandle

/-- The handle as data. -/
def toDatum (query : QueryHandle) : Datum := query.key.toDatum query.region query.connection

/-- The handle that data stand for. -/
def ofDatum? (d : Datum) : Option QueryHandle :=
  (SlotKey.ofDatum? d).map fun (region, connection, key) => ⟨region, connection, key⟩

end QueryHandle

namespace LockToken

/-- The token as data. -/
def toDatum (token : LockToken) : Datum :=
  .composite [("region", Datum.ofWord64 token.region.raw), ("id", Datum.ofWord64 token.id.raw),
    ("mode", token.mode.toDatum)]

/-- The token that data stand for. -/
def ofDatum? (d : Datum) : Option LockToken := do
  match ← d.parts? ["region", "id", "mode"] with
  | [region, id, mode] =>
    return ⟨⟨← region.asWord64?⟩, ⟨← id.asWord64?⟩, ← LockMode.ofDatum? mode⟩
  | _ => none

end LockToken

end RecordStore
