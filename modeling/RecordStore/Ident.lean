/-!
# Identifiers — of regions, connections and locks

Each kind of identifier is a 64-bit number of its own type, so that one
kind cannot stand for another. Zero is reserved: it names nothing.
-/

namespace RecordStore

/-- Names a region of an engine; a deleted region's identifier is not given out again. -/
structure RegionId where
  raw : UInt64
  deriving DecidableEq, Repr

/-- Names one attachment of a client to a region. -/
structure ConnectionId where
  raw : UInt64
  deriving DecidableEq, Repr

/-- Names one granted lock of a region. -/
structure LockId where
  raw : UInt64
  deriving DecidableEq, Repr

namespace RegionId

/-- Whether the identifier can name a region. -/
def isValid (id : RegionId) : Bool := id.raw != 0

/-- How messages show the identifier. -/
def text (id : RegionId) : String := toString id.raw

/-- How diagnostics show the identifier. -/
def inspect (id : RegionId) : String :=
  if id.isValid then s!"RegionId({id.text})" else "RegionId(INVALID)"

/-- The identifier given out after this one. -/
def next (id : RegionId) : RegionId := ⟨id.raw + 1⟩

end RegionId

namespace ConnectionId

/-- Whether the identifier can name a connection. -/
def isValid (id : ConnectionId) : Bool := id.raw != 0

/-- How messages show the identifier. -/
def text (id : ConnectionId) : String := toString id.raw

/-- How diagnostics show the identifier. -/
def inspect (id : ConnectionId) : String :=
  if id.isValid then s!"ConnectionId({id.text})" else "ConnectionId(INVALID)"

/-- The identifier given out after this one. -/
def next (id : ConnectionId) : ConnectionId := ⟨id.raw + 1⟩

end ConnectionId

namespace LockId

/-- Whether the identifier can name a lock. -/
def isValid (id : LockId) : Bool := id.raw != 0

/-- How messages show the identifier. -/
def text (id : LockId) : String := toString id.raw

/-- How diagnostics show the identifier; the reserved one is not marked. -/
def inspect (id : LockId) : String := s!"LockId({id.text})"

/-- The identifier given out after this one. -/
def next (id : LockId) : LockId := ⟨id.raw + 1⟩

end LockId

end RecordStore
