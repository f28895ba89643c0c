import RecordStore.Error.Basic
import RecordStore.Size
/-!
# Engine settings — limits and defaults of an engine

The settings bound what an engine accepts and fill in what a call leaves
open: the region of a connection that names none, and the size of a region
that asks for none.
-/

namespace RecordStore

/-- What an engine is set up with. -/
structure EngineSettings where
  /-- The region of a connection that names none. -/
  defaultRegionName : String := "1000"
  /-- The capacity of a region that asks for none. -/
  defaultRegionSize : Nat := Size.defaultRegion
  /-- The least capacity of a region. -/
  minRegionSize : Nat := Size.minRegion
  /-- The most fields of a record. -/
  maxFieldCount : Nat := Size.maxFieldCount
  deriving DecidableEq, Repr

namespace EngineSettings

/-- The capacity that a request for a size comes to; 0 asks for the default. -/
def effectiveSize (s : EngineSettings) (requested : Nat) : Nat :=
  if requested = 0 then s.defaultRegionSize else requested

/-- Fails unless an engine can work with the settings. -/
def validate (s : EngineSettings) : Except Error Unit :=
  if s.defaultRegionName.isEmpty then .error (.invalidConfig .emptyRegionName)
  else if s.defaultRegionSize < s.minRegionSize then .error (.invalidConfig .defaultBelowMinimum)
  else if s.maxFieldCount = 0 then .error (.invalidConfig .noFields)
  else .ok ()

/-- The name that a call means: none and the empty one mean the default. -/
def effectiveName (s : EngineSettings) : Option String → String
  | some name => if name.isEmpty then s.defaultRegionName else name
  | none => s.defaultRegionName

end EngineSettings

end RecordStore
