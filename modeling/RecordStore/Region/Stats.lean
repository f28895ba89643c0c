import RecordStore.Region.Basic
/-!
# Region statistics

What a connection can learn about the use of its region.
-/

namespace RecordStore

/-- The use of a region at one moment. -/
structure RegionStats where
  region : RegionId
  name : Option String
  isLocal : Bool
  capacity : Nat
  used : Nat
  queryBytes : Nat
  recordCount : Nat
  queryCount : Nat
  attached : Nat
  deriving DecidableEq

namespace RegionStats

/-- Bytes still free. -/
def free (s : RegionStats) : Nat := s.capacity - s.used

/-- The statistics in one line. -/
def text (s : RegionStats) : String :=
  let name := s.name.getD "local"
  s!"region {s.region.text} ({name}): {s.used}/{s.capacity} bytes, " ++
    s!"{s.recordCount} records, {s.queryCount} queries ({s.queryBytes} bytes), " ++
    s!"{s.attached} attached"

end RegionStats

namespace Region

/-- The statistics of the region as it is. -/
def stats (r : Region) : RegionStats where
  region := r.id
  name := r.name
  isLocal := r.isLocal
  capacity := r.capacity
  used := r.used
  queryBytes := r.queryBytes
  recordCount := r.records.count
  queryCount := r.queries.count
  attached := r.attached

end Region

end RecordStore
