/-!
# Error codes — the numbers of the failures

Every failure has a code. The high byte of its number is its category, and
the status of a failing call is the negated number; success is status zero.
-/

namespace RecordStore

/-- The kind of a failure, stable across versions. -/
inductive ErrorCode where
  | internal
  | invalidArgument
  | invalidConfig
  | io
  | regionNotFound
  | regionFull
  | invalidHandle
  | fieldOutOfRange
  | typeMismatch
  | fieldUnset
  | invalidQuery
  | lockFailed
  | mappingMismatch
  deriving DecidableEq, Repr

namespace ErrorCode

/-- All codes, in increasing order of their numbers. -/
def all : List ErrorCode :=
  [internal, invalidArgument, invalidConfig, io, regionNotFound, regionFull, invalidHandle,
    fieldOutOfRange, typeMismatch, fieldUnset, invalidQuery, lockFailed, mappingMismatch]

/-- The number of the code. -/
def number : ErrorCode → Nat
  | internal => 0x0001
  | invalidArgument => 0x0002
  | invalidConfig => 0x0003
  | io => 0x0004
  | regionNotFound => 0x0100
  | regionFull => 0x0101
  | invalidHandle => 0x0200
  | fieldOutOfRange => 0x0300
  | typeMismatch => 0x0301
  | fieldUnset => 0x0302
  | invalidQuery => 0x0400
  | lockFailed => 0x0500
  | mappingMismatch => 0x0600

/-- The name of the code. -/
def name : ErrorCode → String
  | internal => "Internal"
  | invalidArgument => "InvalidArgument"
  | invalidConfig => "InvalidConfig"
  | io => "Io"
  | regionNotFound => "RegionNotFound"
  | regionFull => "RegionFull"
  | invalidHandle => "InvalidHandle"
  | fieldOutOfRange => "FieldOutOfRange"
  | typeMismatch => "TypeMismatch"
  | fieldUnset => "FieldUnset"
  | invalidQuery => "InvalidQuery"
  | lockFailed => "LockFailed"
  | mappingMismatch => "MappingMismatch"

/-- The status a call with this failure returns. -/
def status (code : ErrorCode) : Int := -(code.number : Int)

/-- The status a call without a failure returns. -/
def okStatus : Int := 0

/-- The name of the category, read from the high byte of the number. -/
def category (code : ErrorCode) : String :=
  match code.number / 256 with
  | 0 => "General"
  | 1 => "Region"
  | 2 => "Handle"
  | 3 => "Field"
  | 4 => "Query"
  | 5 => "Lock"
  | 6 => "Mapping"
  | _ => "Unknown"

/-- The list of all codes leaves none out. -/
theorem mem_all (code : ErrorCode) : code ∈ all := by cases code <;> decide

/-- A failing status is never the status of success. -/
theorem status_neg (code : ErrorCode) : code.status < okStatus := by cases code <;> decide

end ErrorCode

end RecordStore
