import RecordStore.Error.Code
import RecordStore.Field.Basic
import RecordStore.Handle
import RecordStore.Text.Hex
/-!
# Errors — why a call fails, and in what words

An error is a cause: a constructor for each kind of failure, with the
particulars that its message names. Failures that one kind has several
reasons for carry the reason as a value of its own type, where `text` is a
reason given in words. The wording stands in one function for each type.
-/

namespace RecordStore

/-- Why the engine itself failed. -/
inductive InternalFault where
  | text (words : String)
  /-- A slot table has all its slots and none is empty. -/
  | slotsExhausted
  deriving DecidableEq

/-- Why an argument was refused. -/
inductive ArgumentFault where
  | text (words : String)
  | regionTooSmall (size least : Nat)
  | recordTooLong (length most : Nat)
  | nulInString
  /-- A shared region was to be released as a local one. -/
  | releasedAsLocal
  /-- A local region was to be released as a shared one. -/
  | releasedAsShared
  deriving DecidableEq

/-- Why settings were refused. -/
inductive ConfigFault where
  | text (words : String)
  | emptyRegionName
  | defaultBelowMinimum
  | noFields
  | namedLocal
  | nulInName
  | sizeTooSmall (least : Nat)
  | unreadable
  | unwritable
  deriving DecidableEq

/-- Why a file could not be read. -/
inductive FileFault where
  | text (words : String)
  | missing
  | notUtf8
  deriving DecidableEq

/-- Why a handle was refused. -/
inductive HandleFault where
  | text (words : String)
  | notAttached
  | otherAttachment
  | foreignRecord
  | foreignQuery
  | foreignToken
  | recordGone
  | queryFreed
  | queryOfAnother
  deriving DecidableEq

/-- Why a query was refused. -/
inductive QueryFault where
  | text (words : String)
  /-- A template record and conditions were both given. -/
  | conflict
  /-- A comparator with no bit or an unknown one. -/
  | comparator (bits : UInt32)
  deriving DecidableEq

/-- Why a lock could not be released. -/
inductive LockFault where
  | text (words : String)
  | notHeld (id : LockId) (mode : LockMode)
  /-- A token of one mode was given back as one of another. -/
  | wrongMode (granted released : LockMode)
  deriving DecidableEq

/-- How a record differs from the layout it is read with. -/
inductive MappingFault where
  | text (words : String)
  | length (actual expected : Nat)
  | fingerprint (stored expected : Int32)
  deriving DecidableEq

/-- A failure reported by the engine, or found by the client on its behalf. -/
inductive Error where
  | internal (fault : InternalFault)
  | invalidArgument (fault : ArgumentFault)
  | invalidConfig (fault : ConfigFault)
  | io (fault : FileFault)
  | regionNotFound (name : String)
  | regionFull (requested available : Nat)
  | invalidHandle (kind : HandleKind) (fault : HandleFault)
  | fieldOutOfRange (index length : Nat)
  | typeMismatch (index : Nat) (expected found : FieldType)
  | fieldUnset (index : Nat)
  | invalidQuery (fault : QueryFault)
  | lockFailed (fault : LockFault)
  | mappingMismatch (typeName : String) (fault : MappingFault)
  deriving DecidableEq

namespace InternalFault

/-- The fault in words. -/
def message : InternalFault → String
  | text words => words
  | slotsExhausted => "slot table exhausted"

end InternalFault

namespace ArgumentFault

/-- The fault in words. -/
def message : ArgumentFault → String
  | text words => words
  | regionTooSmall size least => s!"region size {size} is below the minimum of {least}"
  | recordTooLong length most => s!"record length {length} exceeds the maximum of {most}"
  | nulInString => "string fields cannot contain NUL characters"
  | releasedAsLocal => "delete_local_database called on a shared region"
  | releasedAsShared => "a local region is released with delete_local_database"

end ArgumentFault

namespace ConfigFault

/-- The fault in words. -/
def message : ConfigFault → String
  | text words => words
  | emptyRegionName => "default_region_name must not be empty"
  | defaultBelowMinimum => "default_region_size must be at least min_region_size"
  | noFields => "max_field_count must be positive"
  | namedLocal => "local regions are anonymous and cannot be named"
  | nulInName => "region name cannot contain NUL characters"
  | sizeTooSmall least => s!"size must be 0 (default) or at least {least} bytes"
  | unreadable => "failed to parse config"
  | unwritable => "failed to serialize config"

end ConfigFault

namespace FileFault

/-- The fault in words. -/
def message : FileFault → String
  | text words => words
  | missing => "No such file or directory (os error 2)"
  | notUtf8 => "stream did not contain valid UTF-8"

end FileFault

namespace HandleFault

/-- The fault in words. -/
def message : HandleFault → String
  | text words => words
  | notAttached => "connection is not attached"
  | otherAttachment => "handle does not match its attachment"
  | foreignRecord => "record handle was issued to another connection"
  | foreignQuery => "query handle was issued to another connection"
  | foreignToken => "lock token belongs to another region"
  | recordGone => "record no longer exists"
  | queryFreed => "query was freed"
  | queryOfAnother => "query belongs to another connection"

end HandleFault

namespace QueryFault

/-- The fault in words. -/
def message : QueryFault → String
  | text words => words
  | conflict => "a query takes either a template record or a condition list, not both"
  | comparator bits => s!"invalid comparator value {Text.hex bits.toNat}"

end QueryFault

namespace LockFault

/-- The fault in words. -/
def message : LockFault → String
  | text words => words
  | notHeld id mode => s!"lock {id.text} is not held in mode {mode.text}"
  | wrongMode granted released => s!"{granted.text} token released as {released.text}"

end LockFault

namespace MappingFault

/-- The fault in words. -/
def message : MappingFault → String
  | text words => words
  | length actual expected => s!"record has {actual} fields, schema expects {expected}"
  | fingerprint stored expected =>
    s!"fingerprint {Text.hexWord stored.toUInt32} does not match " ++
      s!"schema fingerprint {Text.hexWord expected.toUInt32}"

end MappingFault

namespace Error

/-- The code of the failure. -/
def code : Error → ErrorCode
  | internal _ => .internal
  | invalidArgument _ => .invalidArgument
  | invalidConfig _ => .invalidConfig
  | io _ => .io
  | regionNotFound _ => .regionNotFound
  | regionFull _ _ => .regionFull
  | invalidHandle _ _ => .invalidHandle
  | fieldOutOfRange _ _ => .fieldOutOfRange
  | typeMismatch _ _ _ => .typeMismatch
  | fieldUnset _ => .fieldUnset
  | invalidQuery _ => .invalidQuery
  | lockFailed _ => .lockFailed
  | mappingMismatch _ _ => .mappingMismatch

/-- The status a call with this failure returns. -/
def status (e : Error) : Int := e.code.status

/-- The failure in words. -/
def message : Error → String
  | internal fault => s!"internal error: {fault.message}"
  | invalidArgument fault => s!"invalid argument: {fault.message}"
  | invalidConfig fault => s!"invalid configuration: {fault.message}"
  | io fault => s!"I/O error: {fault.message}"
  | regionNotFound name => s!"database '{name}' not found"
  | regionFull requested available =>
    s!"database full: requested {requested} bytes, {available} available"
  | invalidHandle kind fault => s!"invalid {kind.name} handle: {fault.message}"
  | fieldOutOfRange index length =>
    s!"field index {index} out of range for record of length {length}"
  | typeMismatch index expected found =>
    s!"type mismatch at field {index}: expected {expected.name}, found {found.name}"
  | fieldUnset index => s!"field {index} is unset"
  | invalidQuery fault => s!"invalid query: {fault.message}"
  | lockFailed fault => s!"lock error: {fault.message}"
  | mappingMismatch typeName fault => s!"mapping mismatch for {typeName}: {fault.message}"

/-- Whether the caller can go on by asking differently: through another accessor, with a
smaller value or at a valid index. -/
def isRecoverable (e : Error) : Bool :=
  match e.code with
  | .typeMismatch | .fieldUnset | .fieldOutOfRange | .regionFull => true
  | _ => false

/-- The refusal of a record handle. -/
def badRecord (fault : HandleFault) : Error := .invalidHandle .record fault

/-- The refusal of a query handle. -/
def badQuery (fault : HandleFault) : Error := .invalidHandle .query fault

/-- The refusal of a database handle. -/
def badDatabase (fault : HandleFault) : Error := .invalidHandle .database fault

end Error

/-- An answer put in other words, with the state after it. -/
def reword {σ α β : Type} (f : α → β) (a : Except Error α × σ) : Except Error β × σ :=
  (a.1.map f, a.2)

end RecordStore
