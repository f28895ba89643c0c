import RecordStore.Client.Error
/-!
# Connection settings — which region a connection opens, and how

A connection opens a shared region by name, or a local region, which has
none. Its settings also say whether the objects that it writes carry a
fingerprint of their layout.
-/

namespace RecordStore

/-- How objects are written and read. -/
structure MapperSettings where
  /-- Whether a record ends with the fingerprint of its layout. -/
  fingerprint : Bool := false
  deriving DecidableEq, Repr

/-- What a connection is opened with. -/
structure ConnectionSettings where
  /-- The shared region; none means the default of the engine. -/
  name : Option String := none
  /-- The size of a region that has to be made; 0 means the default of the engine. -/
  size : Nat := 0
  isLocal : Bool := false
  mapper : MapperSettings := {}
  deriving DecidableEq, Repr

namespace ConnectionSettings

/-- The settings for a local region. -/
def ofLocal (size : Nat) : ConnectionSettings := { size, isLocal := true }

/-- The settings for a shared region. -/
def ofShared (name : String) (size : Nat) : ConnectionSettings := { name := some name, size }

/-- Whether the name contains a zero character. -/
def nameHasNul (s : ConnectionSettings) : Bool :=
  s.name.any fun name => name.toList.contains '\x00'

/-- Fails unless a connection can be opened with the settings. -/
def validate (s : ConnectionSettings) : Except ClientError Unit :=
  if s.isLocal && s.name.isSome then .error (.invalidConfig .namedLocal)
  else if s.nameHasNul then .error (.invalidConfig .nulInName)
  else if s.size ≠ 0 ∧ s.size < Size.minRegion then
    .error (.invalidConfig (.sizeTooSmall Size.minRegion))
  else .ok ()

end ConnectionSettings

end RecordStore
