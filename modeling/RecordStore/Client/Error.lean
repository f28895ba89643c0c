import RecordStore.Error.Basic
/-!
# Client errors — failures of the engine, and the client's own

A client passes the failures of the engine on and adds those that it finds
before it calls the engine.
-/

namespace RecordStore

/-- Why a schema was refused. -/
inductive SchemaFault where
  | text (words : String)
  | declaredTwice (name : String)
  deriving DecidableEq

namespace SchemaFault

/-- The fault in words. -/
def message : SchemaFault → String
  | text words => words
  | declaredTwice name => s!"attribute '{name}' is declared twice"

end SchemaFault

/-- A failure reported by a client. -/
inductive ClientError where
  | engine (e : Error)
  | invalidConfig (fault : ConfigFault)
  /-- A query was given both a template record and conditions. -/
  | queryConflict
  | invalidSchema (typeName : String) (fault : SchemaFault)
  | io (fault : FileFault)
  deriving DecidableEq

namespace ClientError

/-- The code of the failure. -/
def code : ClientError → ErrorCode
  | engine e => e.code
  | invalidConfig _ => .invalidConfig
  | queryConflict => .invalidQuery
  | invalidSchema _ _ => .invalidArgument
  | io _ => .io

/-- The status a call with this failure returns. -/
def status (e : ClientError) : Int := e.code.status

/-- The failure in words. -/
def message : ClientError → String
  | engine e => e.message
  | invalidConfig fault => s!"invalid configuration: {fault.message}"
  | queryConflict => QueryFault.conflict.message
  | invalidSchema typeName fault => s!"invalid schema for {typeName}: {fault.message}"
  | io fault => s!"I/O error: {fault.message}"

/-- The name of the kind of failure: that of the code for a failure of the engine. -/
def kind : ClientError → String
  | engine e => e.code.name
  | invalidConfig _ => "Client.InvalidConfig"
  | queryConflict => "Client.QueryConflict"
  | invalidSchema _ _ => "Client.InvalidSchema"
  | io _ => "Client.Io"

/-- Whether the engine reported the failure. -/
def isEngine : ClientError → Bool
  | engine _ => true
  | _ => false

/-- Whether a handle was refused. -/
def isInvalidHandle (e : ClientError) : Bool := e.code = .invalidHandle

end ClientError

end RecordStore
