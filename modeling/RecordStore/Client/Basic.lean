import RecordStore.Engine.Contents
import RecordStore.Engine.Locks
import RecordStore.Settings.Connection
import RecordStore.Text.Quoted
/-!
# Clients — connections to the regions of an engine

A client opens connections. It keeps, for each connection, the queries and
locks that were obtained through it and not given back, and gives them back
when the connection is closed. The storage behind a client may be made to
fail: a plan says which of the field writes to come fail without effect,
and whether records can be deleted.
-/

namespace RecordStore

/-- What was obtained through a connection and not given back, in the order it was obtained. -/
structure Outstanding where
  queries : List QueryHandle := []
  locks : List LockToken := []
  deriving DecidableEq, Repr

/-- Which calls of a client fail before they reach the engine, and how. -/
structure FaultPlan where
  /-- Whether the field write with this number fails, counted from zero. -/
  failsWrite : Nat → Bool := fun _ => false
  /-- The failure of the field write with this number, if it fails. -/
  failure : Nat → Error := fun _ => .regionFull 8 0
  refusesDeletes : Bool := false

/-- An engine with the client's own bookkeeping. -/
structure Client where
  engine : Engine
  faults : FaultPlan := {}
  /-- The number of field writes since the plan was made. -/
  writes : Nat := 0
  outstanding : Directory ConnectionId Outstanding := {}

/-- What a client does: it may change its state, and it may fail. -/
abbrev Action (α : Type) := ExceptT ClientError (StateM Client) α

namespace Action

variable {α : Type}

/-- The action with the given outcome in each state. -/
def ofState (f : Client → Except ClientError α × Client) : Action α := ExceptT.mk f

/-- The outcome of an action in a state, and the state after it. -/
def outcome (action : Action α) (c : Client) : Except ClientError α × Client :=
  ExceptT.run action c

/-- Calls the engine for an answer that changes nothing. -/
def ask (question : Engine → Except Error α) : Action α :=
  ofState fun c => ((question c.engine).mapError .engine, c)

/-- Calls the engine for a change. -/
def change (call : Engine → Except Error α × Engine) : Action α :=
  ofState fun c =>
    let (a, engine) := call c.engine
    (a.mapError .engine, { c with engine })

/-- Fails as a check does. -/
def check (outcome : Except ClientError α) : Action α := ofState fun c => (outcome, c)

/-- Carries out an action, whether it fails or not. -/
def regardless (action : Action α) : Action Unit :=
  ofState fun c => (.ok (), (action.outcome c).2)

end Action

namespace Client

/-- What is outstanding on a connection. -/
def held (c : Client) (connection : ConnectionId) : Outstanding :=
  (c.outstanding.find? connection).getD {}

/-- The client with the outstanding things of a connection changed. -/
def changeHeld (c : Client) (connection : ConnectionId) (f : Outstanding → Outstanding) :
    Client :=
  { c with outstanding := c.outstanding.insert connection (f (c.held connection)) }

end Client

/-- An open connection. -/
structure Connection where
  handle : DbHandle
  settings : ConnectionSettings
  deriving DecidableEq, Repr

namespace Connection

/-- Changes what is outstanding on the connection. -/
def track (conn : Connection) (f : Outstanding → Outstanding) : Action Unit :=
  .ofState fun c => (.ok (), c.changeHeld conn.handle.connection f)

/-! ## Opening and closing -/

/-- Opens a connection with the settings. -/
def openWith (settings : ConnectionSettings) : Action Connection := do
  Action.check settings.validate
  let handle ← Action.change fun e =>
    e.openDatabase settings.name settings.size settings.isLocal
  return ⟨handle, settings⟩

/-- The engine after outstanding things were given back through a handle, as far as it takes
them. -/
def giveBack (db : DbHandle) (held : Outstanding) (e : Engine) : Engine :=
  let e := held.queries.foldl (fun e query => (e.freeQuery db query).2) e
  held.locks.foldl (fun e token => (e.endLock db token token.mode).2) e

/-- Closes the connection: gives back what is outstanding, the queries in the given order and
then the locks, and ends the attachment. A local region ends with it. -/
def closeIn (conn : Connection) (order : List QueryHandle) : Action Unit := do
  Action.ofState fun c =>
    (.ok (), { c with
      engine := giveBack conn.handle
        { c.held conn.handle.connection with queries := order } c.engine
      outstanding := c.outstanding.erase conn.handle.connection })
  Action.change fun e =>
    if conn.handle.isLocal then e.deleteLocal conn.handle else e.detach conn.handle

/-- Closes the connection, its queries in the order in which they were built. -/
def close (conn : Connection) : Action Unit :=
  .ofState fun c => (conn.closeIn (c.held conn.handle.connection).queries).outcome c

/-- Takes a shared region out of the registry. -/
def deleteDatabase (name : Option String) : Action Unit :=
  .change fun e => e.deleteDatabase name

/-! ## What a connection says -/

/-- The use of the region. -/
def stats (conn : Connection) : Action RegionStats := .ask fun e => e.stats conn.handle

/-- How diagnostics show the connection while it is open. -/
def inspect (conn : Connection) : String :=
  let handle := "DbHandle \x7b region: " ++ conn.handle.region.inspect ++ ", connection: " ++
    conn.handle.connection.inspect ++ ", local: " ++ toString conn.handle.isLocal ++ " \x7d"
  let name := match conn.settings.name with
    | some name => "Some(" ++ Text.quoted name ++ ")"
    | none => "None"
  let mapper := "MapperConfig \x7b fingerprint: " ++
    toString conn.settings.mapper.fingerprint ++ " \x7d"
  let settings := "ConnectionConfig \x7b name: " ++ name ++ ", size: " ++
    toString conn.settings.size ++ ", local: " ++ toString conn.settings.isLocal ++
    ", mapper: " ++ mapper ++ " \x7d"
  "Connection \x7b handle: " ++ handle ++ ", config: " ++ settings ++ ", closed: false \x7d"

end Connection

end RecordStore
