import RecordStore.Client.Locks
import RecordStore.Client.Mapper
import RecordStore.Session.Entry
import RecordStore.Session.Step
/-!
# Carrying out commands — variables and the client

A command looks its variables up, the connection first, and is refused if
one is missing. A variable whose thing is given up by the command is gone
afterwards, even if the command fails. Only success binds a result, and an
absent one is not bound. A command that panics breaks the whole session off.
-/

namespace RecordStore

/-- A client with the variables of a session. -/
structure Session where
  client : Client
  connections : Directory String Connection := {}
  records : Directory String RecordHandle := {}
  queries : Directory String Query := {}
  tokens : Directory String LockToken := {}
  /-- The connections that steps under a lock or in a traversal use, the innermost first. -/
  busy : List String := []
  /-- The connection whose region is watched. -/
  watch : Option String := none
  /-- The panic that broke the session off. -/
  panic : Option Panic := none

/-- A part of a command: it may change the session, and it may end the command. -/
abbrev Procedure (α : Type) := ExceptT Outcome (StateM Session) α

namespace Procedure

variable {α : Type}

/-- The procedure with the given outcome in each session. -/
def ofState (f : Session → Except Outcome α × Session) : Procedure α := ExceptT.mk f

/-- Carries out an action of the client. -/
def act (action : Action α) : Procedure α :=
  ofState fun s =>
    let (result, client) := action.outcome s.client
    (result.mapError .failed, { s with client })

/-- Goes on with the result of an attempt; a panic breaks the session off. -/
def settle : Attempt α → Procedure α
  | .done a => return a
  | .panicked p => ofState fun s => (.error (.brokeOff p.message), { s with panic := some p })

/-- Changes the session. -/
def update (f : Session → Session) : Procedure Unit := ofState fun s => (.ok (), f s)

/-- Ends the command. -/
def refuse (r : Refusal) : Procedure α := throw (.refused r)

/-- Looks something up in the session, or refuses. -/
def find (look : Session → Option α) (r : Refusal) : Procedure α :=
  ofState fun s =>
    match look s with
    | some a => (.ok a, s)
    | none => (.error (.refused r), s)

/-! ## Variables -/

/-- The connection of a name. -/
def connection (name : String) : Procedure Connection :=
  find (fun s => s.connections.find? name) (.noVariable name)

/-- The record of a name. -/
def record (name : String) : Procedure RecordHandle :=
  find (fun s => s.records.find? name) (.noVariable name)

/-- Takes the connection of a name out of the session, unless it is in use. -/
def takeConnection (name : String) : Procedure Connection := do
  let conn ← connection name
  find (fun s => if s.busy.contains name then none else some ()) .inUse
  update fun s => { s with connections := s.connections.erase name }
  return conn

/-- Takes the record of a name out of the session. -/
def takeRecord (name : String) : Procedure RecordHandle := do
  let target ← find (fun s => s.records.find? name) .noRecord
  update fun s => { s with records := s.records.erase name }
  return target

/-- Takes the query of a name out of the session. -/
def takeQuery (name : String) : Procedure Query := do
  let q ← find (fun s => s.queries.find? name) .noQuery
  update fun s => { s with queries := s.queries.erase name }
  return q

/-- Takes the lock token of a name out of the session. -/
def takeToken (name : String) : Procedure LockToken := do
  let token ← find (fun s => s.tokens.find? name) .noToken
  update fun s => { s with tokens := s.tokens.erase name }
  return token

/-- Binds a record and shows it. -/
def bindRecord (result : Option String) (rec : RecordHandle) : Procedure Payload := do
  if let some name := result then
    update fun s => { s with records := s.records.insert name rec }
  return .text rec.text

/-- Binds a record, if there is one, and shows it. -/
def bindRecordOrEnd (result : Option String) : Option RecordHandle → Procedure Payload
  | some rec => bindRecord result rec
  | none => return .nothing

/-- Binds a token, if there is one, and shows it. -/
def bindToken (result : Option String) : Option LockToken → Procedure Payload
  | some token => do
    if let some name := result then
      update fun s => { s with tokens := s.tokens.insert name token }
    return .text token.text
  | none => return .nothing

/-- Binds a connection and shows its handle. A connection that had the name is closed. -/
def bindConnection (result : Option String) (conn : Connection) : Procedure Payload := do
  if let some name := result then
    let before := fun s : Session => s.connections.find? name
    ofState fun s =>
      match before s with
      | some old => ExceptT.run (act old.close.regardless) s
      | none => (.ok (), s)
    update fun s => { s with connections := s.connections.insert name conn }
  return .text conn.handle.text

/-! ## Rows -/

/-- The fields of a record. -/
def fieldsOf (conn : Connection) (rec : RecordHandle) : Action (List Field) := do
  let length ← conn.length rec
  (List.range length).mapM fun index => conn.get rec index

/-- The row of a record in a state of the client. -/
def rowOf (c : Client) (conn : Connection) (rec : RecordHandle) : Row :=
  match ((fieldsOf conn rec).outcome c).1 with
  | .ok fields => .fields rec fields
  | .error e => .failed e

/-- The rows of all records that a traversal visits, as far as the fuel goes; a failure of
the traversal is the last of them. -/
def rowsFrom (c : Client) (conn : Connection) : Nat → Traversal → List Row
  | 0, _ => []
  | fuel + 1, t =>
    match t.next c.engine conn.handle with
    | (none, _) => []
    | (some (.error e), _) => [.failed (.engine e)]
    | (some (.ok rec), t) => rowOf c conn rec :: rowsFrom c conn fuel t

/-- The rows of all records. There are no more visits than records, and one that ends the
traversal. -/
def allRows (c : Client) (conn : Connection) : List Row :=
  let count := match c.engine.stats conn.handle with
    | .ok stats => stats.recordCount
    | .error _ => 0
  rowsFrom c conn (count + 1) .start

/-- Fetches until the rows of a query run out or a fetch fails, as far as the fuel goes. -/
def drainFrom (conn : Connection) : Nat → Query → Client → List Row × Query × Client
  | 0, q, c => ([], q, c)
  | fuel + 1, q, c =>
    match (conn.fetch q).outcome c with
    | (.error e, c) => ([.failed e], q, c)
    | (.ok (none, q), c) => ([], q, c)
    | (.ok (some rec, q), c) =>
      let row := rowOf c conn rec
      let (rows, q, c) := drainFrom conn fuel q c
      (row :: rows, q, c)

/-- The number of rows that a query may still give. -/
def rowsLeft (c : Client) (conn : Connection) (q : Query) : Nat :=
  match c.engine.regionOf? conn.handle.connection with
  | some r => ((r.queries.get? q.handle.key).map fun cursor => cursor.remaining.length).getD 0
  | none => 0

/-! ## Queries -/

/-- Puts a query together. -/
def request (parts : List QueryPart) : Procedure QueryRequest :=
  parts.foldlM (fun request part => do
    match part with
    | .template name =>
      let target ← record name
      return { request with template := some target }
    | .conditions cs => return { request with conditions := request.conditions ++ cs }
    | .limit n => return { request with limit := n }) {}

/-- Fetches from the query of a name, and puts the query back as it is afterwards. -/
def fetch (conn : Connection) (name : String) (q : Query) :
    Procedure (Option RecordHandle) := do
  let (row, q) ← act (conn.fetch q)
  update fun s => { s with queries := s.queries.insert name q }
  return row

/-! ## Locks and objects -/

/-- Refuses to wait for a lock. -/
def mustNotWait (db : DbHandle) (mode : LockMode) : Procedure Unit :=
  find (fun s => if s.client.engine.mustWait db mode then none else some ()) .wouldBlock

/-- The schema of a type. -/
def schemaOf (type : TupleType) : Procedure (Schema (Array Int32)) :=
  act (Action.check type.schema?)

/-- Calls the engine, unless the call is for a lock and would wait. -/
def callEngine (c : Call) : Procedure Payload := do
  if let .startLock db mode := c then
    mustNotWait db mode
  match ← act (Action.change fun e => e.perform c) with
  | .panicked p => settle (.panicked p)
  | reply => return .reply reply

/-! ## Commands -/

/-- The plan under which so many field writes succeed, or all. -/
def faultPlan (writes : Option Nat) (refusesDeletes : Bool) : FaultPlan where
  failsWrite n := writes.any fun limit => limit ≤ n
  refusesDeletes

/-- Whether the fingerprint is used: as asked for, or else as the connection is set up. -/
def fingerprintChoice (conn : Connection) (choice : Option Bool) : Bool :=
  choice.getD conn.settings.mapper.fingerprint

/-- Carries out a command. -/
def ofCommand : Command → Procedure Payload
  | .openWith settings result => do bindConnection result (← act (Connection.openWith settings))
  | .close conn => do
    let conn ← takeConnection conn
    act conn.close
    return .done
  | .drop conn => do
    let conn ← takeConnection conn
    act conn.close.regardless
    return .done
  | .deleteDatabase name => do
    act (Connection.deleteDatabase name)
    return .done
  | .stats conn => do
    let conn ← connection conn
    return .stats (← act conn.stats)
  | .info conn => return .connection (← connection conn)
  | .faults writes refusesDeletes => do
    update fun s =>
      { s with client := { s.client with faults := faultPlan writes refusesDeletes, writes := 0 } }
    return .done
  | .create conn length result => do
    let conn ← connection conn
    bindRecord result (← settle (← act (conn.create length)))
  | .first conn result => do
    let conn ← connection conn
    bindRecordOrEnd result (← act conn.first)
  | .next conn rec result => do
    let conn ← connection conn
    let target ← record rec
    bindRecordOrEnd result (← act (conn.next target))
  | .delete conn rec => do
    let conn ← connection conn
    let target ← takeRecord rec
    act (conn.delete target)
    return .done
  | .length conn rec => do
    let conn ← connection conn
    let target ← record rec
    return .number (← act (conn.length target))
  | .same a b => do
    let a ← record a
    let b ← record b
    return .truth (a = b)
  | .set conn rec index value => do
    let conn ← connection conn
    let target ← record rec
    act (conn.set target index value)
    return .done
  | .get conn rec index => do
    let conn ← connection conn
    let target ← record rec
    return .field (← act (conn.get target index))
  | .getInt conn rec index => do
    let conn ← connection conn
    let target ← record rec
    return .field (some (.int (← act (conn.getInt target index))))
  | .getString conn rec index => do
    let conn ← connection conn
    let target ← record rec
    return .field (some (.string (← act (conn.getString target index))))
  | .getBlob conn rec index => do
    let conn ← connection conn
    let target ← record rec
    return .field (some (.blob (← act (conn.getBlob target index))))
  | .typeOf conn rec index => do
    let conn ← connection conn
    let target ← record rec
    return .type (← act (conn.typeOf target index))
  | .dump conn => do
    let conn ← connection conn
    return .rows (allRows (← get).client conn)
  | .buildQuery conn parts result => do
    let conn ← connection conn
    let q ← act (conn.buildQuery (← request parts))
    if let some name := result then
      update fun s => { s with queries := s.queries.insert name q }
    return .text q.text
  | .fetch conn query result => do
    let conn ← connection conn
    let q ← find (fun s => s.queries.find? query) .noQuery
    bindRecordOrEnd result (← fetch conn query q)
  | .drain conn query => do
    let conn ← connection conn
    let q ← find (fun s => s.queries.find? query) .noQuery
    ofState fun s =>
      let (rows, q, client) := drainFrom conn (rowsLeft s.client conn q + 1) q s.client
      (.ok (.rows rows), { s with client, queries := s.queries.insert query q })
  | .queryInfo query => do
    let q ← find (fun s => s.queries.find? query) (.noVariable query)
    return .query q
  | .freeQuery conn query => do
    let conn ← connection conn
    let q ← takeQuery query
    act (conn.freeQuery q)
    return .done
  | .startLock conn mode result => do
    let conn ← connection conn
    mustNotWait conn.handle mode
    bindToken result (← act (conn.startLock mode))
  | .tryLock conn mode result => do
    let conn ← connection conn
    bindToken result (← act (conn.tryLock mode))
  | .endLock conn token => do
    let conn ← connection conn
    let token ← takeToken token
    act (conn.endLock token)
    return .done
  | .writeObject conn type values choice result => do
    let conn ← connection conn
    let s ← schemaOf type
    let written ← act (conn.writeWith s (fingerprintChoice conn choice) values)
    bindRecord result (← settle written)
  | .readObject conn type rec choice => do
    let conn ← connection conn
    let target ← record rec
    let s ← schemaOf type
    return .integers (← act (conn.readWith s (fingerprintChoice conn choice) target))
  | .call c => callEngine c

end Procedure

namespace Command

/-- The query that the entry of a command shows. -/
def shownQuery : Command → Option String
  | .fetch _ query _ => some query
  | .drain _ query => some query
  | _ => none

end Command

namespace Session

/-- The outcome of a command, with the session after it. -/
def perform (s : Session) (c : Command) : Outcome × Session :=
  match ExceptT.run (Procedure.ofCommand c) s with
  | (.ok p, s) => (.ok p, s)
  | (.error outcome, s) => (outcome, s)

/-- Whether the outcome is a refusal. -/
def isRefusal : Outcome → Bool
  | .refused _ => true
  | _ => false

/-- The use of the watched region: of the one that the watched connection has now. -/
def usage (s : Session) : Option (Option RegionStats) :=
  s.watch.map fun name =>
    (s.connections.find? name).bind fun conn => (s.client.engine.stats conn.handle).toOption

/-- Carries out a command and makes its entry. -/
def enter (s : Session) (c : Command) : Entry × Session :=
  let (outcome, s) := s.perform c
  let query := if isRefusal outcome then none else c.shownQuery.bind s.queries.find?
  (.command outcome query s.usage, s)

end Session

end RecordStore
