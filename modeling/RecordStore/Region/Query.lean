import RecordStore.Region.Basic
/-!
# Queries over a region

A query is answered once, when it is built: the rows that match then are
remembered by key, and later changes to the records change neither which
rows these are nor their order. A fetch passes over a row whose record is
gone. A query belongs to the connection that built it.
-/

namespace RecordStore

namespace Region

/-- Whether the record under a key matches a plan. -/
def meets (r : Region) (plan : QueryPlan) (key : SlotKey) : Bool :=
  (r.records.get? key).any fun rec => plan.accepts rec.fields

/-- Goes through entries of the order and adds the keys of the records that match to the rows
found so far, until there are as many rows as the limit allows. The limit 0 allows any number. -/
def collect (r : Region) (plan : QueryPlan) (limit : Nat) (rows : Array SlotKey) :
    List (Nat × UInt32) → Array SlotKey
  | [] => rows
  | entry :: rest =>
    if 0 < limit ∧ limit ≤ rows.size then
      rows
    else
      match r.keyOf? entry with
      | none => r.collect plan limit rows rest
      | some key => r.collect plan limit (if r.meets plan key then rows.push key else rows) rest

/-- The rows of a query over the region as it is: the keys of the records that match, oldest
first, up to the row limit if there is one. -/
def matching (r : Region) (plan : QueryPlan) (limit : Nat) : List SlotKey :=
  (r.collect plan limit #[] r.order).toList

/-- Reduces a query to its plan. -/
def plan (r : Region) (template : Option SlotKey) (conditions : List Condition) :
    Except Error QueryPlan :=
  match template with
  | some key => (r.record key).bind fun rec => QueryPlan.build? (some rec.fields) conditions
  | none => QueryPlan.build? none conditions

/-- Builds a query on behalf of a connection. -/
def buildQuery (r : Region) (connection : ConnectionId) (template : Option SlotKey)
    (conditions : List Condition) (limit : Nat) : Except Error SlotKey × Region :=
  match r.plan template conditions with
  | .error err => (.error err, r)
  | .ok plan =>
    let rows := r.matching plan limit
    let footprint := Size.query rows.length
    match r.queries.insert? { connection, rows, footprint } with
    | none => (.error (.internal .slotsExhausted), r)
    | some (key, queries) =>
      (.ok key, { r with queries, queryBytes := r.queryBytes + footprint })

/-- The query under a key, if it belongs to the connection. -/
def query (r : Region) (connection : ConnectionId) (key : SlotKey) : Except Error Cursor :=
  match r.queries.get? key with
  | none => .error (.badQuery .queryFreed)
  | some cursor =>
    if cursor.connection = connection then .ok cursor else .error (.badQuery .queryOfAnother)

/-- Fetches the next row of a query whose record is live. -/
def fetch (r : Region) (connection : ConnectionId) (key : SlotKey) :
    Except Error (Option SlotKey) × Region :=
  match r.query connection key with
  | .error err => (.error err, r)
  | .ok cursor =>
    let (row, moved) := cursor.advance r.records.contains
    (.ok row, { r with queries := r.queries.replace key moved })

/-- Frees a query. -/
def freeQuery (r : Region) (connection : ConnectionId) (key : SlotKey) :
    Except Error Unit × Region :=
  match r.query connection key with
  | .error err => (.error err, r)
  | .ok _ =>
    match r.queries.remove? key with
    | some (cursor, queries) =>
      (.ok (), { r with queries, queryBytes := r.queryBytes - cursor.footprint })
    | none => (.ok (), r)

/-- Counts one more connection. -/
def attach (r : Region) : Region := { r with attached := r.attached + 1 }

/-- Counts one connection less and frees the queries that it built. -/
def detach (r : Region) (connection : ConnectionId) : Region :=
  let (freed, queries) := r.queries.drain fun cursor => cursor.connection = connection
  { r with
    attached := r.attached - 1
    queries
    queryBytes := r.queryBytes - freed.foldl (fun bytes cursor => bytes + cursor.footprint) 0 }

end Region

end RecordStore
