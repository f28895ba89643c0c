import RecordStore.Client.Basic
/-!
# Queries through a connection

A client checks a query before it asks the engine to build it, and counts
what it has fetched. Once the rows have run out it does not ask the engine
again.
-/

namespace RecordStore

/-- A query that was built. -/
structure Query where
  handle : QueryHandle
  /-- The number of records fetched so far. -/
  fetched : Nat := 0
  /-- Whether a fetch has found no more records. -/
  isExhausted : Bool := false
  deriving DecidableEq, Repr

namespace Query

/-- The query in one line. -/
def text (q : Query) : String :=
  let ending := if q.isExhausted then ", exhausted" else ""
  s!"{q.handle.text} ({q.fetched} fetched{ending})"

/-- The query after a fetch has given a record or found none. -/
def advanced (q : Query) : Option RecordHandle → Query
  | some _ => { q with fetched := q.fetched + 1 }
  | none => { q with isExhausted := true }

end Query

/-- What a query asks for: a template or conditions, and at most how many rows. -/
structure QueryRequest where
  template : Option RecordHandle := none
  conditions : List Condition := []
  /-- The most rows; 0 means that there is no limit. -/
  limit : Nat := 0
  deriving DecidableEq

namespace QueryRequest

/-- Fails unless the request is of one form and its comparators are valid. -/
def validate (request : QueryRequest) : Except ClientError Unit :=
  if request.template.isSome && !request.conditions.isEmpty then
    .error .queryConflict
  else
    (request.conditions.forM Condition.validate).mapError .engine

end QueryRequest

namespace Connection

/-- Builds a query. -/
def buildQuery (conn : Connection) (request : QueryRequest) : Action Query := do
  Action.check request.validate
  let handle ← Action.change fun e =>
    e.buildQuery conn.handle request.template request.conditions request.limit
  conn.track fun held => { held with queries := held.queries ++ [handle] }
  return { handle }

/-- Fetches the next record of a query, with the query after the fetch. -/
def fetch (conn : Connection) (q : Query) : Action (Option RecordHandle × Query) := do
  if q.isExhausted then
    return (none, q)
  else
    let row ← Action.change fun e => e.fetch conn.handle q.handle
    return (row, q.advanced row)

/-- Frees a query. -/
def freeQuery (conn : Connection) (q : Query) : Action Unit := do
  Action.change fun e => e.freeQuery conn.handle q.handle
  conn.track fun held => { held with queries := held.queries.filter (· ≠ q.handle) }

end Connection

end RecordStore
