import RecordStore.Engine.Contents
import RecordStore.Engine.Locks
/-!
# Calls — all that can be asked of an engine

A call is a value, so that a run of an engine is a list of calls.
-/

namespace RecordStore

/-- A call of an engine. -/
inductive Call where
  | openDatabase (name : Option String) (size : Nat) (isLocal : Bool)
  | deleteDatabase (name : Option String)
  | deleteLocal (db : DbHandle)
  | detach (db : DbHandle)
  | stats (db : DbHandle)
  | exists (name : String)
  | names
  | settings
  | create (db : DbHandle) (length : Nat)
  | first (db : DbHandle)
  | next (db : DbHandle) (rec : RecordHandle)
  | delete (db : DbHandle) (rec : RecordHandle)
  | length (db : DbHandle) (rec : RecordHandle)
  | set (db : DbHandle) (rec : RecordHandle) (index : Nat) (value : FieldValue)
  | get (db : DbHandle) (rec : RecordHandle) (index : Nat)
  | buildQuery (db : DbHandle) (template : Option RecordHandle) (conditions : List Condition)
      (limit : Nat)
  | fetch (db : DbHandle) (query : QueryHandle)
  | freeQuery (db : DbHandle) (query : QueryHandle)
  | startLock (db : DbHandle) (mode : LockMode)
  | resumeLock (db : DbHandle) (mode : LockMode)
  | tryLock (db : DbHandle) (mode : LockMode)
  | endLock (db : DbHandle) (token : LockToken) (mode : LockMode)

/-- What a call that is not refused gives. -/
inductive Reply where
  | done
  | database (db : DbHandle)
  | stats (s : RegionStats)
  | truth (b : Bool)
  | names (ns : List String)
  | settings (s : EngineSettings)
  | record (rec : RecordHandle)
  | recordOrEnd (rec : Option RecordHandle)
  | length (n : Nat)
  | field (f : Field)
  | query (q : QueryHandle)
  /-- A token, or none where the lock was not granted. -/
  | token (t : Option LockToken)
  /-- Nothing: the call was broken off. -/
  | panicked (p : Panic)

/-- What a call gives that may panic. -/
def Reply.ofAttempt {α : Type} (reply : α → Reply) : Attempt α → Reply
  | .done a => reply a
  | .panicked p => .panicked p

namespace Engine

/-- An answer that comes without a change of the engine. -/
def answer {α : Type} (e : Engine) (reply : α → Reply) (a : Except Error α) :
    Except Error Reply × Engine :=
  (a.map reply, e)

/-- Carries out a call. -/
def perform (e : Engine) : Call → Except Error Reply × Engine
  | .openDatabase name size isLocal => reword .database (e.openDatabase name size isLocal)
  | .deleteDatabase name => reword (fun _ => .done) (e.deleteDatabase name)
  | .deleteLocal db => reword (fun _ => .done) (e.deleteLocal db)
  | .detach db => reword (fun _ => .done) (e.detach db)
  | .stats db => e.answer .stats (e.stats db)
  | .exists name => e.answer .truth (.ok (e.named.contains name))
  | .names => e.answer .names (.ok e.names)
  | .settings => e.answer .settings (.ok e.settings)
  | .create db length => reword (.ofAttempt .record) (e.create db length)
  | .first db => e.answer .recordOrEnd (e.first db)
  | .next db rec => e.answer .recordOrEnd (e.next db rec)
  | .delete db rec => reword (fun _ => .done) (e.delete db rec)
  | .length db rec => e.answer .length (e.length db rec)
  | .set db rec index value => reword (fun _ => .done) (e.set db rec index value)
  | .get db rec index => e.answer .field (e.get db rec index)
  | .buildQuery db template conditions limit =>
    reword .query (e.buildQuery db template conditions limit)
  | .fetch db query => reword .recordOrEnd (e.fetch db query)
  | .freeQuery db query => reword (fun _ => .done) (e.freeQuery db query)
  | .startLock db mode => reword .token (e.startLock db mode)
  | .resumeLock db mode => reword .token (e.resumeLock db mode)
  | .tryLock db mode => reword .token (e.tryLock db mode)
  | .endLock db token mode => reword (fun _ => .done) (e.endLock db token mode)

/-- The engine after a run of calls, whatever they answer. -/
def run (e : Engine) (calls : List Call) : Engine :=
  calls.foldl (fun e call => (e.perform call).2) e

end Engine

end RecordStore
