import RecordStore.Client.Queries
import RecordStore.Engine.Call
import RecordStore.Schema.Tuple
/-!
# Session steps — what a session is told to do

A session works with variables: connections, records, queries and lock
tokens, each kind with names of its own. A command names the variables that
it uses and the one that its result is to be bound to. Two kinds of steps
contain further steps: those carried out under a lock, and those carried
out in the course of a traversal.
-/

namespace RecordStore

/-- A part of a query, in the order in which the query is put together. -/
inductive QueryPart where
  | template (rec : String)
  | conditions (cs : List Condition)
  | limit (n : Nat)

/-- A step without further steps in it. -/
inductive Command where
  | openWith (settings : ConnectionSettings) (result : Option String)
  | close (conn : String)
  /-- Closes the connection and passes over a failure to do so. -/
  | drop (conn : String)
  | deleteDatabase (name : Option String)
  | stats (conn : String)
  | info (conn : String)
  /-- From now on so many field writes succeed, or all; and deletions may be refused. -/
  | faults (writes : Option Nat) (refusesDeletes : Bool)
  | create (conn : String) (length : Nat) (result : Option String)
  | first (conn : String) (result : Option String)
  | next (conn rec : String) (result : Option String)
  | delete (conn rec : String)
  | length (conn rec : String)
  | same (a b : String)
  | set (conn rec : String) (index : Nat) (value : FieldValue)
  | get (conn rec : String) (index : Nat)
  | getInt (conn rec : String) (index : Nat)
  | getString (conn rec : String) (index : Nat)
  | getBlob (conn rec : String) (index : Nat)
  | typeOf (conn rec : String) (index : Nat)
  /-- Shows all records. -/
  | dump (conn : String)
  | buildQuery (conn : String) (parts : List QueryPart) (result : Option String)
  | fetch (conn query : String) (result : Option String)
  /-- Fetches until the rows run out. -/
  | drain (conn query : String)
  | queryInfo (query : String)
  | freeQuery (conn query : String)
  | startLock (conn : String) (mode : LockMode) (result : Option String)
  | tryLock (conn : String) (mode : LockMode) (result : Option String)
  | endLock (conn token : String)
  /-- Writes an object; without a choice the settings of the connection decide about the
  fingerprint. -/
  | writeObject (conn : String) (type : TupleType) (values : Array Int32)
      (withFingerprint : Option Bool) (result : Option String)
  | readObject (conn : String) (type : TupleType) (rec : String) (withFingerprint : Option Bool)
  /-- Calls the engine with handles that are written out. -/
  | call (c : Call)

/-- How the steps under a lock end. -/
inductive Ending where
  | returns
  /-- They fail with an invalid argument. -/
  | fails (words : String)
  /-- They are broken off. -/
  | breaksOff (words : String)
  deriving DecidableEq, Repr

mutual

/-- A step of a session. -/
inductive Step where
  | command (c : Command)
  /-- Carries out steps under the lock of a region. -/
  | underLock (conn : String) (mode : LockMode) (steps : List Step) (ending : Ending)
  /-- Traverses the records of a region. -/
  | traverse (conn : String) (turns : List Turn)

/-- A turn of a traversal. -/
inductive Turn where
  /-- Visits the next record. -/
  | visit
  /-- Carries out steps. -/
  | steps (steps : List Step)

end

end RecordStore
