import RecordStore.Client.Queries
import RecordStore.Engine.Call
/-!
# Session entries — what the steps of a session come to

Each step has an entry: what it gave, why it failed, or why it could not be
carried out at all. The entry of a step with further steps in it contains
their entries.
-/

namespace RecordStore

/-- Why a step was not carried out. -/
inductive Refusal where
  | noVariable (name : String)
  | noRecord
  | noQuery
  | noToken
  /-- Steps under a lock or in a traversal still use the connection. -/
  | inUse
  /-- The lock could never be granted. -/
  | wouldBlock
  deriving DecidableEq, Repr

namespace Refusal

/-- The refusal in words. -/
def text : Refusal → String
  | noVariable name => s!"no variable {name}"
  | noRecord => "no such record"
  | noQuery => "no such query"
  | noToken => "no such token"
  | inUse => "connection in use"
  | wouldBlock => "would block"

end Refusal

/-- A record with its fields, or why they could not be read. -/
inductive Row where
  | fields (rec : RecordHandle) (fields : List Field)
  | failed (e : ClientError)

/-- What a step gives. -/
inductive Payload where
  | done
  | nothing
  | truth (b : Bool)
  | number (n : Nat)
  | text (s : String)
  | field (f : Field)
  | type (t : Option FieldType)
  | rows (rs : List Row)
  | stats (s : RegionStats)
  | connection (conn : Connection)
  | query (q : Query)
  | integers (vs : Array Int32)
  | reply (r : Reply)

/-- How a step ended. -/
inductive Outcome where
  | ok (p : Payload)
  | failed (e : ClientError)
  | refused (r : Refusal)
  | brokeOff (words : String)

/-- What a visit of a traversal met. -/
inductive Visit where
  | record (row : Row)
  | failed (e : ClientError)
  | ended

mutual

/-- The entry of a step, with the use of the watched region after it. The outer option says
whether a region is watched, the inner one whether there is such a region. -/
inductive Entry where
  /-- The entry of a command; a fetch also shows the query after it. -/
  | command (outcome : Outcome) (query : Option Query) (usage : Option (Option RegionStats))
  /-- The entry of steps under a lock, with their entries if the lock was taken. -/
  | underLock (outcome : Outcome) (inner : Option (List Entry))
      (usage : Option (Option RegionStats))
  /-- The entry of a traversal. -/
  | traversal (turns : List TurnEntry) (usage : Option (Option RegionStats))

/-- What a turn of a traversal came to. -/
inductive TurnEntry where
  | visit (v : Visit)
  | steps (entries : List Entry)

end

end RecordStore
