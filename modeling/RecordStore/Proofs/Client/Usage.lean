import RecordStore.Client.Queries
import RecordStore.Proofs.Engine.Holders
import RecordStore.Proofs.Query.Owners
import RecordStore.Proofs.Sections.Waiting
/-!
# Usage — what is done with a client, call by call

A client is used through any number of connections, in any order. A deed is
one call: through an open connection, or to open one, or to delete a
database. Beside the client, a `Usage` keeps what no part of it knows: which
connections are open, and which tokens were ever granted through which of
them. Handles and tokens that are passed to a deed may come from anywhere.
-/

namespace RecordStore

/-! ## Deeds -/

/-- A way to ask for the lock of a region. -/
inductive LockCall where
  | start
  /-- The request waited and looks again. -/
  | retry
  | attempt
  deriving DecidableEq, Repr

namespace LockCall

/-- The call through a connection. -/
def action (conn : Connection) (mode : LockMode) : LockCall → Action (Option LockToken)
  | start => conn.startLock mode
  | retry => conn.retryLock mode
  | attempt => conn.tryLock mode

/-- What a region does on the call. -/
def ask (r : Region) (mode : LockMode) : LockCall → Except Error (Option LockToken) × Region
  | start => r.startLock mode
  | retry => r.resumeLock mode
  | attempt => r.tryLock mode

end LockCall

/-- One call of a client. -/
inductive Deed where
  | openWith (settings : ConnectionSettings)
  | close (conn : Connection) (order : List QueryHandle)
  | deleteDatabase (name : Option String)
  | stats (conn : Connection)
  | record (conn : Connection) (op : RecordCall)
  | buildQuery (conn : Connection) (request : QueryRequest)
  | fetch (conn : Connection) (q : Query)
  | freeQuery (conn : Connection) (q : Query)
  | lock (conn : Connection) (kind : LockCall) (mode : LockMode)
  | endLock (conn : Connection) (token : LockToken)

/-- A client in use. -/
structure Usage where
  client : Client
  /-- The open connections. -/
  opened : List Connection := []
  /-- The number of connections that were opened so far. -/
  opens : Nat := 0
  /-- The tokens granted so far, with the connections that they were granted through. -/
  granted : List (ConnectionId × LockToken) := []

namespace Usage

variable {α : Type}

/-- A client that was not used yet. -/
def start (settings : EngineSettings) (faults : FaultPlan) : Usage :=
  { client := { engine := .start settings, faults } }

/-- Carries out an action that opens and closes nothing and is granted no lock. -/
def carry (u : Usage) (action : Action α) : Usage :=
  { u with client := (action.outcome u.client).2 }

/-- Carries out a deed, whatever comes of it. A connection is gone when it was closed. -/
def does (u : Usage) : Deed → Usage
  | .openWith settings =>
    match (Connection.openWith settings).outcome u.client with
    | (.ok conn, client) => { u with client, opened := u.opened ++ [conn], opens := u.opens + 1 }
    | (.error _, client) => { u with client }
  | .close conn order =>
    { u with
      client := ((conn.closeIn order).outcome u.client).2
      opened := u.opened.filter fun other => other ≠ conn }
  | .deleteDatabase name => u.carry (Connection.deleteDatabase name)
  | .stats conn => u.carry conn.stats
  | .record conn op => u.carry (op.action conn)
  | .buildQuery conn request => u.carry (conn.buildQuery request)
  | .fetch conn q => u.carry (conn.fetch q)
  | .freeQuery conn q => u.carry (conn.freeQuery q)
  | .lock conn kind mode =>
    match (kind.action conn mode).outcome u.client with
    | (.ok (some token), client) =>
      { u with client, granted := u.granted ++ [(conn.handle.connection, token)] }
    | (_, client) => { u with client }
  | .endLock conn token => u.carry (conn.endLock token)

/-- A deed can be done: the connection it is done through is open, and if it is closed, just
the queries that are outstanding are given back. -/
def Allows (u : Usage) : Deed → Prop
  | .openWith _ | .deleteDatabase _ => True
  | .close conn order =>
    conn ∈ u.opened ∧ order.Perm (u.client.held conn.handle.connection).queries
  | .stats conn | .record conn _ | .buildQuery conn _ | .fetch conn _ | .freeQuery conn _
  | .lock conn _ _ | .endLock conn _ => conn ∈ u.opened

/-- **What can become of a client**: any deeds, one after the other. -/
inductive Reachable (settings : EngineSettings) (faults : FaultPlan) : Usage → Prop where
  | start : Reachable settings faults (start settings faults)
  | does {u : Usage} {deed : Deed} (h : Reachable settings faults u) (hallowed : u.Allows deed) :
      Reachable settings faults (u.does deed)

end Usage

/-! ## What the client remembers -/

namespace Client

variable {c : Client} {connection : ConnectionId}

theorem held_changeHeld (c : Client) (connection : ConnectionId) (f : Outstanding → Outstanding) :
    (c.changeHeld connection f).held =
      Function.update c.held connection (f (c.held connection)) := by
  funext other
  simp only [held, changeHeld, Directory.find?_insert, Function.update_apply, eq_comm (a := other)]
  split <;> rfl

/-- What is outstanding on a connection that is forgotten. -/
theorem held_erase (c : Client) (engine : Engine) (connection : ConnectionId) :
    ({ c with engine, outstanding := c.outstanding.erase connection } : Client).held =
      Function.update c.held connection {} := by
  funext other
  simp only [held, Directory.find?_erase, Function.update_apply, eq_comm (a := other)]
  split <;> rfl

end Client

/-! ## What the engine is asked -/

/-- Whether a call is to open a database. -/
def Call.isOpening : Call → Bool
  | .openDatabase _ _ _ => true
  | _ => false

namespace Engine

variable {α : Type} {e : Engine} {db : DbHandle} {call : Call}

/-- A call on a region changes nothing, or reaches the region. -/
theorem onRegion_cases (e : Engine) (db : DbHandle)
    (change : Region → Except Error α × Region) :
    (∃ err, e.onRegion db change = (.error err, e)) ∨
      ∃ place r, e.resolve db = .ok (place, r) ∧
        e.onRegion db change = ((change r).1, e.putRegion place (change r).2) := by
  unfold onRegion
  cases hr : e.resolve db with
  | error err => exact .inl ⟨err, rfl⟩
  | ok found => exact .inr ⟨found.1, found.2, rfl, rfl⟩

theorem checkedOn_cases (e : Engine) (check : Except Error Unit) (db : DbHandle)
    (change : Region → Except Error α × Region) :
    (∃ err, e.checkedOn check db change = (.error err, e)) ∨
      ∃ place r, check = .ok () ∧ e.resolve db = .ok (place, r) ∧
        e.checkedOn check db change = ((change r).1, e.putRegion place (change r).2) := by
  cases check with
  | error err => exact .inl ⟨err, rfl⟩
  | ok =>
    refine (e.onRegion_cases db change).imp_right ?_
    rintro ⟨place, r, hr, hchange⟩
    exact ⟨place, r, rfl, hr, hchange⟩

/-- Only openings give out handles of databases. -/
theorem opened?_perform (h : call.isOpening = false) : opened? (e.perform call).1 = none := by
  have hup := e.upkeep_perform call
  generalize (e.perform call).1 = answer, (e.perform call).2 = e' at hup ⊢
  cases hup with
  | same _ hreply => exact hreply
  | inside _ _ _ hreply => exact hreply
  | joined hcall | founded hcall =>
    subst hcall
    cases h
  | unregistered => rfl
  | released => rfl

/-- **An engine in good order** after so many openings. -/
structure Sound (e : Engine) (given : Nat) : Prop where
  registered : Registered e
  attached : Attached e given
  owned : e.Owned
  coherent : ∀ (p : Nat) r, e.regions[p]? = some r → r.Coherent

namespace Sound

variable {given : Nat} {calls : List Call}

theorem start (settings : EngineSettings) : Sound (start settings) 0 where
  registered := .start settings
  attached := .start settings
  owned := owned_start settings
  coherent p r h := by simp [Engine.start] at h

theorem run (h : Sound e given) (hfew : given + (e.handles calls).length < 2 ^ 64) :
    Sound (e.run calls) (given + (e.handles calls).length) where
  registered := h.registered.run calls
  attached := h.attached.run hfew
  owned := h.owned.run h.attached h.coherent hfew
  coherent := forall_run coherent_founded (fun _ _ hchange hc => hc.change hchange) calls
    h.coherent

end Sound

end Engine

end RecordStore
