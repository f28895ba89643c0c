import RecordStore.Client.Basic
/-!
# Locks through a connection

A lock that was taken is given back with its token. A bracket takes a lock,
does something under it and gives it back whatever came of that; of a
failure under the lock and a failure to give it back the first one counts.
-/

namespace RecordStore

/-- Does something and then releases what was acquired for it. -/
def bracket {σ β : Type} (release : σ → Except ClientError Unit × σ)
    (body : σ → Except ClientError β × σ) (s : σ) : Except ClientError β × σ :=
  let (result, s) := body s
  let (released, s) := release s
  (result.bind fun b => released.map fun _ => b, s)

namespace Connection

/-- Counts a token among what is outstanding. -/
def trackToken (conn : Connection) : Option LockToken → Action Unit
  | some token => conn.track fun held => { held with locks := held.locks ++ [token] }
  | none => pure ()

/-- Takes the lock of the region. Without a token the request waits. -/
def startLock (conn : Connection) (mode : LockMode) : Action (Option LockToken) := do
  let token ← Action.change fun e => e.startLock conn.handle mode
  conn.trackToken token
  return token

/-- Takes the lock of the region if that can be done at once. -/
def tryLock (conn : Connection) (mode : LockMode) : Action (Option LockToken) := do
  let token ← Action.change fun e => e.tryLock conn.handle mode
  conn.trackToken token
  return token

/-- Gives a lock back. -/
def endLock (conn : Connection) (token : LockToken) : Action Unit := do
  Action.change fun e => e.endLock conn.handle token token.mode
  conn.track fun held => { held with locks := held.locks.filter (· ≠ token) }

/-- Carries out an action under a lock that was taken, and gives the lock back. -/
def underLock {β : Type} (conn : Connection) (token : LockToken) (body : Action β) : Action β :=
  .ofState (bracket (conn.endLock token).outcome body.outcome)

/-- Carries out an action under the lock of the region. Without a result the request for the
lock waits, and nothing was carried out. -/
def withLock {β : Type} (conn : Connection) (mode : LockMode) (body : Action β) :
    Action (Option β) := do
  match ← conn.startLock mode with
  | some token => some <$> conn.underLock token body
  | none => return none

end Connection

end RecordStore
