import RecordStore.Region.Basic
/-!
# The lock of a region

A grant of the lock is given out as a token that names the region, and the
token is given back to release it. A request that cannot be granted at once
waits; it looks again when the lock may have become free.
-/

namespace RecordStore

namespace Region

/-- The token of a grant on the region. -/
def tokenOf (r : Region) (mode : LockMode) (id : LockId) : LockToken := ⟨r.id, id, mode⟩

/-- Takes the lock. Without a token the request waits. -/
def startLock (r : Region) (mode : LockMode) : Except Error (Option LockToken) × Region :=
  let (id, lock) := r.lock.acquire mode
  (.ok (id.map (r.tokenOf mode)), { r with lock })

/-- Lets a request that waits look again. -/
def resumeLock (r : Region) (mode : LockMode) : Except Error (Option LockToken) × Region :=
  match r.lock.resume mode with
  | some (id, lock) => (.ok (some (r.tokenOf mode id)), { r with lock })
  | none => (.ok none, r)

/-- Takes the lock if that can be done at once. -/
def tryLock (r : Region) (mode : LockMode) : Except Error (Option LockToken) × Region :=
  match r.lock.tryAcquire mode with
  | some (id, lock) => (.ok (some (r.tokenOf mode id)), { r with lock })
  | none => (.ok none, r)

/-- Fails unless a token can stand for a lock of the region in the mode. -/
def checkToken (r : Region) (token : LockToken) (mode : LockMode) : Except Error Unit :=
  if token.region ≠ r.id then .error (.invalidHandle .lock .foreignToken)
  else if token.mode ≠ mode then .error (.lockFailed (.wrongMode token.mode mode))
  else .ok ()

/-- Releases the lock in the mode. -/
def endLock (r : Region) (token : LockToken) (mode : LockMode) : Except Error Unit × Region :=
  match r.checkToken token mode with
  | .error err => (.error err, r)
  | .ok () =>
    let (answer, lock) := r.lock.release token.id mode
    (answer, { r with lock })

end Region

end RecordStore
