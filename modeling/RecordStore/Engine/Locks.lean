import RecordStore.Engine.Basic
import RecordStore.Region.Locks
/-!
# Calls on the locks of regions

A lock is taken on the region that a handle stands for, and the token of
the grant is given back through a handle of the same region.
-/

namespace RecordStore

namespace Engine

/-- Takes the lock of a region. Without a token the request waits. -/
def startLock (e : Engine) (db : DbHandle) (mode : LockMode) :
    Except Error (Option LockToken) × Engine :=
  e.onRegion db fun r => r.startLock mode

/-- Lets a request that waits look again. -/
def resumeLock (e : Engine) (db : DbHandle) (mode : LockMode) :
    Except Error (Option LockToken) × Engine :=
  e.onRegion db fun r => r.resumeLock mode

/-- Takes the lock of a region if that can be done at once. -/
def tryLock (e : Engine) (db : DbHandle) (mode : LockMode) :
    Except Error (Option LockToken) × Engine :=
  e.onRegion db fun r => r.tryLock mode

/-- Whether a request for the lock of a region would have to wait. -/
def mustWait (e : Engine) (db : DbHandle) (mode : LockMode) : Bool :=
  match e.resolve db with
  | .ok (_, r) => !r.lock.canGrant mode
  | .error _ => false

/-- Releases a lock in the mode. -/
def endLock (e : Engine) (db : DbHandle) (token : LockToken) (mode : LockMode) :
    Except Error Unit × Engine :=
  e.onRegion db fun r => r.endLock token mode

end Engine

end RecordStore
