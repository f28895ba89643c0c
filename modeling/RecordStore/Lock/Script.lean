import RecordStore.Directory
import RecordStore.Lock.Contention
/-!
# Lock scripts — steps on one lock, with named grants

A script is a list of steps on a fresh lock. A grant is bound to a name and
stays bound after its release, so that a script can release it twice. In
each mode at most one request waits at a time.
-/

namespace RecordStore

/-- A step on a lock. -/
inductive LockStep where
  /-- Acquires the lock, or waits for it under the name. -/
  | acquire (mode : LockMode) (name : String)
  /-- Acquires the lock if that can be done at once. -/
  | attempt (mode : LockMode) (name : String)
  /-- Releases a named grant, in another mode if one is given. -/
  | release (name : String) (mode : Option LockMode)
  /-- Releases the lock under an identifier. -/
  | releaseId (id : LockId) (mode : LockMode)

/-- What a step on a lock comes to. -/
inductive LockAnswer where
  | granted (id : LockId)
  | notGranted
  | waiting (name : String)
  /-- A request in this mode already waits. -/
  | modeTaken
  | noSuchLock
  /-- The release succeeded, and the named requests were granted the lock. -/
  | released (woken : List (LockGrant String))
  | failed (e : Error)

/-- A lock with the grants that have names. -/
structure LockScript where
  contention : Contention String := {}
  grants : Directory String (LockId × LockMode) := {}

namespace LockScript

/-- Binds a name to a grant. -/
def bind (s : LockScript) (name : String) (id : LockId) (mode : LockMode) : LockScript :=
  { s with grants := s.grants.insert name (id, mode) }

/-- Binds the names of requests that were granted the lock. -/
def bindWoken (s : LockScript) (woken : List (LockGrant String)) : LockScript :=
  woken.foldl (fun s w => s.bind w.label w.id w.mode) s

/-- Releases a lock and lets the requests it wakes look again. -/
def release (s : LockScript) (id : LockId) (mode : LockMode) : LockAnswer × LockScript :=
  match s.contention.release id mode with
  | (.error e, contention) => (.failed e, { s with contention })
  | (.ok (), contention) =>
    let (woken, settled) := contention.settle
    (.released woken, { s with contention := settled }.bindWoken woken)

/-- Carries out one step. -/
def step (s : LockScript) : LockStep → LockAnswer × LockScript
  | .acquire mode name =>
    if s.contention.awaits mode then
      (.modeTaken, s)
    else
      match s.contention.arrive name mode with
      | (some id, contention) => (.granted id, { s with contention }.bind name id mode)
      | (none, contention) => (.waiting name, { s with contention })
  | .attempt mode name =>
    match s.contention.attempt mode with
    | (some id, contention) => (.granted id, { s with contention }.bind name id mode)
    | (none, contention) => (.notGranted, { s with contention })
  | .release name mode =>
    match s.grants.find? name with
    | some (id, granted) => s.release id (mode.getD granted)
    | none => (.noSuchLock, s)
  | .releaseId id mode => s.release id mode

/-- Carries out steps one after the other, giving each answer with the lock after the step. -/
def run (s : LockScript) : List LockStep → List (LockAnswer × RegionLock)
  | [] => []
  | step :: rest =>
    let (answer, s') := s.step step
    (answer, s'.contention.lock) :: s'.run rest

end LockScript

end RecordStore
