import RecordStore.Lock.Basic
/-!
# Contention — a lock and the requests that wait for it

A request that cannot be granted at once sleeps. A successful release wakes
every sleeper; a request that is awake looks again and is granted or sleeps
again. Nothing else wakes a sleeper.
-/

namespace RecordStore

/-- A request that waits for a lock: who made it, in which mode, and whether it has been woken
since it last looked. -/
structure LockRequest (α : Type) where
  label : α
  mode : LockMode
  awake : Bool := false
  deriving Repr

/-- A request that was granted the lock, with the identifier of the grant. -/
structure LockGrant (α : Type) where
  label : α
  mode : LockMode
  id : LockId
  deriving Repr

/-- A lock with the requests that wait for it, in the order of their arrival. -/
structure Contention (α : Type) where
  lock : RegionLock := {}
  waiting : List (LockRequest α) := []
  deriving Repr

namespace Contention

variable {α : Type}

/-- A request arrives: it is granted at once or goes to sleep. -/
def arrive (c : Contention α) (label : α) (mode : LockMode) : Option LockId × Contention α :=
  match c.lock.acquire mode with
  | (some id, lock) => (some id, { c with lock })
  | (none, lock) => (none, { lock, waiting := c.waiting ++ [{ label, mode }] })

/-- A request that does not wait. -/
def attempt (c : Contention α) (mode : LockMode) : Option LockId × Contention α :=
  match c.lock.tryAcquire mode with
  | some (id, lock) => (some id, { c with lock })
  | none => (none, c)

/-- Wakes every request that waits. -/
def wakeAll (waiting : List (LockRequest α)) : List (LockRequest α) :=
  waiting.map fun r => { r with awake := true }

/-- A release; if it succeeds it wakes every request that waits. -/
def release (c : Contention α) (id : LockId) (mode : LockMode) :
    Except Error Unit × Contention α :=
  match c.lock.release id mode with
  | (.ok (), lock) => (.ok (), { lock, waiting := wakeAll c.waiting })
  | (.error e, lock) => (.error e, { c with lock })

/-- Lets the requests that are awake look again one after the other, and gives those that were
granted the lock and those that still wait. -/
def lookAgain (lock : RegionLock) :
    List (LockRequest α) → List (LockGrant α) × Contention α
  | [] => ([], { lock })
  | r :: rest =>
    let sleepOn (r : LockRequest α) :=
      let (granted, c) := lookAgain lock rest
      (granted, { c with waiting := r :: c.waiting })
    if r.awake then
      match lock.resume r.mode with
      | some (id, lock') =>
        let (granted, c) := lookAgain lock' rest
        (⟨r.label, r.mode, id⟩ :: granted, c)
      | none => sleepOn { r with awake := false }
    else
      sleepOn r

/-- Lets every request that is awake look again. -/
def settle (c : Contention α) : List (LockGrant α) × Contention α := lookAgain c.lock c.waiting

/-- Whether a request in the mode waits. -/
def awaits (c : Contention α) (mode : LockMode) : Bool := c.waiting.any fun r => r.mode = mode

end Contention

end RecordStore
