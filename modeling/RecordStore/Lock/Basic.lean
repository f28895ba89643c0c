import RecordStore.Error.Basic
/-!
# Region locks — shared and exclusive holders

A region has one lock. Any number of shared locks may be held at once, and
an exclusive lock excludes every other. A writer that waits keeps new
readers out, so that readers who come and go cannot starve it. Each grant
has an identifier of its own, and a release names the identifier and the
mode it was granted in.
-/

namespace RecordStore

/-- What has happened to a lock so far. -/
structure LockCounts where
  acquisitions : Nat := 0
  releases : Nat := 0
  waits : Nat := 0
  rejected : Nat := 0
  deriving DecidableEq, Repr

/-- The lock of one region. -/
structure RegionLock where
  /-- The shared locks that are held. -/
  readers : List LockId := []
  /-- The exclusive lock, if it is held. -/
  writer : Option LockId := none
  /-- How many requests for an exclusive lock wait. -/
  waitingWriters : Nat := 0
  /-- The identifier of the next grant. -/
  nextId : LockId := ⟨1⟩
  counts : LockCounts := {}
  deriving DecidableEq, Repr

namespace RegionLock

/-- No lock is held. -/
def isFree (l : RegionLock) : Bool := l.writer.isNone && l.readers.isEmpty

/-- Whether a new request is granted at once: a reader if no writer holds or awaits the lock,
a writer if nobody holds it. -/
def canGrant (l : RegionLock) : LockMode → Bool
  | .shared => l.writer.isNone && l.waitingWriters == 0
  | .exclusive => l.isFree

/-- Whether a waiting request is granted when it looks again. A waiting writer is among those
that keep readers out, but not among those that keep itself out. -/
def canResume (l : RegionLock) : LockMode → Bool
  | .shared => l.canGrant .shared
  | .exclusive => l.isFree

/-- The lock with one more holder. -/
def hold (l : RegionLock) (id : LockId) : LockMode → RegionLock
  | .shared => { l with readers := l.readers.insert id }
  | .exclusive => { l with writer := some id }

/-- Grants the lock under the next identifier. -/
def grant (l : RegionLock) (mode : LockMode) : LockId × RegionLock :=
  (l.nextId,
    { l.hold l.nextId mode with
      nextId := l.nextId.next
      counts := { l.counts with acquisitions := l.counts.acquisitions + 1 } })

/-- Acquires the lock if that can be done at once. -/
def tryAcquire (l : RegionLock) (mode : LockMode) : Option (LockId × RegionLock) :=
  if l.canGrant mode then some (l.grant mode) else none

/-- The lock after a request in the mode began to wait. -/
def await (l : RegionLock) (mode : LockMode) : RegionLock :=
  { l with
    waitingWriters := if mode = .exclusive then l.waitingWriters + 1 else l.waitingWriters
    counts := { l.counts with waits := l.counts.waits + 1 } }

/-- Acquires the lock, or begins to wait for it. -/
def acquire (l : RegionLock) (mode : LockMode) : Option LockId × RegionLock :=
  match l.tryAcquire mode with
  | some (id, l') => (some id, l')
  | none => (none, l.await mode)

/-- Lets a waiting request look again: it is granted and waits no more, or nothing changes. -/
def resume (l : RegionLock) (mode : LockMode) : Option (LockId × RegionLock) :=
  if l.canResume mode then
    let waiting := if mode = .exclusive then l.waitingWriters - 1 else l.waitingWriters
    some ({ l with waitingWriters := waiting }.grant mode)
  else
    none

/-- Whether the lock is held under the identifier in the mode. -/
def isHeld (l : RegionLock) (id : LockId) : LockMode → Bool
  | .shared => l.readers.contains id
  | .exclusive => l.writer == some id

/-- The lock with one holder fewer. -/
def drop (l : RegionLock) (id : LockId) : LockMode → RegionLock
  | .shared => { l with readers := l.readers.erase id }
  | .exclusive => { l with writer := none }

/-- Releases the lock held under the identifier in the mode. A release of what is not held
fails, and is counted. -/
def release (l : RegionLock) (id : LockId) (mode : LockMode) : Except Error Unit × RegionLock :=
  if l.isHeld id mode then
    (.ok (), { l.drop id mode with counts := { l.counts with releases := l.counts.releases + 1 } })
  else
    (.error (.lockFailed (.notHeld id mode)),
      { l with counts := { l.counts with rejected := l.counts.rejected + 1 } })

/-- The number of shared locks that are held. -/
def readerCount (l : RegionLock) : Nat := l.readers.length

/-- Whether the exclusive lock is held. -/
def isWriteLocked (l : RegionLock) : Bool := l.writer.isSome

/-- How diagnostics show the lock. -/
def inspect (l : RegionLock) : String :=
  let writer := match l.writer with
    | some id => s!"Some({id.inspect})"
    | none => "None"
  "RegionLock \x7b readers: " ++ toString l.readerCount ++ ", writer: " ++ writer ++
    ", waiting_writers: " ++ toString l.waitingWriters ++ " \x7d"

end RegionLock

end RecordStore
