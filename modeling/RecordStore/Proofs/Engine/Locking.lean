import RecordStore.Proofs.Engine.Steps
import RecordStore.Proofs.Lock.Moves
/-!
# The engine — a region and its lock

What a region holds and its lock know nothing of each other: a call that is
not about the lock does the same under any lock, and leaves the lock as it
is (`serve_relock`).
-/

namespace RecordStore

namespace Call

/-- Whether a call is about the lock of a region. -/
def isLocking : Call → Bool
  | .startLock _ _ | .resumeLock _ _ | .tryLock _ _ | .endLock _ _ _ => true
  | _ => false

end Call

namespace Region

variable {α β : Type} {r : Region} {call : Call}

/-- The region under another lock. -/
def relock (r : Region) (lock : RegionLock) : Region := { r with lock }

/-- A change of a region that does the same under any lock and leaves the lock as it is. -/
def LockBlind (change : Region → Except Error α × Region) : Prop :=
  ∀ r lock, change (r.relock lock) = ((change r).1, (change r).2.relock lock)

theorem LockBlind.reword {change : Region → Except Error α × Region} (f : α → β)
    (h : LockBlind change) : LockBlind fun r => reword f (change r) := by
  intro r lock
  simp only [RecordStore.reword, h r lock]

/-! ## The operations -/

theorem lockBlind_create (length : Nat) : LockBlind fun r => r.create length := by
  intro r lock
  have havailable : (r.relock lock).available = r.available := rfl
  simp only [create_eq, havailable]
  by_cases hword : Size.modulus ≤ Size.record length
  · simp only [if_pos hword]
  · by_cases hfull : r.available < Size.record length
    · simp only [if_neg hword, if_pos hfull]
    · by_cases hblock : Size.maxCells < length
      · simp only [if_neg hword, if_neg hfull, if_pos hblock, relock]
      · simp only [if_neg hword, if_neg hfull, if_neg hblock, relock]
        cases r.records.insert? ⟨r.nextSeq, Array.replicate length none⟩ <;> rfl

theorem lockBlind_delete (key : SlotKey) : LockBlind fun r => r.delete key := by
  intro r lock
  simp only [delete, relock]
  cases r.records.remove? key <;> rfl

theorem lockBlind_set (key : SlotKey) (index : Nat) (value : FieldValue) :
    LockBlind fun r => r.set key index value := by
  intro r lock
  have havailable : (r.relock lock).available = r.available := rfl
  have hrecords : (r.relock lock).records = r.records := rfl
  simp only [set_eq, havailable, hrecords]
  cases r.records.get? key with
  | none => rfl
  | some rec =>
    cases hfield : rec.fields[index]? with
    | none => simp only [hfield]
    | some old =>
      by_cases hfull : r.available + old.storedSize < value.storedSize
      · simp only [hfield, if_pos hfull]
      · simp only [hfield, if_neg hfull, relock]

theorem collect_relock (r : Region) (lock : RegionLock) (plan : QueryPlan) (limit : Nat)
    (rows : Array SlotKey) (entries : List (Nat × UInt32)) :
    (r.relock lock).collect plan limit rows entries = r.collect plan limit rows entries := by
  induction entries generalizing rows with
  | nil => rfl
  | cons entry rest ih =>
    have hkey : (r.relock lock).keyOf? entry = r.keyOf? entry := rfl
    have hmeets : (r.relock lock).meets plan = r.meets plan := rfl
    simp only [collect, hkey, hmeets, ih]

theorem lockBlind_buildQuery (connection : ConnectionId) (template : Option SlotKey)
    (conditions : List Condition) (limit : Nat) :
    LockBlind fun r => r.buildQuery connection template conditions limit := by
  intro r lock
  have hplan : (r.relock lock).plan template conditions = r.plan template conditions := rfl
  have hrows : ∀ plan, (r.relock lock).matching plan limit = r.matching plan limit := fun plan =>
    congrArg Array.toList (r.collect_relock lock plan limit #[] r.order)
  simp only [buildQuery, hplan, hrows]
  cases r.plan template conditions with
  | error err => rfl
  | ok plan =>
    simp only [relock]
    cases r.queries.insert? _ <;> rfl

theorem lockBlind_fetch (connection : ConnectionId) (key : SlotKey) :
    LockBlind fun r => r.fetch connection key := by
  intro r lock
  have hquery : (r.relock lock).query connection key = r.query connection key := rfl
  simp only [fetch, hquery]
  cases r.query connection key <;> rfl

theorem lockBlind_freeQuery (connection : ConnectionId) (key : SlotKey) :
    LockBlind fun r => r.freeQuery connection key := by
  intro r lock
  have hquery : (r.relock lock).query connection key = r.query connection key := rfl
  simp only [freeQuery, hquery]
  cases r.query connection key with
  | error err => rfl
  | ok cursor =>
    simp only [relock]
    cases r.queries.remove? key <;> rfl

/-- **A call that is not about the lock** is served alike under any lock. -/
theorem serve_relock (db : DbHandle) (h : call.isLocking = false) :
    LockBlind fun r => r.serve db call := by
  cases call with
  | create d length => exact (lockBlind_create length).reword _
  | delete d rec => exact (lockBlind_delete rec.key).reword _
  | set d rec index value => exact (lockBlind_set rec.key index value).reword _
  | buildQuery d template conditions limit => exact (lockBlind_buildQuery _ _ _ _).reword _
  | fetch d query => exact (lockBlind_fetch _ _).reword _
  | freeQuery d query => exact (lockBlind_freeQuery _ _).reword _
  | startLock d mode => cases h
  | resumeLock d mode => cases h
  | tryLock d mode => cases h
  | endLock d token mode => cases h
  | _ => exact fun _ _ => rfl

theorem serve_lock (db : DbHandle) (h : call.isLocking = false) (r : Region) :
    (r.serve db call).2.lock = r.lock :=
  -- Under its own lock the region is itself.
  congrArg (fun served => served.2.lock) (serve_relock db h r r.lock)

/-! ## The lock -/

/-- **A request** is granted at once or begins to wait. -/
theorem startLock_eq (r : Region) (mode : LockMode) :
    r.startLock mode =
      if r.lock.canGrant mode then
        (.ok (some (r.tokenOf mode r.lock.nextId)), r.relock (r.lock.grant mode).2)
      else (.ok none, r.relock (r.lock.await mode)) := by
  simp only [startLock, RegionLock.acquire, RegionLock.tryAcquire]
  cases r.lock.canGrant mode <;> rfl

/-- **A request that waits** is granted when it looks again, or nothing changes. -/
theorem resumeLock_eq (r : Region) (mode : LockMode) :
    r.resumeLock mode =
      if r.lock.canGrant mode then
        (.ok (some (r.tokenOf mode r.lock.nextId)), r.relock (r.lock.letIn mode))
      else (.ok none, r) := by
  simp only [resumeLock, RegionLock.resume_eq]
  cases r.lock.canGrant mode <;> rfl

/-- **A request that does not wait** is granted at once, or nothing changes. -/
theorem tryLock_eq (r : Region) (mode : LockMode) :
    r.tryLock mode =
      if r.lock.canGrant mode then
        (.ok (some (r.tokenOf mode r.lock.nextId)), r.relock (r.lock.grant mode).2)
      else (.ok none, r) := by
  simp only [tryLock, RegionLock.tryAcquire]
  cases r.lock.canGrant mode <;> rfl

/-- **A lock is given back** by a token of the region and of the mode under which it is held.
Any other token leaves the lock as it is, but for what was counted. -/
theorem endLock_eq (r : Region) (token : LockToken) (mode : LockMode) :
    r.endLock token mode =
      if token.region ≠ r.id then (.error (.invalidHandle .lock .foreignToken), r)
      else if token.mode ≠ mode then (.error (.lockFailed (.wrongMode token.mode mode)), r)
      else ((r.lock.release token.id mode).1, r.relock (r.lock.release token.id mode).2) := by
  simp only [endLock, checkToken]
  by_cases hregion : token.region ≠ r.id
  · simp only [if_pos hregion]
  · by_cases hmode : token.mode ≠ mode
    · simp only [if_neg hregion, if_pos hmode]
    · simp only [if_neg hregion, if_neg hmode]
      rfl

theorem serve_id (r : Region) (db : DbHandle) (call : Call) : (r.serve db call).2.id = r.id := by
  have hmost : ∃ most, ∀ d length, call = .create d length → length ≤ most := by
    cases call with
    | create d length => exact ⟨length, fun _ _ h => by cases h; exact Nat.le_refl length⟩
    | _ => exact ⟨0, nofun⟩
  obtain ⟨most, hmost⟩ := hmost
  exact (r.serve_change db hmost).id_eq

end Region

end RecordStore
