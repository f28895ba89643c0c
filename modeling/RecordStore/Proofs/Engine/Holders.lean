import RecordStore.Proofs.Engine.Failing
import RecordStore.Proofs.Numbering
/-!
# Holders — for which tokens a region holds its lock

What becomes of a lock is said here by the identifiers and modes under
which it is held: a grant adds the next one (`Grown`), a release takes one
away (`isHeld_release_iff`), and whatever else is done leaves them alone
(`SameHolders`). A token names one of them, so the tokens for which a region
holds its lock come and go in the same way.
-/

namespace RecordStore

namespace RegionLock

variable {l l' : RegionLock} {id other : LockId} {mode m : LockMode}

/-- The lock is held as it was, and no identifier was given out. -/
structure SameHolders (l l' : RegionLock) : Prop where
  isHeld_eq : ∀ id mode, l'.isHeld id mode = l.isHeld id mode
  nextId : l'.nextId = l.nextId
  readers : l'.readers = l.readers

theorem SameHolders.refl (l : RegionLock) : SameHolders l l := ⟨fun _ _ => rfl, rfl, rfl⟩

theorem sameHolders_await (l : RegionLock) (mode : LockMode) : SameHolders l (l.await mode) :=
  ⟨fun _ m => by cases m <;> rfl, rfl, rfl⟩

theorem sameHolders_reject (l : RegionLock) : SameHolders l l.reject :=
  ⟨fun _ m => by cases m <;> rfl, rfl, rfl⟩

/-- The lock is also held under the next identifier, in the mode. -/
structure Grown (l : RegionLock) (mode : LockMode) (l' : RegionLock) : Prop where
  isHeld_iff : ∀ id m, l'.isHeld id m = true ↔
    l.isHeld id m = true ∨ (id = l.nextId ∧ m = mode)
  nextId : l'.nextId = l.nextId.next
  nodup : l.readers.Nodup → l'.readers.Nodup

/-- **A grant adds one holder.** -/
theorem grown_grant (h : l.canGrant mode = true) : Grown l mode (l.grant mode).2 where
  isHeld_iff id m := by
    cases mode with
    | shared =>
      cases m with
      | shared =>
        simp only [isHeld, grant, hold, List.contains_iff_mem, List.mem_insert_iff, and_true,
          or_comm]
      | exclusive => simp [isHeld, grant, hold]
    | exclusive =>
      -- Nobody held the lock, so that the new holder is the only one.
      obtain ⟨hwriter, hreaders⟩ := canGrant_exclusive_iff.1 h
      cases m with
      | shared => simp [isHeld, grant, hold, hreaders]
      | exclusive => simp [isHeld, grant, hold, hwriter, @eq_comm _ l.nextId]
  nextId := by cases mode <;> rfl
  nodup hnodup := by
    cases mode with
    | shared => exact hnodup.insert
    | exclusive => exact hnodup

/-- A request that waited is granted as a new one would be. -/
theorem grown_letIn (h : l.canGrant mode = true) : Grown l mode (l.letIn mode) := by
  have hgrant := grown_grant h
  refine ⟨fun id m => ?_, ?_, ?_⟩
  · rw [← hgrant.isHeld_iff]
    cases mode <;> cases m <;> rfl
  · rw [← hgrant.nextId]
    cases mode <;> rfl
  · intro hnodup
    have hkept := hgrant.nodup hnodup
    cases mode <;> exact hkept

/-- **A release takes one holder away**, if it is one. -/
theorem isHeld_release_iff (hnodup : l.readers.Nodup) :
    (l.release id mode).2.isHeld other m = true ↔
      l.isHeld other m = true ∧ ¬ (other = id ∧ m = mode) := by
  unfold release
  cases hheld : l.isHeld id mode with
  | false =>
    have hkept : l.reject.isHeld other m = true ↔
        l.isHeld other m = true ∧ ¬ (other = id ∧ m = mode) := by
      rw [(sameHolders_reject l).isHeld_eq]
      refine (and_iff_left_of_imp fun hother heq => ?_).symm
      rw [heq.1, heq.2, hheld] at hother
      cases hother
    exact hkept
  | true =>
    rw [if_pos rfl]
    cases mode with
    | shared =>
      cases m with
      | shared =>
        simp only [isHeld, drop, List.contains_iff_mem, hnodup.mem_erase_iff, and_true, ne_eq]
        exact and_comm
      | exclusive => simp [isHeld, drop]
    | exclusive =>
      cases m with
      | shared => simp [isHeld, drop]
      | exclusive =>
        simp only [isHeld, beq_iff_eq] at hheld
        simp [isHeld, drop, hheld, @eq_comm _ id]

theorem nextId_release (l : RegionLock) (id : LockId) (mode : LockMode) :
    (l.release id mode).2.nextId = l.nextId := by
  unfold release
  split
  · cases mode <;> rfl
  · rfl

theorem waitingWriters_release (l : RegionLock) (id : LockId) (mode : LockMode) :
    (l.release id mode).2.waitingWriters = l.waitingWriters := by
  unfold release
  split
  · cases mode <;> rfl
  · rfl

theorem nodup_release (hnodup : l.readers.Nodup) (id : LockId) (mode : LockMode) :
    (l.release id mode).2.readers.Nodup := by
  unfold release
  split
  · cases mode with
    | shared => exact hnodup.erase id
    | exclusive => exact hnodup
  · exact hnodup

end RegionLock

namespace Region

variable {r r' : Region} {token t : LockToken} {mode : LockMode}

/-- What a request for the lock of a region can come to. -/
inductive Asked (r : Region) (mode : LockMode) :
    Except Error (Option LockToken) → Region → Prop where
  | granted {lock : RegionLock} (h : RegionLock.Grown r.lock mode lock) :
      Asked r mode (.ok (some (r.tokenOf mode r.lock.nextId))) (r.relock lock)
  | denied {lock : RegionLock} (h : RegionLock.SameHolders r.lock lock) :
      Asked r mode (.ok none) (r.relock lock)

theorem asked_startLock (r : Region) (mode : LockMode) :
    Asked r mode (r.startLock mode).1 (r.startLock mode).2 := by
  rw [startLock_eq]
  split
  · rename_i hgrant
    exact .granted (RegionLock.grown_grant hgrant)
  · exact .denied (RegionLock.sameHolders_await r.lock mode)

theorem asked_resumeLock (r : Region) (mode : LockMode) :
    Asked r mode (r.resumeLock mode).1 (r.resumeLock mode).2 := by
  rw [resumeLock_eq]
  split
  · rename_i hgrant
    exact .granted (RegionLock.grown_letIn hgrant)
  · exact .denied (.refl r.lock)

theorem asked_tryLock (r : Region) (mode : LockMode) :
    Asked r mode (r.tryLock mode).1 (r.tryLock mode).2 := by
  rw [tryLock_eq]
  split
  · rename_i hgrant
    exact .granted (RegionLock.grown_grant hgrant)
  · exact .denied (.refl r.lock)

/-- **A grant adds its token** to those for which the region holds its lock. -/
theorem holdsFor_granted_iff {lock : RegionLock} (h : RegionLock.Grown r.lock mode lock) :
    (r.relock lock).HoldsFor t ↔ r.HoldsFor t ∨ t = r.tokenOf mode r.lock.nextId := by
  obtain ⟨region, id, m⟩ := t
  simp only [HoldsFor, relock, tokenOf, h.isHeld_iff, LockToken.mk.injEq, and_or_left,
    eq_comm (a := r.id)]

theorem holdsFor_same_iff (hid : r'.id = r.id) (h : RegionLock.SameHolders r.lock r'.lock) :
    r'.HoldsFor t ↔ r.HoldsFor t := by
  simp only [HoldsFor, hid, h.isHeld_eq]

/-- The lock of a region after a release. -/
theorem relock_endLock (r : Region) (token : LockToken) (mode : LockMode) :
    ∃ lock, (r.endLock token mode).2 = r.relock lock ∧ lock.nextId = r.lock.nextId ∧
      lock.waitingWriters = r.lock.waitingWriters ∧
      (r.lock.readers.Nodup → lock.readers.Nodup) := by
  rw [endLock_eq]
  split
  · exact ⟨r.lock, rfl, rfl, rfl, fun h => h⟩
  · split
    · exact ⟨r.lock, rfl, rfl, rfl, fun h => h⟩
    · exact ⟨_, rfl, RegionLock.nextId_release _ _ _, RegionLock.waitingWriters_release _ _ _,
        fun hnodup => RegionLock.nodup_release hnodup _ _⟩

/-- **A token that is given back** is one for which the region no longer holds its lock. -/
theorem holdsFor_endLock_iff (hnodup : r.lock.readers.Nodup) :
    (r.endLock token token.mode).2.HoldsFor t ↔ r.HoldsFor t ∧ t ≠ token := by
  rw [endLock_eq]
  by_cases hregion : token.region = r.id
  · rw [if_neg (not_not.2 hregion), if_neg (not_not.2 rfl)]
    obtain ⟨region, id, m⟩ := t
    obtain ⟨tregion, tid, tmode⟩ := token
    simp only at hregion
    subst hregion
    simp only [HoldsFor, relock, RegionLock.isHeld_release_iff hnodup, ne_eq,
      LockToken.mk.injEq, and_assoc]
    refine and_congr_right fun hid => and_congr_right fun _ => ?_
    simp only [← hid, true_and]
  · -- A token of another region is not one of these.
    rw [if_pos hregion]
    refine (and_iff_left_of_imp fun hheld heq => hregion ?_).symm
    rw [← heq]
    exact hheld.1.symm

end Region

namespace Engine

variable {e : Engine} {place p : Nat} {r r' : Region} {t : LockToken}

theorem heldAt_iff (hr : e.regions[place]? = some r) : e.HeldAt place t ↔ r.HoldsFor t := by
  simp only [HeldAt, hr, Option.some.injEq, exists_eq_left']

theorem heldAt_putRegion (hr : e.regions[place]? = some r) :
    (e.putRegion place r').HeldAt p t ↔
      (p = place ∧ r'.HoldsFor t) ∨ (p ≠ place ∧ e.HeldAt p t) := by
  have hput : (e.putRegion place r').regions[p]? = _ := getElem?_putRegion hr p
  by_cases hp : p = place
  · rw [if_pos hp] at hput
    rw [heldAt_iff hput]
    simp only [hp, true_and, ne_eq, not_true, false_and, or_false]
  · rw [if_neg hp] at hput
    simp only [HeldAt, hput, hp, false_and, ne_eq, not_false_eq_true, true_and, false_or]

end Engine

end RecordStore
