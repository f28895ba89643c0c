import RecordStore.Lock.Contention
import RecordStore.Proofs.Engine.Tokens
/-!
# Failing calls — what an error leaves behind

A call that fails leaves the engine as it was, wherever it failed: before it
reached its region, or in the region after space was taken for it. There is
one exception, which is by design: a lock counts the releases that it
rejects (`failed_call_is_atomic`).
-/

namespace RecordStore

namespace RegionLock

/-- The lock after it rejected a release. -/
def reject (l : RegionLock) : RegionLock :=
  { l with counts := { l.counts with rejected := l.counts.rejected + 1 } }

/-- **A release that fails** is of a lock that is not held, and is counted. -/
theorem release_eq_error {l : RegionLock} {id : LockId} {mode : LockMode} {err : Error}
    (h : (l.release id mode).1 = .error err) :
    l.isHeld id mode = false ∧ err = .lockFailed (.notHeld id mode) ∧
      (l.release id mode).2 = l.reject := by
  unfold release at h ⊢
  cases hheld : l.isHeld id mode with
  | true =>
    rw [hheld, if_pos rfl] at h
    cases h
  | false =>
    rw [hheld, if_neg Bool.false_ne_true] at h
    cases h
    exact ⟨rfl, rfl, rfl⟩

end RegionLock

namespace Contention

/-- **Those who wait sleep on** when a release fails. -/
theorem release_eq_error {α : Type} {c : Contention α} {id : LockId} {mode : LockMode}
    {err : Error} (h : (c.release id mode).1 = .error err) :
    (c.release id mode).2 = { c with lock := c.lock.reject } := by
  unfold release at h ⊢
  rcases hreleased : c.lock.release id mode with ⟨answer, lock⟩
  cases answer with
  | ok => simp only [hreleased, reduceCtorEq] at h
  | error err' =>
    have hlock := (RegionLock.release_eq_error (congrArg Prod.fst hreleased)).2.2
    rw [hreleased] at hlock
    rw [← hlock]

end Contention

namespace Region

/-- **A region that refuses to release its lock** is as it was, unless the token fits it: then
the lock counts the release. -/
theorem endLock_eq_error {r : Region} {token : LockToken} {mode : LockMode} {err : Error}
    (h : (r.endLock token mode).1 = .error err) :
    (r.endLock token mode).2 = r ∨
      token.region = r.id ∧ token.mode = mode ∧ r.lock.isHeld token.id mode = false ∧
        err = .lockFailed (.notHeld token.id mode) ∧
        (r.endLock token mode).2 = r.relock r.lock.reject := by
  rw [endLock_eq] at h ⊢
  by_cases hregion : token.region = r.id
  · by_cases hmode : token.mode = mode
    · rw [if_neg (not_not.2 hregion), if_neg (not_not.2 hmode)] at h ⊢
      obtain ⟨hheld, herr, hlock⟩ := RegionLock.release_eq_error h
      exact .inr ⟨hregion, hmode, hheld, herr, congrArg r.relock hlock⟩
    · rw [if_neg (not_not.2 hregion), if_pos hmode]
      exact .inl rfl
  · rw [if_pos hregion]
    exact .inl rfl

end Region

namespace Engine

variable {e : Engine} {db : DbHandle} {token : LockToken} {mode : LockMode} {err : Error}

/-- A lock that is not released in an engine. -/
theorem endLock_eq_error (h : (e.perform (.endLock db token mode)).1 = .error err) :
    (e.perform (.endLock db token mode)).2 = e ∨
      ∃ place r, e.resolve db = .ok (place, r) ∧ token.region = db.region ∧ token.mode = mode ∧
        r.lock.isHeld token.id mode = false ∧ err = .lockFailed (.notHeld token.id mode) ∧
        (e.perform (.endLock db token mode)).2 =
          e.putRegion place (r.relock r.lock.reject) := by
  have hcall : e.perform (.endLock db token mode) =
      e.onRegion db fun r => r.serve db (.endLock db token mode) :=
    perform_eq rfl rfl
  rw [hcall] at h ⊢
  unfold onRegion at h ⊢
  cases hr : e.resolve db with
  | error err' => exact .inl rfl
  | ok found =>
    obtain ⟨place, r⟩ := found
    simp only [hr] at h ⊢
    obtain ⟨-, hget, hid⟩ := resolve_eq_ok_iff.1 hr
    rcases Region.endLock_eq_error (Region.error_of_reword h) with
      hsame | ⟨hregion, hmode, hheld, herr, hlock⟩
    · refine .inl ?_
      rw [show (r.serve db (.endLock db token mode)).2 = r from hsame]
      exact putRegion_self hget
    · refine .inr ⟨place, r, rfl, hregion.trans hid, hmode, hheld, herr, ?_⟩
      rw [show (r.serve db (.endLock db token mode)).2 = r.relock r.lock.reject from hlock]

/-- **A call that fails leaves everything as it was**: the registry, the attachments, the next
numbers, and of each region its records, queries, space and lock. Only a token that fits its
region, but whose lock is not held, is counted by the lock; those who wait for it sleep on. -/
theorem failed_call_is_atomic {α : Type} :
    (∀ (e : Engine) (call : Call) (err : Error), (e.perform call).1 = .error err →
      (e.perform call).2 = e ∨
        ∃ db token mode place r, call = .endLock db token mode ∧
          e.resolve db = .ok (place, r) ∧ token.region = db.region ∧ token.mode = mode ∧
          r.lock.isHeld token.id mode = false ∧ err = .lockFailed (.notHeld token.id mode) ∧
          (e.perform call).2 = e.putRegion place (r.relock r.lock.reject)) ∧
      ∀ (c : Contention α) (id : LockId) (mode : LockMode) (err : Error),
        (c.release id mode).1 = .error err →
          (c.release id mode).2 = { c with lock := c.lock.reject } := by
  refine ⟨fun e call err h => ?_, fun c id mode err h => Contention.release_eq_error h⟩
  by_cases hlock : ∃ db token mode, call = .endLock db token mode
  · obtain ⟨db, token, mode, rfl⟩ := hlock
    rcases endLock_eq_error h with hsame | ⟨place, r, hrest⟩
    · exact .inl hsame
    · exact .inr ⟨db, token, mode, place, r, rfl, hrest⟩
  · exact .inl (perform_error h fun db token mode heq => hlock ⟨db, token, mode, heq⟩)

/-- A query that was never built cannot be freed, and nothing comes of the attempt. -/
theorem failed_call_is_atomic_forged :
    let e := (start {}).run twoShared
    let call := Call.freeQuery firstShared (firstShared.query ⟨0, 1⟩)
    (e.perform call).1 = .error (.badQuery .queryFreed) ∧ (e.perform call).2 = e := by
  intro e call
  have hfails : (e.perform call).1 = .error (.badQuery .queryFreed) := rfl
  refine ⟨hfails, ?_⟩
  rcases (@failed_call_is_atomic Unit).1 e call _ hfails with hsame | hlock
  · exact hsame
  · -- It is no release of a lock.
    obtain ⟨db, token, mode, place, r, hcall, -⟩ := hlock
    injection hcall

end Engine

end RecordStore
