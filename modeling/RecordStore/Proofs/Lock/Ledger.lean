import RecordStore.Proofs.Engine.Holders
/-!
# Ledger — what was granted on a lock and released since

The ledger of a lock lists its grants, its releases and the releases that it
rejected, in their order. A grant stands if no release of it comes later
(`Stands`). Whatever happens to a lock, it is held for just the grants that
stand, and its counters are those of its ledger (`Accounts`). So a release
succeeds exactly when its grant stands, and ends that grant alone
(`Accounts.releasesExactly`).
-/

namespace RecordStore

/-- An entry in the ledger of a lock. -/
inductive LockEvent where
  | granted (id : LockId) (mode : LockMode)
  | released (id : LockId) (mode : LockMode)
  /-- A release of what was not held. -/
  | rejected (id : LockId) (mode : LockMode)
  deriving DecidableEq, Repr

namespace LockEvent

variable {ledger : List LockEvent} {ev : LockEvent} {id : LockId} {mode : LockMode}

/-! ## Reading a ledger -/

/-- Whether the entry is a grant. -/
def isGranted : LockEvent → Bool
  | granted _ _ => true
  | _ => false

/-- Whether the entry is a release. -/
def isReleased : LockEvent → Bool
  | released _ _ => true
  | _ => false

/-- Whether the entry is a release that was rejected. -/
def isRejected : LockEvent → Bool
  | rejected _ _ => true
  | _ => false

/-- **A grant stands**: it was made, and has not been released since. -/
def Stands (ledger : List LockEvent) (id : LockId) (mode : LockMode) : Prop :=
  ∃ before after, ledger = before ++ granted id mode :: after ∧ released id mode ∉ after

theorem not_stands_nil : ¬ Stands [] id mode := by
  rintro ⟨before, after, hledger, -⟩
  simp at hledger

/-- **What stands after one more entry**: a new grant, and those of before that it does not
release. -/
theorem stands_append_iff :
    Stands (ledger ++ [ev]) id mode ↔
      ev = granted id mode ∨ (Stands ledger id mode ∧ ev ≠ released id mode) := by
  constructor
  · rintro ⟨before, after, hledger, hafter⟩
    rcases List.eq_nil_or_concat after with rfl | ⟨rest, last, rfl⟩
    · -- The grant is the last entry.
      obtain ⟨-, hev⟩ := List.append_inj' hledger rfl
      exact .inl (List.singleton_inj.1 hev)
    · rw [List.concat_eq_append] at hledger hafter
      rw [← List.cons_append, ← List.append_assoc] at hledger
      obtain ⟨hbefore, hlast⟩ := List.append_inj' hledger rfl
      rw [List.mem_append, not_or] at hafter
      refine .inr ⟨⟨before, rest, hbefore, hafter.1⟩, fun hev => hafter.2 ?_⟩
      rw [← hlast, hev]
      exact List.mem_singleton_self _
  · rintro (rfl | ⟨⟨before, after, rfl, hafter⟩, hev⟩)
    · exact ⟨ledger, [], rfl, List.not_mem_nil⟩
    · refine ⟨before, after ++ [ev], by simp, fun hmem => ?_⟩
      rcases List.mem_append.1 hmem with hmem | hmem
      · exact hafter hmem
      · exact hev (List.mem_singleton.1 hmem).symm

end LockEvent

namespace RegionLock

variable {l l' : RegionLock} {id : LockId} {mode : LockMode} {ev : Option LockEvent}
variable {ledger : List LockEvent}

/-! ## What can happen to a lock -/

/-- **What can happen to a lock**, with its entry in the ledger. -/
inductive Moved (l : RegionLock) : Option LockEvent → RegionLock → Prop where
  /-- A request was granted at once. -/
  | granted {mode : LockMode} (h : l.canGrant mode = true) :
      Moved l (some (.granted l.nextId mode)) (l.grant mode).2
  /-- A request that waited was granted. -/
  | resumed {mode : LockMode} (h : l.canGrant mode = true) :
      Moved l (some (.granted l.nextId mode)) (l.letIn mode)
  /-- A request began to wait. -/
  | awaited (mode : LockMode) : Moved l none (l.await mode)
  | released {id : LockId} {mode : LockMode} (h : l.isHeld id mode = true) :
      Moved l (some (.released id mode)) (l.release id mode).2
  | rejected {id : LockId} {mode : LockMode} (h : l.isHeld id mode = false) :
      Moved l (some (.rejected id mode)) (l.release id mode).2
  | kept : Moved l none l

theorem release_of_isHeld (h : l.isHeld id mode = true) :
    l.release id mode = (.ok (), { l.drop id mode with
      counts := { l.counts with releases := l.counts.releases + 1 } }) :=
  if_pos h

theorem release_of_not_isHeld (h : l.isHeld id mode = false) :
    l.release id mode = (.error (.lockFailed (.notHeld id mode)), l.reject) :=
  if_neg (Bool.eq_false_iff.1 h)

/-! ## The number of holders -/

/-- The number of shared locks that are held, and one more if an exclusive one is. -/
def holderCount (l : RegionLock) : Nat := l.readerCount + if l.isWriteLocked then 1 else 0

/-- **A grant makes one holder more**, unless its identifier was given to a reader that still
holds the lock. -/
theorem holderCount_grant (h : l.canGrant mode = true) :
    (l.grant mode).2.holderCount ≤ l.holderCount + 1 ∧
      (l.isHeld l.nextId mode = false → (l.grant mode).2.holderCount = l.holderCount + 1) := by
  cases mode with
  | shared =>
    have hcount : (l.grant .shared).2.holderCount =
        (l.readers.insert l.nextId).length + if l.writer.isSome then 1 else 0 := rfl
    have hbefore : l.holderCount = l.readers.length + if l.writer.isSome then 1 else 0 := rfl
    by_cases hmem : l.nextId ∈ l.readers
    · have hlength : (l.readers.insert l.nextId).length = l.readers.length :=
        List.length_insert_of_mem hmem
      refine ⟨by omega, fun hnew => ?_⟩
      simp [isHeld, hmem] at hnew
    · have hlength : (l.readers.insert l.nextId).length = l.readers.length + 1 :=
        List.length_insert_of_not_mem hmem
      exact ⟨by omega, fun _ => by omega⟩
  | exclusive =>
    obtain ⟨hwriter, hreaders⟩ := canGrant_exclusive_iff.1 h
    have hbefore : l.holderCount = 0 := by
      simp [holderCount, readerCount, isWriteLocked, hwriter, hreaders]
    have hafter : (l.grant .exclusive).2.holderCount = 1 := by
      simp [holderCount, readerCount, isWriteLocked, grant, hold, hreaders]
    exact ⟨by omega, fun _ => by omega⟩

theorem holderCount_letIn (l : RegionLock) (mode : LockMode) :
    (l.letIn mode).holderCount = (l.grant mode).2.holderCount := by
  cases mode <;> rfl

/-- **A release leaves one holder fewer.** -/
theorem holderCount_release (h : l.isHeld id mode = true) :
    (l.release id mode).2.holderCount + 1 = l.holderCount := by
  rw [release_of_isHeld h]
  cases mode with
  | shared =>
    have hmem : id ∈ l.readers := by simpa [isHeld] using h
    have hpos := List.length_pos_of_mem hmem
    have hlength := List.length_erase_of_mem hmem
    show (l.readers.erase id).length + (if l.writer.isSome then 1 else 0) + 1 =
      l.readers.length + if l.writer.isSome then 1 else 0
    omega
  | exclusive =>
    have hwriter : l.writer = some id := by simpa [isHeld] using h
    simp [holderCount, readerCount, isWriteLocked, drop, hwriter]

/-! ## A lock and its ledger -/

/-- **A lock accounts for its ledger**: it is held for the grants that stand, it counts what it
granted, released and rejected, and no more is held than was granted and not released. Its grants
are numbered, so that the two are equal as long as the numbers last. -/
structure Accounts (l : RegionLock) (ledger : List LockEvent) : Prop where
  isHeld_iff : ∀ id mode, l.isHeld id mode = true ↔ LockEvent.Stands ledger id mode
  nodup : l.readers.Nodup
  nextId : l.nextId = LockId.nth (ledger.countP LockEvent.isGranted)
  issued : ∀ id mode, l.isHeld id mode = true →
    ∃ n < ledger.countP LockEvent.isGranted, id = LockId.nth n
  acquisitions : l.counts.acquisitions = ledger.countP LockEvent.isGranted
  releases : l.counts.releases = ledger.countP LockEvent.isReleased
  rejected : l.counts.rejected = ledger.countP LockEvent.isRejected
  holderCount_le : l.counts.releases + l.holderCount ≤ l.counts.acquisitions
  holderCount_eq : l.counts.acquisitions < 2 ^ 64 →
    l.counts.releases + l.holderCount = l.counts.acquisitions

namespace Accounts

theorem new : Accounts {} [] where
  isHeld_iff id mode := by
    refine iff_of_false ?_ LockEvent.not_stands_nil
    cases mode <;> simp [isHeld]
  nodup := List.nodup_nil
  nextId := rfl
  issued id mode h := by cases mode <;> simp [isHeld] at h
  acquisitions := rfl
  releases := rfl
  rejected := rfl
  holderCount_le := Nat.le_refl _
  holderCount_eq _ := rfl

/-- What is neither about the holders nor counted there does not matter. -/
theorem same (h : Accounts l ledger) (hsame : SameHolders l l')
    (hcount : l'.holderCount = l.holderCount)
    (hacquisitions : l'.counts.acquisitions = l.counts.acquisitions)
    (hreleases : l'.counts.releases = l.counts.releases)
    (hrejected : l'.counts.rejected = l.counts.rejected) : Accounts l' ledger where
  isHeld_iff id mode := by rw [hsame.isHeld_eq, h.isHeld_iff]
  nodup := hsame.readers ▸ h.nodup
  nextId := hsame.nextId.trans h.nextId
  issued id mode := by rw [hsame.isHeld_eq]; exact h.issued id mode
  acquisitions := hacquisitions.trans h.acquisitions
  releases := hreleases.trans h.releases
  rejected := hrejected.trans h.rejected
  holderCount_le := by rw [hcount, hacquisitions, hreleases]; exact h.holderCount_le
  holderCount_eq := by rw [hcount, hacquisitions, hreleases]; exact h.holderCount_eq

/-- The next identifier is not one under which the lock is held, as long as the numbers last. -/
theorem not_isHeld_next (h : Accounts l ledger) (hfew : l.counts.acquisitions + 1 < 2 ^ 64)
    (mode : LockMode) : l.isHeld l.nextId mode = false := by
  rw [h.acquisitions] at hfew
  rw [Bool.eq_false_iff]
  intro hheld
  obtain ⟨n, hn, hid⟩ := h.issued _ _ hheld
  rw [h.nextId] at hid
  have heq := LockId.nth_inj (by omega) (by omega) hid
  omega

/-- **A grant is entered.** -/
theorem grown (h : Accounts l ledger) (hgrown : Grown l mode l')
    (hcounts : l'.counts = { l.counts with acquisitions := l.counts.acquisitions + 1 })
    (hcount : l'.holderCount ≤ l.holderCount + 1)
    (hnew : l.isHeld l.nextId mode = false → l'.holderCount = l.holderCount + 1) :
    Accounts l' (ledger ++ [.granted l.nextId mode]) where
  isHeld_iff id m := by
    rw [hgrown.isHeld_iff, LockEvent.stands_append_iff, h.isHeld_iff]
    simp only [LockEvent.granted.injEq, ne_eq, reduceCtorEq, not_false_eq_true, and_true,
      eq_comm (a := l.nextId), eq_comm (a := mode), or_comm]
  nodup := hgrown.nodup h.nodup
  nextId := by
    rw [hgrown.nextId, h.nextId, LockId.next_nth, List.countP_append]
    rfl
  issued id m hheld := by
    rw [List.countP_append, List.countP_singleton]
    rcases (hgrown.isHeld_iff id m).1 hheld with hbefore | ⟨hid, -⟩
    · obtain ⟨n, hn, hnth⟩ := h.issued id m hbefore
      exact ⟨n, Nat.lt_add_right _ hn, hnth⟩
    · exact ⟨_, Nat.lt_succ_self _, hid.trans h.nextId⟩
  acquisitions := by
    rw [hcounts, List.countP_append]
    exact congrArg (· + 1) h.acquisitions
  releases := by
    rw [hcounts, List.countP_append]
    exact h.releases
  rejected := by
    rw [hcounts, List.countP_append]
    exact h.rejected
  holderCount_le := by
    have hle := h.holderCount_le
    rw [hcounts]
    simp only
    omega
  holderCount_eq hfew := by
    rw [hcounts] at hfew ⊢
    simp only at hfew ⊢
    have heq := h.holderCount_eq (by omega)
    have hmore := hnew (h.not_isHeld_next hfew mode)
    omega

/-- **A release is entered.** -/
theorem release (h : Accounts l ledger) (hheld : l.isHeld id mode = true) :
    Accounts (l.release id mode).2 (ledger ++ [.released id mode]) := by
  have hcount := holderCount_release hheld
  have hcounts : (l.release id mode).2.counts =
      { l.counts with releases := l.counts.releases + 1 } := by
    rw [release_of_isHeld hheld]
  constructor
  · intro other m
    rw [isHeld_release_iff h.nodup, LockEvent.stands_append_iff, h.isHeld_iff]
    simp only [reduceCtorEq, false_or, ne_eq, LockEvent.released.injEq, eq_comm (a := other),
      eq_comm (a := m)]
  · exact nodup_release h.nodup id mode
  · rw [nextId_release, h.nextId, List.countP_append]
    rfl
  · intro other m hother
    rw [List.countP_append]
    exact h.issued other m ((isHeld_release_iff h.nodup).1 hother).1
  · rw [hcounts, List.countP_append]
    exact h.acquisitions
  · rw [hcounts, List.countP_append]
    exact congrArg (· + 1) h.releases
  · rw [hcounts, List.countP_append]
    exact h.rejected
  · have hle := h.holderCount_le
    rw [hcounts]
    simp only
    omega
  · intro hfew
    rw [hcounts] at hfew ⊢
    simp only at hfew ⊢
    have heq := h.holderCount_eq hfew
    omega

/-- **A release that is rejected is entered.** -/
theorem reject (h : Accounts l ledger) (id : LockId) (mode : LockMode) :
    Accounts l.reject (ledger ++ [.rejected id mode]) where
  isHeld_iff other m := by
    rw [(sameHolders_reject l).isHeld_eq, LockEvent.stands_append_iff, h.isHeld_iff]
    simp
  nodup := h.nodup
  nextId := by
    rw [List.countP_append]
    exact h.nextId
  issued other m hheld := by
    rw [(sameHolders_reject l).isHeld_eq] at hheld
    rw [List.countP_append]
    exact h.issued other m hheld
  acquisitions := by
    rw [List.countP_append]
    exact h.acquisitions
  releases := by
    rw [List.countP_append]
    exact h.releases
  rejected := by
    rw [List.countP_append]
    exact congrArg (· + 1) h.rejected
  holderCount_le := h.holderCount_le
  holderCount_eq := h.holderCount_eq

/-- **Whatever happens to a lock is accounted for.** -/
theorem moved (h : Accounts l ledger) (hmoved : l.Moved ev l') :
    Accounts l' (ledger ++ ev.toList) := by
  cases hmoved with
  | granted hgrant =>
    obtain ⟨hle, hnew⟩ := holderCount_grant hgrant
    exact h.grown (grown_grant hgrant) rfl hle hnew
  | @resumed mode hgrant =>
    obtain ⟨hle, hnew⟩ := holderCount_grant hgrant
    rw [← holderCount_letIn] at hle hnew
    exact h.grown (grown_letIn hgrant) rfl hle hnew
  | awaited mode =>
    rw [Option.toList_none, List.append_nil]
    exact h.same (sameHolders_await l mode) rfl rfl rfl rfl
  | released hheld => exact h.release hheld
  | @rejected id mode hheld =>
    rw [release_of_not_isHeld hheld]
    exact h.reject id mode
  | kept =>
    rw [Option.toList_none, List.append_nil]
    exact h

end Accounts

/-! ## Releases -/

/-- **Releases of a lock are exact.** A release succeeds exactly when its grant stands, and then
ends that grant alone. Any other release is rejected: it changes no holder and is counted. The
lock counts just what its ledger lists. -/
structure ReleasesExactly (l : RegionLock) (ledger : List LockEvent) : Prop where
  ok_iff : ∀ id mode, (l.release id mode).1 = .ok () ↔ LockEvent.Stands ledger id mode
  isHeld_iff : ∀ id mode, l.isHeld id mode = true ↔ LockEvent.Stands ledger id mode
  ends : ∀ id mode, LockEvent.Stands ledger id mode → ∀ other m,
    (l.release id mode).2.isHeld other m = true ↔
      l.isHeld other m = true ∧ ¬ (other = id ∧ m = mode)
  waiting : ∀ id mode, (l.release id mode).2.waitingWriters = l.waitingWriters
  rejects : ∀ id mode, ¬ LockEvent.Stands ledger id mode →
    l.release id mode = (.error (.lockFailed (.notHeld id mode)),
      { l with counts := { l.counts with rejected := l.counts.rejected + 1 } })
  acquisitions : l.counts.acquisitions = ledger.countP LockEvent.isGranted
  releases : l.counts.releases = ledger.countP LockEvent.isReleased
  rejected : l.counts.rejected = ledger.countP LockEvent.isRejected
  held_le : l.counts.releases + (l.readerCount + if l.isWriteLocked then 1 else 0) ≤
    l.counts.acquisitions
  /-- As long as the numbers of the grants last. -/
  held_eq : l.counts.acquisitions < 2 ^ 64 →
    l.counts.acquisitions - l.counts.releases =
      l.readerCount + if l.isWriteLocked then 1 else 0

theorem Accounts.releasesExactly (h : Accounts l ledger) : ReleasesExactly l ledger where
  ok_iff id mode := by
    rw [← h.isHeld_iff]
    cases hheld : l.isHeld id mode with
    | true => simp [release_of_isHeld hheld]
    | false => simp [release_of_not_isHeld hheld]
  isHeld_iff := h.isHeld_iff
  ends id mode _ other m := isHeld_release_iff h.nodup
  waiting id mode := waitingWriters_release l id mode
  rejects id mode hstands := by
    rw [← h.isHeld_iff, Bool.not_eq_true] at hstands
    exact release_of_not_isHeld hstands
  acquisitions := h.acquisitions
  releases := h.releases
  rejected := h.rejected
  held_le := h.holderCount_le
  held_eq hfew := by
    have heq := h.holderCount_eq hfew
    simp only [holderCount] at heq
    omega

end RegionLock

namespace Contention

variable {α : Type} {c : Contention α}

/-! ## Those who wait -/

/-- The entry of a move in the ledger, by what it came to. -/
def lockEvent? : Move α → Event α → Option LockEvent
  | _, .granted g => some (.granted g.id g.mode)
  | _, .resumed g => some (.granted g.id g.mode)
  | _, .released id mode => some (.released id mode)
  | .release id mode, .nothing => some (.rejected id mode)
  | _, _ => none

/-- The ledger of the lock in moves. -/
def ledger (c : Contention α) : List (Move α) → List LockEvent
  | [] => []
  | m :: moves => (lockEvent? m (c.move m).1).toList ++ (c.move m).2.ledger moves

/-- **A move is one of the things that can happen to a lock.** -/
theorem moved_move (c : Contention α) (m : Move α) :
    c.lock.Moved (lockEvent? m (c.move m).1) (c.move m).2.lock := by
  cases m with
  | acquire label mode =>
    simp only [move, arrive, RegionLock.acquire, RegionLock.tryAcquire]
    cases h : c.lock.canGrant mode with
    | true => exact .granted h
    | false => exact .awaited mode
  | attempt label mode =>
    simp only [move, attempt, RegionLock.tryAcquire]
    cases h : c.lock.canGrant mode with
    | true => exact .granted h
    | false => exact .kept
  | recheck place =>
    simp only [move, recheck]
    cases c.waiting[place]? with
    | none => exact .kept
    | some r =>
      by_cases hawake : r.awake = true
      · simp only [if_pos hawake, RegionLock.resume_eq]
        cases h : c.lock.canGrant r.mode with
        | true => exact .resumed h
        | false => exact .kept
      · simp only [if_neg hawake]
        exact .kept
  | release id mode =>
    cases h : c.lock.isHeld id mode with
    | true =>
      have hmoved := RegionLock.Moved.released h
      simp only [move, release, RegionLock.release_of_isHeld h] at hmoved ⊢
      exact hmoved
    | false =>
      have hmoved := RegionLock.Moved.rejected h
      simp only [move, release, RegionLock.release_of_not_isHeld h] at hmoved ⊢
      exact hmoved

theorem accounts_after {past : List LockEvent} (h : c.lock.Accounts past) (moves : List (Move α)) :
    (c.after moves).lock.Accounts (past ++ c.ledger moves) := by
  induction moves generalizing c past with
  | nil =>
    rw [after_nil, ledger, List.append_nil]
    exact h
  | cons m moves ih =>
    have hrest := ih (h.moved (c.moved_move m))
    rw [List.append_assoc] at hrest
    exact hrest

/-- **Whatever the order of the moves, releases are exact.** -/
theorem releasesExactly_after (moves : List (Move α)) :
    (({} : Contention α).after moves).lock.ReleasesExactly (({} : Contention α).ledger moves) := by
  have h := accounts_after (c := ({} : Contention α)) RegionLock.Accounts.new moves
  rw [List.nil_append] at h
  exact h.releasesExactly

/-- **Those who wait are woken by a release that succeeds**, and by no other. -/
theorem release_eq (c : Contention α) (id : LockId) (mode : LockMode) :
    c.release id mode =
      if (c.lock.release id mode).1 = .ok () then
        (.ok (), { lock := (c.lock.release id mode).2, waiting := wakeAll c.waiting })
      else
        (.error (.lockFailed (.notHeld id mode)), { c with lock := c.lock.reject }) := by
  cases h : c.lock.isHeld id mode with
  | true => simp only [release, RegionLock.release_of_isHeld h, if_true]
  | false => simp only [release, RegionLock.release_of_not_isHeld h, reduceCtorEq, if_false]

end Contention

end RecordStore
