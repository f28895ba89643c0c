import Mathlib.Data.List.Perm.Subperm
import RecordStore.Proofs.Lock.Exclusion
/-!
# Waking — no request sleeps that could be granted

Only a release wakes those who wait, although other moves change what a
request waits for. Still a request never sleeps while it could be granted:
whatever else happens keeps up what holds it up (`Settled.change`). So a
free lock has nobody in its line, or somebody who is awake and will be let
in. And those who wait for the lock exclusively are let in before anybody
comes to share it (`queue_after`, `no_wakeup_is_lost`).
-/

namespace RecordStore

namespace RegionLock

variable {l : RegionLock} {mode other : LockMode}

/-! ## What holds a request up goes on to do so -/

/-- Under an exclusive lock nothing is granted. -/
theorem canGrant_of_writer (h : l.writer ≠ none) : l.canGrant mode = false := by
  rw [Bool.eq_false_iff]
  intro hgrant
  cases mode with
  | shared => exact h (canGrant_shared_iff.1 hgrant).1
  | exclusive => exact h (canGrant_exclusive_iff.1 hgrant).1

theorem canGrant_grant (h : l.canGrant other = false) :
    (l.grant mode).2.canGrant other = false := by
  cases mode with
  | exclusive => exact canGrant_of_writer (by simp [grant, hold])
  | shared =>
    cases other with
    | shared => exact h
    | exclusive =>
      -- The new reader keeps writers out.
      rw [Bool.eq_false_iff]
      intro hgrant
      have hreaders : l.nextId ∈ (l.grant .shared).2.readers := List.mem_insert_self
      rw [(canGrant_exclusive_iff.1 hgrant).2] at hreaders
      cases hreaders

theorem canGrant_letIn (h : l.canGrant other = false) : (l.letIn mode).canGrant other = false := by
  cases mode with
  | exclusive => exact canGrant_of_writer (by simp [letIn, grant, hold])
  | shared =>
    have hgrant : (l.grant .shared).2.canGrant other = false := canGrant_grant h
    exact hgrant

theorem canGrant_await (h : l.canGrant other = false) : (l.await mode).canGrant other = false := by
  cases other with
  | exclusive => exact h
  | shared =>
    rw [Bool.eq_false_iff, ne_eq, canGrant_shared_iff] at h ⊢
    rintro ⟨hwriter, hnone⟩
    refine h ⟨hwriter, ?_⟩
    cases mode with
    | shared => exact hnone
    | exclusive => cases hnone

end RegionLock

namespace Contention

variable {α : Type} {c c' : Contention α} {mode : LockMode} {id : LockId}
variable {ev : Event α} {g : LockGrant α} {past : List (Event α)} {r : LockRequest α}

/-! ## Who sleeps -/

/-- What holds a request up: an exclusive one, that the lock is held at all; a shared one,
that it is held exclusively or awaited so. -/
def Blocked (c : Contention α) : LockMode → Prop
  | .exclusive => c.lock.isWriteLocked = true ∨ 0 < c.lock.readerCount
  | .shared => c.lock.isWriteLocked = true ∨ c.awaits .exclusive = true

theorem blocked_iff (h : c.lock.waitingWriters = c.count .exclusive) :
    c.Blocked mode ↔ c.lock.canGrant mode = false := by
  have hwriter : c.lock.isWriteLocked = true ↔ ¬ c.lock.writer = none := by
    simp [RegionLock.isWriteLocked, Option.isSome_iff_ne_none]
  rw [Bool.eq_false_iff, ne_eq]
  cases mode with
  | shared =>
    rw [RegionLock.canGrant_shared_iff, Blocked, awaits_iff, hwriter, h]
    by_cases hnone : c.lock.writer = none <;> simp [hnone, Nat.pos_iff_ne_zero]
  | exclusive =>
    rw [RegionLock.canGrant_exclusive_iff, Blocked, RegionLock.readerCount, List.length_pos_iff,
      hwriter]
    tauto

/-- **Those who sleep cannot be granted.** -/
def Settled (c : Contention α) : Prop :=
  ∀ r ∈ c.waiting, r.awake = false → c.lock.canGrant r.mode = false

/-- **A move leaves no request asleep that could be granted.** -/
theorem Settled.change (h : c.Settled) (hchange : Change c ev c') : c'.Settled := by
  intro r hr hasleep
  cases hchange with
  | granted label mode _ => exact RegionLock.canGrant_grant (h r hr hasleep)
  | queued label mode hgrant =>
    rcases List.mem_append.1 hr with hr | hr
    · exact RegionLock.canGrant_await (h r hr hasleep)
    · rw [List.mem_singleton.1 hr]
      exact RegionLock.canGrant_await hgrant
  | @resumed front back _ hline _ _ =>
    have hmem : r ∈ c.waiting := by
      rw [hline]
      exact List.mem_append.2 ((List.mem_append.1 hr).imp_right (List.mem_cons_of_mem _))
    exact RegionLock.canGrant_letIn (h r hmem hasleep)
  | @asleep front back x hline _ hgrant =>
    rcases List.mem_append.1 hr with hr | hr
    · exact h r (hline ▸ List.mem_append_left _ hr) hasleep
    · rcases List.mem_cons.1 hr with rfl | hr
      · exact hgrant
      · exact h r (hline ▸ List.mem_append_right _ (List.mem_cons_of_mem _ hr)) hasleep
  | released id mode _ counts =>
    -- A release leaves nobody asleep.
    obtain ⟨x, -, rfl⟩ := List.mem_map.1 hr
    cases hasleep
  | idle counts => exact h r hr hasleep

theorem settled_after (moves : List (Move α)) : (({} : Contention α).after moves).Settled :=
  after_induction (P := fun c _ => c.Settled) (fun r hr => by cases hr)
    (fun _ _ _ _ h hchange => h.change hchange) moves

/-! ## Who can be granted -/

/-- A request that could be granted is awake, and is granted as soon as it looks. -/
theorem Settled.resumes (h : c.Settled) (hr : r ∈ c.waiting)
    (hgrant : c.lock.canGrant r.mode = true) :
    r.awake = true ∧ ∃ place, (c.move (.recheck place)).1 =
      .resumed ⟨r.label, r.mode, c.lock.nextId⟩ := by
  have hawake : r.awake = true := by
    cases hawake : r.awake with
    | true => rfl
    | false =>
      rw [h r hr hawake] at hgrant
      cases hgrant
  obtain ⟨front, back, hline⟩ := List.append_of_mem hr
  exact ⟨hawake, front.length, congrArg Prod.fst (recheck_resumed hline hawake hgrant)⟩

/-- In the line of a free lock there is somebody who could be granted. -/
theorem exists_canGrant (h : c.lock.waitingWriters = c.count .exclusive)
    (hfree : c.lock.isFree = true) (hline : c.waiting ≠ []) :
    ∃ r ∈ c.waiting, c.lock.canGrant r.mode = true := by
  cases hawaits : c.awaits .exclusive with
  | true =>
    obtain ⟨r, hr, hmode⟩ := List.any_eq_true.1 hawaits
    refine ⟨r, hr, ?_⟩
    rw [of_decide_eq_true hmode]
    exact hfree
  | false =>
    -- All requests are to share the lock, and no writer holds or awaits it.
    obtain ⟨r, hr⟩ := List.exists_mem_of_ne_nil _ hline
    have hnone : c.count .exclusive = 0 := by
      have hnone : ¬ 0 < c.count .exclusive := awaits_iff.not.1 (by rw [hawaits]; decide)
      omega
    refine ⟨r, hr, ?_⟩
    cases hmode : r.mode with
    | exclusive => exact hfree
    | shared =>
      exact RegionLock.canGrant_shared_iff.2 ⟨(RegionLock.isFree_iff.1 hfree).1, h.trans hnone⟩

/-! ## The order of service -/

/-- Those who wait in a mode, in the order of their arrival. -/
def queue (c : Contention α) (mode : LockMode) : List α :=
  (c.waiting.filter fun r => r.mode = mode).map LockRequest.label

/-- Who began to wait in a mode. -/
def Event.queued? (mode : LockMode) : Event α → Option α
  | .queued label m => if m = mode then some label else none
  | _ => none

/-- Who was granted the lock in a mode after a wait. -/
def Event.served? (mode : LockMode) : Event α → Option α
  | .resumed g => if g.mode = mode then some g.label else none
  | _ => none

/-- Those who began to wait in a mode, by the events. -/
def queuedIn (mode : LockMode) (past : List (Event α)) : List α :=
  past.filterMap (Event.queued? mode)

/-- Those who were granted the lock in a mode after a wait, by the events. -/
def servedIn (mode : LockMode) (past : List (Event α)) : List α :=
  past.filterMap (Event.served? mode)

theorem queuedIn_cons (mode : LockMode) (ev : Event α) (past : List (Event α)) :
    queuedIn mode (ev :: past) = (ev.queued? mode).toList ++ queuedIn mode past := by
  cases h : ev.queued? mode <;> simp [queuedIn, h]

theorem servedIn_cons (mode : LockMode) (ev : Event α) (past : List (Event α)) :
    servedIn mode (ev :: past) = (ev.served? mode).toList ++ servedIn mode past := by
  cases h : ev.served? mode <;> simp [servedIn, h]

/-- A move takes from a queue whom it serves, and adds to it whom it lets wait. -/
theorem queue_change (hchange : Change c ev c') (mode : LockMode) :
    (c'.queue mode ++ (ev.served? mode).toList).Perm
      (c.queue mode ++ (ev.queued? mode).toList) := by
  cases hchange with
  | granted label m _ => exact .refl _
  | queued label m _ =>
    by_cases hm : m = mode <;> simp [queue, Event.served?, Event.queued?, hm]
  | @resumed front back r hline _ _ =>
    by_cases hm : r.mode = mode
    · -- The one who is served leaves the middle of the queue.
      simp only [queue, Event.served?, Event.queued?, hline, hm, if_true, Option.toList_some,
        Option.toList_none, List.filter_append, List.map_append, decide_true,
        List.filter_cons_of_pos, List.map_cons, List.append_nil, List.append_assoc]
      exact (List.perm_append_singleton _ _).append_left _
    · simp [queue, Event.served?, Event.queued?, hline, hm]
  | @asleep front back r hline _ _ =>
    by_cases hm : r.mode = mode <;> simp [queue, Event.served?, Event.queued?, hline, hm]
  | released id m _ counts =>
    simp [queue, Event.served?, Event.queued?, wakeAll, List.filter_map, Function.comp_def]
  | idle counts => exact .refl _

/-- **Who waited, or began to wait since, still waits or was served.** -/
theorem queue_after (c : Contention α) (mode : LockMode) (moves : List (Move α)) :
    ((c.after moves).queue mode ++ servedIn mode (c.events moves)).Perm
      (c.queue mode ++ queuedIn mode (c.events moves)) := by
  induction moves generalizing c with
  | nil => exact .refl _
  | cons m moves ih =>
    have hfirst := queue_change (c.change_move m) mode
    have hrest := ih (c.move m).2
    rw [after_cons, events, servedIn_cons, queuedIn_cons]
    generalize c.move m = moved at hfirst hrest ⊢
    obtain ⟨ev, c₁⟩ := moved
    -- The rest serves from the queue that the first move leaves.
    calc List.Perm _ ((c₁.after moves).queue mode ++ servedIn mode (c₁.events moves) ++
          (ev.served? mode).toList) := by
          rw [List.append_assoc]
          exact List.perm_append_comm.append_left _
      List.Perm _ (c₁.queue mode ++ queuedIn mode (c₁.events moves) ++
          (ev.served? mode).toList) := hrest.append_right _
      List.Perm _ (c₁.queue mode ++ (ev.served? mode).toList ++
          queuedIn mode (c₁.events moves)) := by
          rw [List.append_assoc, List.append_assoc]
          exact List.perm_append_comm.append_left _
      List.Perm _ (c.queue mode ++ ((ev.queued? mode).toList ++
          queuedIn mode (c₁.events moves))) := by
          rw [← List.append_assoc]
          exact hfirst.append_right _

/-- Where nobody waits in a mode any more, all who waited before have been served. -/
theorem queue_subperm_served (c : Contention α) (mode : LockMode) (moves : List (Move α))
    (hnone : (c.after moves).awaits mode = false) :
    (c.queue mode).Subperm (servedIn mode (c.events moves)) := by
  have hqueue : (c.after moves).queue mode = [] := by
    rw [queue, List.map_eq_nil_iff, List.filter_eq_nil_iff]
    simpa [awaits] using hnone
  have hperm := queue_after c mode moves
  rw [hqueue, List.nil_append] at hperm
  exact (List.sublist_append_left _ _).subperm.trans hperm.symm.subperm

/-- A request to share the lock is granted only when all who waited for it exclusively have
been served. -/
theorem queue_subperm_of_shared (before : List (Move α))
    (h : (c.after before).lock.waitingWriters = (c.after before).count .exclusive) {m : Move α}
    (hgrant : ((c.after before).move m).1.grant? = some g) (hmode : g.mode = .shared) :
    (c.queue .exclusive).Subperm (servedIn .exclusive (c.events before)) := by
  refine queue_subperm_served c .exclusive before ?_
  rw [Bool.eq_false_iff]
  intro hawaits
  have hexclusive := mode_of_awaits h hawaits (change_move _ m) hgrant
  rw [hmode] at hexclusive
  cases hexclusive

/-! ## Everyone looks again after the last release -/

/-- Under an exclusive lock nobody is let in. -/
theorem lookAgain_of_writer (line : List (LockRequest α)) {l : RegionLock}
    (hwriter : l.writer ≠ none) : (lookAgain l line).1 = [] := by
  induction line with
  | nil => rfl
  | cons r line ih =>
    simp only [lookAgain, RegionLock.resume_eq, RegionLock.canGrant_of_writer hwriter]
    split <;> exact ih

/-- Of those who look again at a free lock, the first one in the line who wants it exclusively
is let in, and nobody else. -/
theorem lookAgain_of_free (line : List (LockRequest α)) {l : RegionLock}
    (hfree : l.isFree = true) (hwaiting : 0 < l.waitingWriters)
    (hawake : ∀ r ∈ line, r.awake = true) :
    (lookAgain l line).1 =
      ((line.find? fun r => r.mode = .exclusive).map fun r =>
        (⟨r.label, .exclusive, l.nextId⟩ : LockGrant α)).toList := by
  induction line with
  | nil => rfl
  | cons r line ih =>
    have hrest := ih fun x hx => hawake x (List.mem_cons_of_mem _ hx)
    simp only [lookAgain, RegionLock.resume_eq, hawake r List.mem_cons_self, if_true]
    cases hmode : r.mode with
    | shared =>
      -- A writer waits, so this one goes back to sleep.
      have hgrant : l.canGrant .shared = false := by
        rw [Bool.eq_false_iff, ne_eq, RegionLock.canGrant_shared_iff]
        omega
      simpa [hgrant, hmode] using hrest
    | exclusive =>
      have hgrant : l.canGrant .exclusive = true := hfree
      have hheld : (l.letIn .exclusive).writer ≠ none := by
        simp [RegionLock.letIn, RegionLock.grant, RegionLock.hold]
      simp [hgrant, hmode, lookAgain_of_writer line hheld]

/-- **A free lock whose line is awake** is granted to the first one who wants it exclusively,
and to nobody else. -/
theorem settle_of_free (h : c.lock.waitingWriters = c.count .exclusive)
    (hfree : c.lock.isFree = true) (hawaits : c.awaits .exclusive = true)
    (hawake : ∀ r ∈ c.waiting, r.awake = true) :
    ∃ label, (c.queue .exclusive).head? = some label ∧
      c.settle.1 = [⟨label, .exclusive, c.lock.nextId⟩] := by
  have hpos : 0 < c.lock.waitingWriters := by
    rw [h]
    exact awaits_iff.1 hawaits
  obtain ⟨r, hr, hmode⟩ := List.any_eq_true.1 hawaits
  have hsome : (c.waiting.find? fun r => r.mode = .exclusive).isSome :=
    List.find?_isSome.2 ⟨r, hr, hmode⟩
  obtain ⟨first, hfirst⟩ := Option.isSome_iff_exists.1 hsome
  refine ⟨first.label, ?_, ?_⟩
  · rw [queue, List.head?_map, List.head?_filter, hfirst]
    rfl
  · rw [settle, lookAgain_of_free _ hfree hpos hawake, hfirst]
    rfl

/-- A release that succeeds wakes everyone who waits. -/
theorem awake_of_released (h : c.move (.release id mode) = (.released id mode, c')) :
    ∀ r ∈ c'.waiting, r.awake = true := by
  have hchange := c.change_move (.release id mode)
  rw [h] at hchange
  cases hchange with
  | released _ _ _ counts =>
    intro r hr
    obtain ⟨x, -, rfl⟩ := List.mem_map.1 hr
    rfl

/-- **No wake-up is lost, whatever the order of the moves.** A request that sleeps is held up:
an exclusive one by a lock that is held, a shared one by a writer who holds or awaits the lock.
In the line of a free lock somebody is awake, and is granted when he looks. A request to share
the lock is granted only when all who waited for it exclusively have been served. After the
last release everyone is awake, and of all who look again, in the order of the line, the first
one who wants the lock exclusively is let in and nobody else; that is one of the orders in which
they may look. -/
theorem no_wakeup_is_lost (moves : List (Move α)) :
    let c := ({} : Contention α).after moves
    (∀ r ∈ c.waiting, r.awake = false → c.Blocked r.mode) ∧
      (c.lock.isFree = true → c.waiting ≠ [] →
        ∃ r ∈ c.waiting, r.awake = true ∧ ∃ place, (c.move (.recheck place)).1 =
          .resumed ⟨r.label, r.mode, c.lock.nextId⟩) ∧
      (∀ before m g, ((c.after before).move m).1.grant? = some g → g.mode = .shared →
        (c.queue .exclusive).Subperm (servedIn .exclusive (c.events before))) ∧
      ∀ id mode c', c.move (.release id mode) = (.released id mode, c') →
        c'.lock.isFree = true → c'.awaits .exclusive = true →
          (∀ r ∈ c'.waiting, r.awake = true) ∧
          (∃ label, (c'.queue .exclusive).head? = some label ∧
            c'.settle.1 = [⟨label, .exclusive, c'.lock.nextId⟩]) ∧
          ∃ places : List Nat, c'.after (places.map .recheck) = c'.settle.2 ∧
            resumed (c'.events (places.map .recheck)) = c'.settle.1 := by
  intro c
  have hcount : c.lock.waitingWriters = c.count .exclusive := (disciplined_after moves).counted
  have hsettled : c.Settled := settled_after moves
  refine ⟨?_, ?_, ?_, ?_⟩
  · intro r hr hasleep
    exact (blocked_iff hcount).2 (hsettled r hr hasleep)
  · intro hfree hline
    obtain ⟨r, hr, hgrant⟩ := exists_canGrant hcount hfree hline
    obtain ⟨hawake, place, hmove⟩ := hsettled.resumes hr hgrant
    exact ⟨r, hr, hawake, place, hmove⟩
  · intro before m g hgrant hmode
    -- The moves before are moves of the lock from its start on.
    have hthere := (disciplined_after (moves ++ before)).counted
    rw [after_append] at hthere
    exact queue_subperm_of_shared before hthere hgrant hmode
  · intro id mode c' hmove hfree hawaits
    have hcount' := waitingWriters_change hcount (hmove ▸ c.change_move (.release id mode))
    have hawake := awake_of_released hmove
    exact ⟨hawake, settle_of_free hcount' hfree hawaits hawake, c'.settle_is_rechecks⟩

/-- A reader and then a writer who wait for the same holder. -/
def readerBeforeWriter : List (Move String) :=
  [.acquire "holder" .exclusive, .acquire "reader" .shared, .acquire "writer" .exclusive]

theorem no_wakeup_is_lost_released :
    let c := ({} : Contention String).after readerBeforeWriter
    let freed := (c.move (.release ⟨1⟩ .exclusive)).2
    (∀ r ∈ c.waiting, c.Blocked r.mode) ∧ (∀ r ∈ freed.waiting, r.awake = true) ∧
      freed.settle.1 = [⟨"writer", .exclusive, ⟨2⟩⟩] := by
  intro c freed
  obtain ⟨hasleep, -, -, hrelease⟩ := no_wakeup_is_lost readerBeforeWriter
  obtain ⟨hawake, ⟨label, hhead, hsettle⟩, -⟩ :=
    hrelease ⟨1⟩ .exclusive freed rfl (by decide) (by decide)
  obtain rfl : "writer" = label := Option.some.inj hhead
  exact ⟨fun r hr => hasleep r hr (by revert r; decide), hawake, hsettle⟩

end Contention

end RecordStore
