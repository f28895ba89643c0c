import Mathlib.Algebra.Order.Ring.Nat
import Mathlib.Data.List.Nodup
import RecordStore.Proofs.Lock.Moves
import RecordStore.Proofs.Numbering
/-!
# Exclusion — who holds a lock, and under which identifiers

The events of a lock say who holds it: those whose requests were granted
and who have not given it back since. A lock knows just these (`Holds`),
and an exclusive holder is the only one, whatever the order of the moves.
The lock also counts the exclusive requests in its line, and while there is
one nobody else comes to share it; and it grants under the numbers from one
on, so that no identifier comes twice (`lock_is_disciplined`).
-/

namespace RecordStore

namespace Contention

variable {α : Type} {c c' : Contention α} {l l' : RegionLock} {mode : LockMode} {id : LockId}
variable {ev : Event α} {g : LockGrant α} {held : List (LockGrant α)} {past : List (Event α)}

/-! ## Reading events -/

/-- The request that an event granted, at once or after it waited. -/
def Event.grant? : Event α → Option (LockGrant α)
  | .granted g | .resumed g => some g
  | _ => none

/-- All grants among events. -/
def grants (past : List (Event α)) : List (LockGrant α) := past.filterMap Event.grant?

/-- Those who hold the lock after one more event. -/
def holdersAfter (held : List (LockGrant α)) : Event α → List (LockGrant α)
  | .granted g | .resumed g => held ++ [g]
  | .released id mode => held.filter fun g => ¬(g.mode = mode ∧ g.id = id)
  | .queued _ _ | .nothing => held

/-- Those who hold the lock: they were granted it and have not given it back since. -/
def holders (past : List (Event α)) : List (LockGrant α) := past.foldl holdersAfter []

theorem holders_append (past : List (Event α)) (ev : Event α) :
    holders (past ++ [ev]) = holdersAfter (holders past) ev := by
  simp [holders]

theorem grants_append (past : List (Event α)) (ev : Event α) :
    grants (past ++ [ev]) = grants past ++ ev.grant?.toList := by
  cases h : ev.grant? <;> simp [grants, h]

/-- The number of requests in a mode that wait. -/
def count (c : Contention α) (mode : LockMode) : Nat :=
  c.waiting.countP fun r => r.mode = mode

theorem awaits_iff : c.awaits mode = true ↔ 0 < c.count mode := by
  simp [awaits, count, List.countP_pos_iff]

/-! ## Who holds the lock -/

/-- **The lock knows its holders**, and an exclusive one is alone. -/
structure Holds (l : RegionLock) (held : List (LockGrant α)) : Prop where
  nodup : l.readers.Nodup
  isHeld_iff : ∀ id mode, l.isHeld id mode = true ↔ ∃ g ∈ held, g.mode = mode ∧ g.id = id
  alone : ∀ g ∈ held, g.mode = .exclusive → held = [g]

namespace Holds

theorem isHeld_shared : l.isHeld id .shared = true ↔ id ∈ l.readers := by
  simp [RegionLock.isHeld]

theorem isHeld_exclusive : l.isHeld id .exclusive = true ↔ l.writer = some id := by
  simp [RegionLock.isHeld]

/-- Only the readers and the writer of a lock count. -/
theorem congr (h : Holds l held) (hreaders : l'.readers = l.readers)
    (hwriter : l'.writer = l.writer) : Holds l' held where
  nodup := hreaders ▸ h.nodup
  isHeld_iff id mode := by
    rw [← h.isHeld_iff]
    cases mode with
    | shared => rw [isHeld_shared, isHeld_shared, hreaders]
    | exclusive => rw [isHeld_exclusive, isHeld_exclusive, hwriter]
  alone := h.alone

/-- A lock without readers and writer has no holder. -/
theorem eq_nil (h : Holds l held) (hfree : l.writer = none ∧ l.readers = []) :
    held = [] := by
  rw [List.eq_nil_iff_forall_not_mem]
  intro g hg
  have hheld := (h.isHeld_iff g.id g.mode).2 ⟨g, hg, rfl, rfl⟩
  cases hmode : g.mode with
  | shared =>
    rw [hmode, isHeld_shared, hfree.2] at hheld
    cases hheld
  | exclusive =>
    rw [hmode, isHeld_exclusive, hfree.1] at hheld
    cases hheld

/-- A lock without a writer has no exclusive holder. -/
theorem mode_ne (h : Holds l held) (hwriter : l.writer = none) (hg : g ∈ held) :
    g.mode ≠ .exclusive := by
  intro hmode
  have hheld := (h.isHeld_iff g.id .exclusive).2 ⟨g, hg, hmode, rfl⟩
  rw [isHeld_exclusive, hwriter] at hheld
  cases hheld

theorem grant_shared (h : Holds l held) (hgrant : l.canGrant .shared = true)
    (hmode : g.mode = .shared) (hid : g.id = l.nextId) :
    Holds (l.grant .shared).2 (held ++ [g]) := by
  obtain ⟨hwriter, -⟩ := RegionLock.canGrant_shared_iff.1 hgrant
  constructor
  · exact h.nodup.insert
  · intro id mode
    have hbefore := h.isHeld_iff id mode
    simp only [List.mem_append, List.mem_singleton, or_and_right, exists_or, exists_eq_left,
      ← hbefore, hmode, hid]
    cases mode with
    | shared =>
      have hreaders : (l.grant .shared).2.readers = l.readers.insert l.nextId := rfl
      simp only [isHeld_shared, hreaders, List.mem_insert_iff, true_and, or_comm, @eq_comm _ id]
    | exclusive => simp [isHeld_exclusive, RegionLock.grant, RegionLock.hold]
  · -- There was no writer, and the new holder is none.
    intro x hx hexclusive
    rcases List.mem_append.1 hx with hx | hx
    · exact absurd hexclusive (h.mode_ne hwriter hx)
    · rw [List.mem_singleton.1 hx, hmode] at hexclusive
      cases hexclusive

theorem grant_exclusive (h : Holds l held) (hgrant : l.canGrant .exclusive = true)
    (hmode : g.mode = .exclusive) (hid : g.id = l.nextId) :
    Holds (l.grant .exclusive).2 (held ++ [g]) := by
  -- Nobody held the lock, so the new holder is alone.
  have hfree := RegionLock.canGrant_exclusive_iff.1 hgrant
  rw [h.eq_nil hfree, List.nil_append]
  constructor
  · exact h.nodup
  · intro id mode
    cases mode with
    | shared => simp [isHeld_shared, RegionLock.grant, RegionLock.hold, hfree.2, hmode]
    | exclusive => simp [isHeld_exclusive, RegionLock.grant, RegionLock.hold, hmode, hid]
  · rintro x hx -
    rw [List.mem_singleton.1 hx]

theorem grant (h : Holds l held) (hgrant : l.canGrant g.mode = true) (hid : g.id = l.nextId) :
    Holds (l.grant g.mode).2 (held ++ [g]) := by
  cases hmode : g.mode with
  | shared => exact h.grant_shared (hmode ▸ hgrant) hmode hid
  | exclusive => exact h.grant_exclusive (hmode ▸ hgrant) hmode hid

/-- What is held after a release: all but what was released. -/
theorem isHeld_drop (h : Holds l held) (hheld : l.isHeld id mode = true) (other : LockId)
    (m : LockMode) :
    (l.drop id mode).isHeld other m = true ↔
      l.isHeld other m = true ∧ ¬(m = mode ∧ other = id) := by
  cases mode with
  | shared =>
    cases m with
    | shared =>
      simp only [RegionLock.drop, isHeld_shared, h.nodup.mem_erase_iff, true_and]
      exact and_comm
    | exclusive => simp [RegionLock.drop, isHeld_exclusive]
  | exclusive =>
    rw [isHeld_exclusive] at hheld
    cases m with
    | shared => simp [RegionLock.drop, isHeld_shared]
    | exclusive => simp [RegionLock.drop, isHeld_exclusive, hheld, @eq_comm _ other]

theorem release (h : Holds l held) (hheld : l.isHeld id mode = true) :
    Holds (l.drop id mode) (holdersAfter held (.released id mode)) := by
  constructor
  · cases mode with
    | shared => exact h.nodup.erase id
    | exclusive => exact h.nodup
  · intro other m
    rw [h.isHeld_drop hheld, h.isHeld_iff]
    simp only [holdersAfter, List.mem_filter, decide_not, Bool.not_eq_true',
      decide_eq_false_iff_not]
    constructor
    · rintro ⟨⟨g, hg, rfl, rfl⟩, hne⟩
      exact ⟨g, ⟨hg, hne⟩, rfl, rfl⟩
    · rintro ⟨g, ⟨hg, hne⟩, rfl, rfl⟩
      exact ⟨⟨g, hg, rfl, rfl⟩, hne⟩
  · -- Who is left of a single holder is that holder.
    intro g hg hmode
    have hmem := List.mem_filter.1 hg
    rw [holdersAfter, h.alone g hmem.1 hmode]
    simpa using hmem.2

end Holds

/-- **A move keeps the lock's knowledge of its holders.** -/
theorem Holds.change (h : Holds c.lock held) (hchange : Change c ev c') :
    Holds c'.lock (holdersAfter held ev) := by
  cases hchange with
  | granted label mode hgrant => exact h.grant (g := ⟨label, mode, c.lock.nextId⟩) hgrant rfl
  | queued label mode _ => exact h.congr rfl rfl
  | @resumed front back r _ _ hgrant =>
    -- That one request fewer waits does not change who holds the lock.
    have hletIn : (c.lock.letIn r.mode).readers = (c.lock.grant r.mode).2.readers ∧
        (c.lock.letIn r.mode).writer = (c.lock.grant r.mode).2.writer := by
      cases r.mode <;> exact ⟨rfl, rfl⟩
    exact (h.grant (g := ⟨r.label, r.mode, c.lock.nextId⟩) hgrant rfl).congr hletIn.1 hletIn.2
  | asleep _ _ _ => exact h
  | released id mode hheld counts => exact (h.release hheld).congr rfl rfl
  | idle counts => exact h.congr rfl rfl

/-! ## Who waits -/

/-- **A move keeps the count of the exclusive requests that wait.** -/
theorem waitingWriters_change (h : c.lock.waitingWriters = c.count .exclusive)
    (hchange : Change c ev c') : c'.lock.waitingWriters = c'.count .exclusive := by
  cases hchange with
  | granted label mode _ =>
    cases mode <;> exact h
  | queued label mode _ =>
    simp only [RegionLock.await, count, List.countP_append, List.countP_singleton, h]
    cases mode <;> rfl
  | @resumed front back r hline _ _ =>
    simp only [count, hline, List.countP_append, List.countP_cons] at h
    simp only [count, List.countP_append]
    -- The request that leaves the line is no longer counted, if it was.
    cases hmode : r.mode with
    | shared =>
      have hletIn : (c.lock.letIn .shared).waitingWriters = c.lock.waitingWriters := rfl
      simpa [hmode, hletIn] using h
    | exclusive =>
      have hletIn : (c.lock.letIn .exclusive).waitingWriters = c.lock.waitingWriters - 1 := rfl
      simp only [hmode, decide_true, if_true] at h
      rw [hletIn, h]
      omega
  | @asleep front back r hline _ _ =>
    simpa [count, hline, List.countP_cons] using h
  | released id mode _ counts =>
    have hdrop : (c.lock.drop id mode).waitingWriters = c.lock.waitingWriters := by
      cases mode <;> rfl
    simpa [count, wakeAll, List.countP_map, Function.comp_def, hdrop] using h
  | idle counts => exact h

/-- A lock that is awaited exclusively is not granted to be shared. -/
theorem canGrant_shared_of_awaits (h : c.lock.waitingWriters = c.count .exclusive)
    (hawaits : c.awaits .exclusive = true) : c.lock.canGrant .shared = false := by
  rw [Bool.eq_false_iff, ne_eq, RegionLock.canGrant_shared_iff]
  rintro ⟨-, hnone⟩
  have hpos := awaits_iff.1 hawaits
  omega

/-- **While an exclusive request waits, only exclusive requests are granted.** -/
theorem mode_of_awaits (h : c.lock.waitingWriters = c.count .exclusive)
    (hawaits : c.awaits .exclusive = true) (hchange : Change c ev c')
    (hgrant : ev.grant? = some g) : g.mode = .exclusive := by
  have hshared := canGrant_shared_of_awaits h hawaits
  have hmode : ∀ {m : LockMode}, c.lock.canGrant m = true → m = .exclusive := by
    rintro (_ | _) hm
    · rw [hshared] at hm
      cases hm
    · rfl
  cases hchange <;> cases hgrant
  case granted label m hm => exact hmode hm
  case resumed front back r hline hawake hm => exact hmode hm

/-- **While an exclusive request waits, the readers do not become more.** -/
theorem readerCount_change (h : c.lock.waitingWriters = c.count .exclusive)
    (hawaits : c.awaits .exclusive = true) (hchange : Change c ev c') :
    c'.lock.readerCount ≤ c.lock.readerCount := by
  have hgrants : ∀ g, ev.grant? = some g → g.mode = .exclusive := fun g =>
    mode_of_awaits h hawaits hchange
  cases hchange with
  | granted label mode _ =>
    have hmode : mode = .exclusive := hgrants _ rfl
    subst hmode
    exact Nat.le_refl _
  | queued label mode _ => exact Nat.le_refl _
  | @resumed front back r _ _ _ =>
    have hmode : r.mode = .exclusive := hgrants _ rfl
    rw [hmode]
    exact Nat.le_refl _
  | asleep _ _ _ => exact Nat.le_refl _
  | released id mode _ counts =>
    cases mode with
    | shared => exact List.length_erase_le
    | exclusive => exact Nat.le_refl _
  | idle counts => exact Nat.le_refl _

/-- The readers do not become more in moves during which an exclusive request waits. -/
theorem readerCount_after (h : c.lock.waitingWriters = c.count .exclusive)
    (later : List (Move α))
    (hawaits : ∀ before, before <+: later → (c.after before).awaits .exclusive = true) :
    (c.after later).lock.readerCount ≤ c.lock.readerCount := by
  induction later generalizing c with
  | nil => exact Nat.le_refl _
  | cons m later ih =>
    have hchange := c.change_move m
    have hrest := ih (waitingWriters_change h hchange) fun before hbefore =>
      hawaits (m :: before) (List.cons_prefix_cons.2 ⟨rfl, hbefore⟩)
    exact Nat.le_trans hrest
      (readerCount_change h (hawaits [] (List.nil_prefix)) hchange)

/-! ## Identifiers -/

/-- **The grants are numbered**, and the lock knows the next number. -/
structure Numbered (l : RegionLock) (past : List (Event α)) : Prop where
  nextId : l.nextId = LockId.nth (grants past).length
  ids : (grants past).map LockGrant.id = (List.range (grants past).length).map LockId.nth

theorem Numbered.grant (h : Numbered l past) (hgrant : ev.grant? = some g) (hid : g.id = l.nextId)
    (hnext : l'.nextId = l.nextId.next) : Numbered l' (past ++ [ev]) := by
  have hgrants : grants (past ++ [ev]) = grants past ++ [g] := by
    rw [grants_append, hgrant]
    rfl
  constructor
  · rw [hnext, h.nextId, LockId.next_nth, hgrants, List.length_append, List.length_singleton]
  · rw [hgrants, List.map_append, List.length_append, List.length_singleton, List.range_succ,
      List.map_append, h.ids, List.map_singleton, List.map_singleton, hid, h.nextId]

theorem Numbered.keep (h : Numbered l past) (hgrant : ev.grant? = none)
    (hnext : l'.nextId = l.nextId) : Numbered l' (past ++ [ev]) := by
  have hgrants : grants (past ++ [ev]) = grants past := by
    rw [grants_append, hgrant]
    exact List.append_nil _
  constructor
  · rw [hnext, h.nextId, hgrants]
  · rw [hgrants, h.ids]

theorem Numbered.change (h : Numbered c.lock past) (hchange : Change c ev c') :
    Numbered c'.lock (past ++ [ev]) := by
  cases hchange with
  | granted label mode _ => exact h.grant rfl rfl rfl
  | queued label mode _ => exact h.keep rfl rfl
  | resumed _ _ _ => exact h.grant rfl rfl rfl
  | asleep _ _ _ => exact h.keep rfl rfl
  | released id mode _ counts =>
    refine h.keep rfl ?_
    cases mode <;> rfl
  | idle counts => exact h.keep rfl rfl

/-- Fewer than 2^64 grants have identifiers that are positive and all different. -/
theorem Numbered.ids_ok (h : Numbered l past) (hlt : (grants past).length < 2 ^ 64) :
    (∀ g ∈ grants past, 0 < g.id.raw.toNat) ∧ ((grants past).map LockGrant.id).Nodup := by
  constructor
  · intro g hg
    have hid : g.id ∈ (grants past).map LockGrant.id := List.mem_map_of_mem hg
    rw [h.ids] at hid
    obtain ⟨n, hn, hnth⟩ := List.mem_map.1 hid
    rw [List.mem_range] at hn
    rw [← hnth, LockId.toNat_nth (by omega)]
    omega
  · rw [h.ids]
    refine List.nodup_range.map_on ?_
    intro n hn m hm heq
    rw [List.mem_range] at hn hm
    exact LockId.nth_inj (by omega) (by omega) heq

/-! ## All moves -/

/-- What holds of a lock after any moves. -/
structure Disciplined (c : Contention α) (past : List (Event α)) : Prop where
  holds : Holds c.lock (holders past)
  counted : c.lock.waitingWriters = c.count .exclusive
  numbered : Numbered c.lock past

theorem disciplined_start : Disciplined ({} : Contention α) [] where
  holds := by
    refine ⟨List.nodup_nil, ?_, by simp [holders]⟩
    rintro id (_ | _) <;> simp [RegionLock.isHeld, holders]
  counted := rfl
  numbered := ⟨rfl, rfl⟩

theorem Disciplined.change (h : Disciplined c past) (hchange : Change c ev c') :
    Disciplined c' (past ++ [ev]) where
  holds := by
    rw [holders_append]
    exact h.holds.change hchange
  counted := waitingWriters_change h.counted hchange
  numbered := h.numbered.change hchange

theorem disciplined_after (moves : List (Move α)) :
    Disciplined (({} : Contention α).after moves) (({} : Contention α).events moves) :=
  after_induction disciplined_start (fun _ _ _ _ h hchange => h.change hchange) moves

/-- **A lock keeps its discipline whatever the order of the moves.** An exclusive holder is the
only one, and the lock is held by just those who were granted it and have not given it back.
The lock counts the exclusive requests that wait; while one does, no request to share the lock
is granted in any way, so that the readers do not become more. Fewer than 2^64 grants have
identifiers that are positive and all different. -/
theorem lock_is_disciplined (moves : List (Move α)) :
    let c := ({} : Contention α).after moves
    let past := ({} : Contention α).events moves
    (∀ g ∈ holders past, g.mode = .exclusive → holders past = [g]) ∧
      (∀ id mode, c.lock.isHeld id mode = true ↔ ∃ g ∈ holders past, g.mode = mode ∧ g.id = id) ∧
      c.lock.waitingWriters = (c.waiting.filter fun r => r.mode = .exclusive).length ∧
      (c.awaits .exclusive = true →
        ∀ m g, (c.move m).1.grant? = some g → g.mode = .exclusive) ∧
      (∀ later : List (Move α),
        (∀ before, before <+: later → (c.after before).awaits .exclusive = true) →
          (c.after later).lock.readerCount ≤ c.lock.readerCount) ∧
      ((grants past).length < 2 ^ 64 →
        (∀ g ∈ grants past, 0 < g.id.raw.toNat) ∧
          ((grants past).map LockGrant.id).Nodup) := by
  intro c past
  have h : Disciplined c past := disciplined_after moves
  refine ⟨h.holds.alone, h.holds.isHeld_iff, ?_, ?_, ?_, h.numbered.ids_ok⟩
  · rw [h.counted, count, List.countP_eq_length_filter]
  · intro hawaits m g hgrant
    exact mode_of_awaits h.counted hawaits (c.change_move m) hgrant
  · intro later hawaits
    exact readerCount_after h.counted later hawaits

/-- A writer who waits for a reader. -/
def readerThenWriter : List (Move String) :=
  [.acquire "reader" .shared, .acquire "writer" .exclusive]

theorem lock_is_disciplined_awaited :
    let c := ({} : Contention String).after readerThenWriter
    let past := ({} : Contention String).events readerThenWriter
    c.lock.waitingWriters = 1 ∧ c.lock.isHeld ⟨1⟩ .shared = true ∧
      (∀ m g, (c.move m).1.grant? = some g → g.mode = .exclusive) ∧
      ((grants past).map LockGrant.id).Nodup := by
  intro c past
  obtain ⟨-, hheld, hcount, hgrant, -, hids⟩ := lock_is_disciplined readerThenWriter
  refine ⟨hcount, ?_, hgrant (by decide), (hids (by decide)).2⟩
  exact (hheld ⟨1⟩ .shared).2 ⟨⟨"reader", .shared, ⟨1⟩⟩, List.mem_singleton_self _, rfl, rfl⟩

end Contention

end RecordStore
