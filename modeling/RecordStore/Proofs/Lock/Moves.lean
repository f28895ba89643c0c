import RecordStore.Lock.Contention
/-!
# Moves — what those who want a lock do, in any order

Those who want a lock ask for it, look again when they have been woken, and
give it back; `Move` is one such step, by whoever takes it. Moves come in
any order, and each leaves an event. `Change` lists all that a move can
come to, and `settle_is_rechecks` says that letting everyone who is awake
look again is one order of single looks among the others.
-/

namespace RecordStore

namespace RegionLock

variable {l : RegionLock} {id : LockId} {mode : LockMode}

theorem isFree_iff : l.isFree = true ↔ l.writer = none ∧ l.readers = [] := by
  simp [isFree]

theorem canGrant_shared_iff :
    l.canGrant .shared = true ↔ l.writer = none ∧ l.waitingWriters = 0 := by
  simp [canGrant]

theorem canGrant_exclusive_iff :
    l.canGrant .exclusive = true ↔ l.writer = none ∧ l.readers = [] :=
  isFree_iff

/-- A request that waits is held up by what holds up a new one. -/
theorem canResume_eq : l.canResume mode = l.canGrant mode := by
  cases mode <;> rfl

/-- The lock after a waiting request in the mode was granted. -/
def letIn (l : RegionLock) (mode : LockMode) : RegionLock :=
  let waitingWriters := if mode = .exclusive then l.waitingWriters - 1 else l.waitingWriters
  (({ l with waitingWriters } : RegionLock).grant mode).2

theorem resume_eq :
    l.resume mode = if l.canGrant mode then some (l.nextId, l.letIn mode) else none := by
  unfold resume
  rw [canResume_eq]
  cases l.canGrant mode <;> rfl

end RegionLock

namespace Contention

variable {α : Type} {c c' : Contention α} {mode : LockMode} {id : LockId}

/-! ## Moves and events -/

/-- A step of one of those who want the lock. -/
inductive Move (α : Type) where
  /-- A request that waits where it is not granted at once. -/
  | acquire (label : α) (mode : LockMode)
  /-- A request that does not wait. -/
  | attempt (label : α) (mode : LockMode)
  /-- The request at a place in the line looks again, if it is awake. -/
  | recheck (place : Nat)
  /-- A release, under any identifier and in any mode. -/
  | release (id : LockId) (mode : LockMode)

/-- What a move came to. -/
inductive Event (α : Type) where
  /-- A request was granted as it was made. -/
  | granted (g : LockGrant α)
  /-- A request began to wait. -/
  | queued (label : α) (mode : LockMode)
  /-- A request that waited was granted. -/
  | resumed (g : LockGrant α)
  | released (id : LockId) (mode : LockMode)
  | nothing

/-- The request at a place in the line looks again, if it is awake: it is granted, or goes
back to sleep. -/
def recheck (c : Contention α) (place : Nat) : Event α × Contention α :=
  match c.waiting[place]? with
  | none => (.nothing, c)
  | some r =>
    if r.awake then
      match c.lock.resume r.mode with
      | some (id, lock) =>
        (.resumed ⟨r.label, r.mode, id⟩, { lock, waiting := c.waiting.eraseIdx place })
      | none => (.nothing, { c with waiting := c.waiting.set place { r with awake := false } })
    else
      (.nothing, c)

/-- Carries out a move. -/
def move (c : Contention α) : Move α → Event α × Contention α
  | .acquire label mode =>
    match c.arrive label mode with
    | (some id, c) => (.granted ⟨label, mode, id⟩, c)
    | (none, c) => (.queued label mode, c)
  | .attempt label mode =>
    match c.attempt mode with
    | (some id, c) => (.granted ⟨label, mode, id⟩, c)
    | (none, c) => (.nothing, c)
  | .recheck place => c.recheck place
  | .release id mode =>
    match c.release id mode with
    | (.ok (), c) => (.released id mode, c)
    | (.error _, c) => (.nothing, c)

/-- The lock and its line after moves. -/
def after (c : Contention α) (moves : List (Move α)) : Contention α :=
  moves.foldl (fun c m => (c.move m).2) c

/-- The events of moves. -/
def events (c : Contention α) : List (Move α) → List (Event α)
  | [] => []
  | m :: moves => (c.move m).1 :: (c.move m).2.events moves

@[simp] theorem after_nil (c : Contention α) : c.after [] = c := rfl

@[simp] theorem after_cons (c : Contention α) (m : Move α) (moves : List (Move α)) :
    c.after (m :: moves) = (c.move m).2.after moves := rfl

theorem after_append (c : Contention α) (moves more : List (Move α)) :
    c.after (moves ++ more) = (c.after moves).after more :=
  List.foldl_append

/-! ## All that a move can come to -/

/-- **What a move can come to**, and the lock and its line after it. -/
inductive Change (c : Contention α) : Event α → Contention α → Prop where
  /-- A new request was granted. -/
  | granted (label : α) (mode : LockMode) (h : c.lock.canGrant mode = true) :
      Change c (.granted ⟨label, mode, c.lock.nextId⟩) { c with lock := (c.lock.grant mode).2 }
  /-- A new request was not granted, and goes to sleep at the end of the line. -/
  | queued (label : α) (mode : LockMode) (h : c.lock.canGrant mode = false) :
      Change c (.queued label mode)
        { lock := c.lock.await mode, waiting := c.waiting ++ [{ label, mode }] }
  /-- A request that was awake looked again and was granted. -/
  | resumed {front back : List (LockRequest α)} {r : LockRequest α}
      (hline : c.waiting = front ++ r :: back) (hawake : r.awake = true)
      (h : c.lock.canGrant r.mode = true) :
      Change c (.resumed ⟨r.label, r.mode, c.lock.nextId⟩)
        { lock := c.lock.letIn r.mode, waiting := front ++ back }
  /-- A request that was awake looked again and went back to sleep. -/
  | asleep {front back : List (LockRequest α)} {r : LockRequest α}
      (hline : c.waiting = front ++ r :: back) (hawake : r.awake = true)
      (h : c.lock.canGrant r.mode = false) :
      Change c .nothing { c with waiting := front ++ { r with awake := false } :: back }
  /-- A lock was given back, and everyone who waits was woken. -/
  | released (id : LockId) (mode : LockMode) (h : c.lock.isHeld id mode = true)
      (counts : LockCounts) :
      Change c (.released id mode)
        { lock := { c.lock.drop id mode with counts }, waiting := wakeAll c.waiting }
  /-- Nothing happened, but that a release of what is not held was counted. -/
  | idle (counts : LockCounts) : Change c .nothing { c with lock := { c.lock with counts } }

theorem change_acquire (c : Contention α) (label : α) (mode : LockMode) :
    Change c (c.move (.acquire label mode)).1 (c.move (.acquire label mode)).2 := by
  simp only [move, arrive, RegionLock.acquire, RegionLock.tryAcquire]
  cases h : c.lock.canGrant mode with
  | true => exact .granted label mode h
  | false => exact .queued label mode h

theorem change_attempt (c : Contention α) (label : α) (mode : LockMode) :
    Change c (c.move (.attempt label mode)).1 (c.move (.attempt label mode)).2 := by
  simp only [move, attempt, RegionLock.tryAcquire]
  cases h : c.lock.canGrant mode with
  | true => exact .granted label mode h
  | false => exact .idle c.lock.counts

/-- The line before and behind a place. -/
theorem line_at {waiting : List (LockRequest α)} {place : Nat} {r : LockRequest α}
    (h : waiting[place]? = some r) :
    waiting = waiting.take place ++ r :: waiting.drop (place + 1) := by
  obtain ⟨hlt, rfl⟩ := List.getElem?_eq_some_iff.1 h
  rw [List.getElem_cons_drop, List.take_append_drop]

theorem change_recheck (c : Contention α) (place : Nat) :
    Change c (c.move (.recheck place)).1 (c.move (.recheck place)).2 := by
  simp only [move, recheck]
  cases hr : c.waiting[place]? with
  | none => exact .idle c.lock.counts
  | some r =>
    by_cases hawake : r.awake = true
    · have hlt := (List.getElem?_eq_some_iff.1 hr).1
      simp only [if_pos hawake, RegionLock.resume_eq, List.eraseIdx_eq_take_drop_succ,
        List.set_eq_take_append_cons_drop, if_pos hlt]
      cases h : c.lock.canGrant r.mode with
      | true => exact .resumed (line_at hr) hawake h
      | false => exact .asleep (line_at hr) hawake h
    · simp only [if_neg hawake]
      exact .idle c.lock.counts

theorem change_release (c : Contention α) (id : LockId) (mode : LockMode) :
    Change c (c.move (.release id mode)).1 (c.move (.release id mode)).2 := by
  simp only [move, release, RegionLock.release]
  cases h : c.lock.isHeld id mode with
  | true => exact .released id mode h _
  | false => exact .idle _

/-- **Every move comes to one of these.** -/
theorem change_move (c : Contention α) (m : Move α) : Change c (c.move m).1 (c.move m).2 := by
  cases m with
  | acquire label mode => exact c.change_acquire label mode
  | attempt label mode => exact c.change_attempt label mode
  | recheck place => exact c.change_recheck place
  | release id mode => exact c.change_release id mode

/-- **What a new lock has and moves keep, a lock has after all moves.** The property may speak
of the events so far. -/
theorem after_induction {P : Contention α → List (Event α) → Prop} (hstart : P {} [])
    (hmove : ∀ c past ev c', P c past → Change c ev c' → P c' (past ++ [ev]))
    (moves : List (Move α)) :
    P (({} : Contention α).after moves) (({} : Contention α).events moves) := by
  -- From any state on, the events so far are followed by those of the moves.
  have hfrom : ∀ (c : Contention α) past, P c past →
      P (c.after moves) (past ++ c.events moves) := by
    induction moves with
    | nil =>
      intro c past h
      rwa [after_nil, events, List.append_nil]
    | cons m moves ih =>
      intro c past h
      have hnext := ih _ _ (hmove c past _ _ h (c.change_move m))
      rwa [List.append_assoc] at hnext
  exact hfrom {} [] hstart

/-! ## Everyone who is awake looks again -/

/-- The requests that events let through after they had waited. -/
def resumed (past : List (Event α)) : List (LockGrant α) :=
  past.filterMap fun
    | .resumed g => some g
    | _ => none

theorem recheck_resumed {front back : List (LockRequest α)} {r : LockRequest α}
    (hline : c.waiting = front ++ r :: back) (hawake : r.awake = true)
    (h : c.lock.canGrant r.mode = true) :
    c.move (.recheck front.length) =
      (.resumed ⟨r.label, r.mode, c.lock.nextId⟩,
        { lock := c.lock.letIn r.mode, waiting := front ++ back }) := by
  simp [move, recheck, hline, hawake, RegionLock.resume_eq, h, List.eraseIdx_append_of_length_le]

theorem recheck_asleep {front back : List (LockRequest α)} {r : LockRequest α}
    (hline : c.waiting = front ++ r :: back) (hawake : r.awake = true)
    (h : c.lock.canGrant r.mode = false) :
    c.move (.recheck front.length) =
      (.nothing, { c with waiting := front ++ { r with awake := false } :: back }) := by
  simp [move, recheck, hline, hawake, RegionLock.resume_eq, h]

/-- The looks of the rest of a line, where those in front have had their turn. -/
theorem lookAgain_is_rechecks (line front : List (LockRequest α)) (lock : RegionLock) :
    ∃ places : List Nat,
      let c : Contention α := { lock, waiting := front ++ line }
      let settled := (lookAgain lock line).2
      c.after (places.map .recheck) = { settled with waiting := front ++ settled.waiting } ∧
        resumed (c.events (places.map .recheck)) = (lookAgain lock line).1 := by
  induction line generalizing front lock with
  | nil => exact ⟨[], by simp [lookAgain], rfl⟩
  | cons r line ih =>
    simp only [lookAgain, RegionLock.resume_eq]
    cases hawake : r.awake with
    | false =>
      -- The request sleeps on, and the rest of the line looks behind it.
      obtain ⟨places, hafter, hresumed⟩ := ih (front ++ [r]) lock
      simp only [List.append_assoc, List.singleton_append] at hafter hresumed
      exact ⟨places, hafter, hresumed⟩
    | true =>
      cases h : lock.canGrant r.mode with
      | true =>
        obtain ⟨places, hafter, hresumed⟩ := ih front (lock.letIn r.mode)
        have hmove := recheck_resumed (c := { lock, waiting := front ++ r :: line }) rfl hawake h
        refine ⟨front.length :: places, ?_, ?_⟩
        · simp only [List.map_cons, after_cons, hmove]
          exact hafter
        · simp only [List.map_cons, events, hmove]
          exact congrArg _ hresumed
      | false =>
        obtain ⟨places, hafter, hresumed⟩ := ih (front ++ [{ r with awake := false }]) lock
        have hmove := recheck_asleep (c := { lock, waiting := front ++ r :: line }) rfl hawake h
        simp only [List.append_assoc, List.singleton_append] at hafter hresumed
        refine ⟨front.length :: places, ?_, ?_⟩
        · simp only [List.map_cons, after_cons, hmove]
          exact hafter
        · simp only [List.map_cons, events, hmove]
          exact hresumed

/-- **Letting everyone who is awake look again** is a series of single looks. -/
theorem settle_is_rechecks (c : Contention α) :
    ∃ places : List Nat, c.after (places.map .recheck) = c.settle.2 ∧
      resumed (c.events (places.map .recheck)) = c.settle.1 :=
  lookAgain_is_rechecks c.waiting [] c.lock

end Contention

end RecordStore
