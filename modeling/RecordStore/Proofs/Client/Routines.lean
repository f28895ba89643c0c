import RecordStore.Proofs.Client.Holdings
/-!
# Routines — what is done in a bracket

A routine is any finite series of deeds, in which what is done next may
depend on all answers so far, with brackets in it that have routines of
their own. It can be carried out at once (`Routine.action`), as the action
that a bracket is given, or deed by deed (`Routine.run`), which shows the
states on the way and what the routine itself does to locks. Both come to
the same (`Routine.outcome_action`).
-/

namespace RecordStore

/-! ## Brackets, however the lock is asked for -/

namespace Connection

variable {β : Type} {conn : Connection} {kind : LockCall} {mode : LockMode} {c : Client}
variable {token : LockToken}

/-- Carries out an action under the lock of the region, which is asked for by any call: as
`withLock` does, or by a request that waited. -/
def withLockAs (conn : Connection) (kind : LockCall) (mode : LockMode) (body : Action β) :
    Action (Option β) := do
  match ← kind.action conn mode with
  | some token => some <$> conn.underLock token body
  | none => return none

theorem withLockAs_start (conn : Connection) (mode : LockMode) (body : Action β) :
    conn.withLockAs .start mode body = conn.withLock mode body := rfl

/-- A bracket whose lock is granted. -/
theorem outcome_withLockAs (body : Action β) (h : kind.granted? conn mode c = some token) :
    (conn.withLockAs kind mode body).outcome c =
      (((conn.underLock token body).outcome ((kind.action conn mode).outcome c).2).1.map some,
        ((conn.underLock token body).outcome ((kind.action conn mode).outcome c).2).2) := by
  rw [LockCall.granted?_eq_some_iff] at h
  rw [withLockAs, Action.outcome_bind]
  generalize (kind.action conn mode).outcome c = asked at h ⊢
  obtain ⟨answer, inside⟩ := asked
  subst h
  exact Action.outcome_map some _

/-- A bracket whose lock is not granted does nothing else. -/
theorem outcome_withLockAs_denied (body : Action β) (h : kind.granted? conn mode c = none) :
    (conn.withLockAs kind mode body).outcome c =
      (((kind.action conn mode).outcome c).1.map fun _ => none,
        ((kind.action conn mode).outcome c).2) := by
  unfold LockCall.granted? at h
  rw [withLockAs, Action.outcome_bind]
  generalize (kind.action conn mode).outcome c = asked at h ⊢
  obtain ⟨err | answer, inside⟩ := asked
  · rfl
  · subst h
    rfl

end Connection

/-! ## Routines -/

/-- What is done in a bracket: deeds and brackets, and a result in the end. A request that waits is
answered without a token; what others do until it is granted are deeds of the routine, too. -/
inductive Routine : Type → Type 1 where
  | ret {β : Type} (result : Except ClientError β) : Routine β
  /-- A deed; what is done next depends on its answer. -/
  | call {β : Type} (deed : Deed) (rest : Except ClientError deed.Answer → Routine β) : Routine β
  /-- A bracket with a body of its own. Its token is given to nobody. -/
  | bracket {β γ : Type} (conn : Connection) (kind : LockCall) (mode : LockMode)
      (body : Routine γ) (rest : Except ClientError (Option γ) → Routine β) : Routine β

/-- How a routine went. -/
structure Course (β : Type) where
  result : Except ClientError β
  /-- The client in use, when the routine was at its end. -/
  last : Usage
  /-- All that the client in use was on the way, from the first to the last. -/
  passed : List Usage
  /-- What the deeds of the routine did to locks, apart from its brackets. -/
  events : List TokenEvent

namespace Course

variable {β : Type}

/-- The course of a routine after something else. -/
def preceded (course : Course β) (passed : List Usage) (events : List TokenEvent) : Course β :=
  { course with passed := passed ++ course.passed, events := events ++ course.events }

/-- The client in use after a bracket around a body that went like this. -/
def left (course : Course β) (conn : Connection) (token : LockToken) : Usage :=
  course.last.does (.endLock conn token)

/-- What the bracket gives: of a failure of the body and one of the release, the first. -/
def answer (course : Course β) (conn : Connection) (token : LockToken) : Except ClientError β :=
  course.result.bind fun b =>
    ((conn.endLock token).outcome course.last.client).1.map fun _ => b

end Course

namespace Routine

/-- Carries out a routine at once. -/
def action {β : Type} : Routine β → Action β
  | ret result => .check result
  | call deed rest => .ofState fun c =>
    let (answer, c) := deed.action.outcome c
    (rest answer).action.outcome c
  | bracket conn kind mode body rest => .ofState fun c =>
    let (answer, c) := (conn.withLockAs kind mode body.action).outcome c
    (rest answer).action.outcome c

/-- Carries out a routine deed by deed. -/
def run {β : Type} : Routine β → Usage → Course β
  | ret result, u => ⟨result, u, [u], []⟩
  | call deed rest, u =>
    ((rest (deed.action.outcome u.client).1).run (u.does deed)).preceded [u]
      (deed.lockEvents u.client)
  | bracket conn kind mode body rest, u =>
    match kind.granted? conn mode u.client with
    | some token =>
      let course := body.run (u.does (.lock conn kind mode))
      ((rest ((course.answer conn token).map some)).run (course.left conn token)).preceded
        (u :: course.passed) course.events
    | none =>
      ((rest (((kind.action conn mode).outcome u.client).1.map fun _ => none)).run
        (u.does (.lock conn kind mode))).preceded [u] []

variable {β γ : Type} {u : Usage} {conn : Connection} {kind : LockCall} {mode : LockMode}
variable {token : LockToken} {body : Routine γ} {rest : Except ClientError (Option γ) → Routine β}

theorem run_granted (h : kind.granted? conn mode u.client = some token) :
    (bracket conn kind mode body rest).run u =
      let course := body.run (u.does (.lock conn kind mode))
      ((rest ((course.answer conn token).map some)).run (course.left conn token)).preceded
        (u :: course.passed) course.events := by
  simp only [run, h]

theorem run_denied (h : kind.granted? conn mode u.client = none) :
    (bracket conn kind mode body rest).run u =
      ((rest (((kind.action conn mode).outcome u.client).1.map fun _ => none)).run
        (u.does (.lock conn kind mode))).preceded [u] [] := by
  simp only [run, h]

/-- **A routine comes to the same** at once and deed by deed. -/
theorem outcome_action (routine : Routine β) (u : Usage) :
    routine.action.outcome u.client = ((routine.run u).result, (routine.run u).last.client) := by
  induction routine generalizing u with
  | ret result => rfl
  | call deed rest ih =>
    change (rest (deed.action.outcome u.client).1).action.outcome
      (deed.action.outcome u.client).2 = _
    rw [← Usage.client_does, ih]
    rfl
  | bracket conn kind mode body rest ihbody ihrest =>
    change (rest ((conn.withLockAs kind mode body.action).outcome u.client).1).action.outcome
      ((conn.withLockAs kind mode body.action).outcome u.client).2 = _
    have hentered : (u.does (.lock conn kind mode)).client =
      ((kind.action conn mode).outcome u.client).2 := u.client_does _
    cases hgranted : kind.granted? conn mode u.client with
    | some token =>
      rw [Connection.outcome_withLockAs _ hgranted, Connection.outcome_underLock, ← hentered,
        ihbody, run_granted hgranted]
      exact ihrest _ (((body.run _).left conn token))
    | none =>
      rw [Connection.outcome_withLockAs_denied _ hgranted, ← hentered, ihrest,
        run_denied hgranted]
      rfl

/-- What is done under a lock that was taken. -/
theorem outcome_underLock (routine : Routine β) (u : Usage) (conn : Connection)
    (token : LockToken) :
    (conn.underLock token routine.action).outcome u.client =
      ((routine.run u).answer conn token, ((routine.run u).left conn token).client) := by
  rw [Connection.outcome_underLock, outcome_action, Course.left, Usage.client_does]
  rfl

/-- What is done in a bracket whose lock is granted. -/
theorem outcome_withLock (routine : Routine β)
    (h : LockCall.start.granted? conn mode u.client = some token) :
    (conn.withLock mode routine.action).outcome u.client =
      (((routine.run (u.does (.lock conn .start mode))).answer conn token).map some,
        ((routine.run (u.does (.lock conn .start mode))).left conn token).client) := by
  have hentered : (u.does (.lock conn .start mode)).client =
    ((LockCall.start.action conn mode).outcome u.client).2 := u.client_does _
  rw [← Connection.withLockAs_start, Connection.outcome_withLockAs _ h, ← hentered,
    outcome_underLock]

end Routine

/-! ## What can be done in brackets -/

/-- A deed that can be done in brackets: it closes none of their connections, and the tokens that
it gives back are among those that were handed out. -/
def Deed.Within (around : List Connection) (known : Set LockToken) : Deed → Prop
  | .close conn _ => conn ∉ around
  | .endLock _ token => token ∈ known
  | _ => True

/-- **A routine that can be carried out** in brackets on the connections around it, when the
known tokens were handed out: all its deeds are allowed and within the brackets. The token of a
bracket is not handed out, neither to its body nor to what comes after it. -/
def Routine.Proper {β : Type} : Routine β → List Connection → Set LockToken → Usage → Prop
  | ret _, _, _, _ => True
  | call deed rest, around, known, u =>
    u.Allows deed ∧ deed.Within around known ∧
      (rest (deed.action.outcome u.client).1).Proper around
        (known ∪ handedOut (deed.lockEvents u.client)) (u.does deed)
  | bracket conn kind mode body rest, around, known, u =>
    conn ∈ u.opened ∧
    match kind.granted? conn mode u.client with
    | some token =>
      let course := body.run (u.does (.lock conn kind mode))
      body.Proper (conn :: around) known (u.does (.lock conn kind mode)) ∧
        (rest ((course.answer conn token).map some)).Proper around
          (known ∪ handedOut course.events) (course.left conn token)
    | none =>
      (rest (((kind.action conn mode).outcome u.client).1.map fun _ => none)).Proper around known
        (u.does (.lock conn kind mode))

namespace Usage

variable {u v : Usage} {deed : Deed} {conn : Connection} {settings : EngineSettings}
variable {faults : FaultPlan}

/-- The one becomes the other by deeds that are allowed. -/
def Leads : Usage → Usage → Prop :=
  Relation.ReflTransGen fun u v => ∃ deed, u.Allows deed ∧ v = u.does deed

theorem leads_does (h : u.Allows deed) : Leads u (u.does deed) := .single ⟨deed, h, rfl⟩

theorem Leads.reachable (h : Leads u v) (hu : Reachable settings faults u) :
    Reachable settings faults v := by
  induction h with
  | refl => exact hu
  | tail _ hstep ih =>
    obtain ⟨deed, hallowed, rfl⟩ := hstep
    exact ih.does hallowed

theorem Leads.opens_le (h : Leads u v) : u.opens ≤ v.opens := by
  induction h with
  | refl => exact Nat.le_refl _
  | @tail w _ _ hstep ih =>
    obtain ⟨deed, -, rfl⟩ := hstep
    obtain ⟨given, hopens, -⟩ := w.carriesOut_does deed
    omega

theorem Leads.granted_kept (h : Leads u v) : u.granted <+: v.granted := by
  induction h with
  | refl => exact List.prefix_rfl
  | @tail w _ _ hstep ih =>
    obtain ⟨deed, -, rfl⟩ := hstep
    exact ih.trans (w.granted_kept_does deed)

/-- A lock that is taken was granted. -/
theorem mem_granted_does {connection : ConnectionId} {token : LockToken}
    (h : .taken connection token ∈ deed.lockEvents u.client) :
    (connection, token) ∈ (u.does deed).granted := by
  cases deed with
  | lock conn kind mode =>
    obtain ⟨granted, hgranted, hevent⟩ := List.mem_map.1 h
    cases hevent
    rw [granted_does_lock (Option.mem_toList.1 hgranted)]
    exact List.mem_append_right _ List.mem_cons_self
  | endLock conn token =>
    simp only [Deed.lockEvents] at h
    split at h <;> simp at h
  | close conn order =>
    obtain ⟨_, -, hevent⟩ := List.mem_map.1 h
    cases hevent
  | _ => cases h

/-- A connection stays open until it is closed. -/
theorem mem_opened_does (h : conn ∈ u.opened) (hkept : ∀ order, deed ≠ .close conn order) :
    conn ∈ (u.does deed).opened := by
  cases deed with
  | openWith settings =>
    simp only [does]
    split
    · exact List.mem_append_left _ h
    · exact h
  | close other order =>
    refine List.mem_filter.2 ⟨h, decide_eq_true ?_⟩
    rintro rfl
    exact hkept order rfl
  | lock other kind mode =>
    simp only [does]
    split <;> exact h
  | _ => exact h

/-- A bracket closes nothing when it is entered. -/
theorem mem_opened_lock {other : Connection} {kind : LockCall} {mode : LockMode}
    (h : conn ∈ u.opened) : conn ∈ (u.does (.lock other kind mode)).opened :=
  mem_opened_does h fun order heq => by cases heq

/-- Nor when it is left. -/
theorem mem_opened_endLock {other : Connection} {token : LockToken} (h : conn ∈ u.opened) :
    conn ∈ (u.does (.endLock other token)).opened :=
  mem_opened_does h fun order heq => by cases heq

end Usage

theorem Deed.Within.ne_close {deed : Deed} {around : List Connection} {known : Set LockToken}
    {conn : Connection} (h : deed.Within around known) (hconn : conn ∈ around)
    (order : List QueryHandle) : deed ≠ .close conn order := by
  rintro rfl
  exact h hconn

/-! ## How a proper routine goes -/

/-- **The course of a proper routine**: deeds that are allowed and within the brackets around it,
and brackets whose lock is granted, each with a course inside. A bracket whose lock is not granted
is a deed like others. -/
inductive Course.Proper : {β : Type} → Course β → List Connection → Set LockToken → Usage → Prop
    where
  | ret {β : Type} {around : List Connection} {known : Set LockToken} {u : Usage}
      (result : Except ClientError β) : Proper ⟨result, u, [u], []⟩ around known u
  | deed {β : Type} {around : List Connection} {known : Set LockToken} {u : Usage} {deed : Deed}
      {course : Course β} (hallowed : u.Allows deed) (hwithin : deed.Within around known)
      (hrest : Proper course around (known ∪ handedOut (deed.lockEvents u.client))
        (u.does deed)) :
      Proper (course.preceded [u] (deed.lockEvents u.client)) around known u
  | bracket {β γ : Type} {around : List Connection} {known : Set LockToken} {u : Usage}
      {conn : Connection} {kind : LockCall} {mode : LockMode} {token : LockToken}
      {inside : Course γ} {course : Course β} (hconn : conn ∈ u.opened)
      (hgranted : kind.granted? conn mode u.client = some token)
      (hinside : Proper inside (conn :: around) known (u.does (.lock conn kind mode)))
      (hrest : Proper course around (known ∪ handedOut inside.events)
        (inside.left conn token)) :
      Proper (course.preceded (u :: inside.passed) inside.events) around known u

namespace Routine

variable {β γ : Type} {routine : Routine β} {around : List Connection} {known : Set LockToken}
variable {u : Usage} {conn : Connection} {kind : LockCall} {mode : LockMode}
variable {token : LockToken} {body : Routine γ}
variable {rest : Except ClientError (Option γ) → Routine β}

theorem proper_granted_iff (hgranted : kind.granted? conn mode u.client = some token) :
    (bracket conn kind mode body rest).Proper around known u ↔
      let course := body.run (u.does (.lock conn kind mode))
      conn ∈ u.opened ∧
        body.Proper (conn :: around) known (u.does (.lock conn kind mode)) ∧
        (rest ((course.answer conn token).map some)).Proper around
          (known ∪ handedOut course.events) (course.left conn token) := by
  rw [Proper, hgranted]

theorem proper_denied_iff (hgranted : kind.granted? conn mode u.client = none) :
    (bracket conn kind mode body rest).Proper around known u ↔
      conn ∈ u.opened ∧
        (rest (((kind.action conn mode).outcome u.client).1.map fun _ => none)).Proper around known
          (u.does (.lock conn kind mode)) := by
  rw [Proper, hgranted]

theorem Proper.course (h : routine.Proper around known u) :
    (routine.run u).Proper around known u := by
  induction routine generalizing around known u with
  | ret result => exact .ret result
  | call deed rest ih =>
    obtain ⟨hallowed, hwithin, hrest⟩ := h
    exact .deed hallowed hwithin (ih _ hrest)
  | bracket conn kind mode body rest ihbody ihrest =>
    cases hgranted : kind.granted? conn mode u.client with
    | some token =>
      obtain ⟨hconn, hbody, hrest⟩ := (proper_granted_iff hgranted).1 h
      rw [run_granted hgranted]
      exact .bracket hconn hgranted (ihbody hbody) (ihrest _ hrest)
    | none =>
      obtain ⟨hconn, hrest⟩ := (proper_denied_iff hgranted).1 h
      have hallowed : u.Allows (.lock conn kind mode) := hconn
      have hevents : (Deed.lock conn kind mode).lockEvents u.client = [] := by
        rw [Deed.lockEvents, hgranted]
        rfl
      have hknown : known ∪ handedOut ((Deed.lock conn kind mode).lockEvents u.client) = known := by
        rw [hevents, handedOut_nil, Set.union_empty]
      rw [run_denied hgranted, ← hevents]
      exact .deed hallowed trivial (hknown.symm ▸ ihrest _ hrest)

end Routine

namespace Course.Proper

variable {β : Type} {course : Course β} {around : List Connection} {known : Set LockToken}
variable {u : Usage} {conn : Connection}

/-- A course sets out from where it starts. -/
theorem mem_passed (h : course.Proper around known u) : u ∈ course.passed := by
  cases h with
  | ret | deed | bracket => exact List.mem_cons_self

/-- And it ends at the last that it passes through. -/
theorem last_mem_passed (h : course.Proper around known u) : course.last ∈ course.passed := by
  induction h with
  | ret => exact List.mem_cons_self
  | deed _ _ _ ih => exact List.mem_cons_of_mem _ ih
  | bracket _ _ _ _ _ ih => exact List.mem_append_right _ ih

/-- The connections of the brackets around it stay open. -/
theorem mem_opened (h : course.Proper around known u) (hconn : conn ∈ around)
    (hopen : conn ∈ u.opened) : conn ∈ course.last.opened := by
  induction h with
  | ret => exact hopen
  | deed _ hwithin _ ih => exact ih hconn (Usage.mem_opened_does hopen (hwithin.ne_close hconn))
  | bracket _ _ _ _ ihinside ih =>
    have hinside := ihinside (List.mem_cons_of_mem _ hconn) (Usage.mem_opened_lock hopen)
    exact ih hconn (Usage.mem_opened_endLock hinside)

/-- **It is made of deeds that are allowed.** -/
theorem leads (h : course.Proper around known u) :
    ∀ v ∈ course.passed, Usage.Leads u v ∧ Usage.Leads v course.last := by
  induction h with
  | ret =>
    intro v hv
    rw [List.mem_singleton.1 hv]
    exact ⟨.refl, .refl⟩
  | deed hallowed _ hrest ih =>
    have hfirst := Usage.leads_does hallowed
    intro v hv
    rcases List.mem_cons.1 hv with rfl | hv
    · exact ⟨.refl, hfirst.trans (ih _ hrest.mem_passed).2⟩
    · exact ⟨hfirst.trans (ih v hv).1, (ih v hv).2⟩
  | @bracket _ _ _ _ u conn kind mode token inside course hconn _ hinside hrest ihinside ih =>
    have hallowed : u.Allows (.lock conn kind mode) := hconn
    have hrelease : inside.last.Allows (.endLock conn token) :=
      hinside.mem_opened List.mem_cons_self (Usage.mem_opened_lock hconn)
    have hfirst := Usage.leads_does hallowed
    have hthrough := (ihinside _ hinside.mem_passed).2
    have hleft := Usage.leads_does hrelease
    have hrest := (ih _ hrest.mem_passed).2
    intro v hv
    rcases List.mem_cons.1 hv with rfl | hv
    · exact ⟨.refl, hfirst.trans (hthrough.trans (hleft.trans hrest))⟩
    · rcases List.mem_append.1 hv with hv | hv
      · exact ⟨hfirst.trans (ihinside v hv).1, (ihinside v hv).2.trans (hleft.trans hrest)⟩
      · exact ⟨hfirst.trans (hthrough.trans (hleft.trans (ih v hv).1)), (ih v hv).2⟩

theorem granted_kept (h : course.Proper around known u) : u.granted <+: course.last.granted :=
  (h.leads u h.mem_passed).2.granted_kept

/-- The tokens that are handed out were granted. -/
theorem granted (h : course.Proper around known u) :
    ∀ c t, .taken c t ∈ course.events → (c, t) ∈ course.last.granted := by
  induction h with
  | ret => exact fun c t h => absurd h List.not_mem_nil
  | deed _ _ hrest ih =>
    intro c t h
    rcases List.mem_append.1 h with h | h
    · exact hrest.granted_kept.subset (Usage.mem_granted_does h)
    · exact ih c t h
  | bracket _ _ _ hrest ihinside ih =>
    intro c t h
    rcases List.mem_append.1 h with h | h
    · exact hrest.granted_kept.subset
        ((Usage.granted_kept_does _ _).subset (ihinside c t h))
    · exact ih c t h

end Course.Proper

end RecordStore
