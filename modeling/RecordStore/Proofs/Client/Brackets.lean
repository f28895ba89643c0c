import RecordStore.Proofs.Client.Closing
import RecordStore.Proofs.Client.Routines
import RecordStore.Proofs.Sections.Counting
/-!
# Brackets — a lock is held throughout and given back once

The token of a bracket is new and is handed out to nobody. So whatever the
routine inside does, with locks and brackets of its own, it cannot touch the
grant (`Guarded.course`), and the release at the end succeeds. Since giving one
token back commutes with what happens to the others, the bracket leaves just
what the routine itself took and gave back (`brackets_are_neutral`).
-/

namespace RecordStore

namespace Usage

variable {u v : Usage} {conn : Connection} {kind : LockCall} {mode : LockMode}
variable {t token : LockToken} {c : ConnectionId} {settings : EngineSettings}
variable {faults : FaultPlan} {β : Type}

/-! ## Clients in use, as long as the numbers last -/

/-- A client in use that has opened and granted less than the numbers can tell apart. -/
structure InUse (settings : EngineSettings) (faults : FaultPlan) (u : Usage) : Prop where
  reachable : Reachable settings faults u
  opens : u.opens < 2 ^ 64
  grants : u.granted.length < 2 ^ 64

namespace InUse

theorem tracked (h : InUse settings faults u) : Tracked u :=
  h.reachable.tracked h.opens h.grants

/-- A deed does to the locks what it answers for. -/
theorem holdings_does {deed : Deed} (h : InUse settings faults u) (hallowed : u.Allows deed) :
    (u.does deed).client.holdings = u.client.holdings.afterAll (deed.lockEvents u.client) :=
  Usage.holdings_does h.tracked (h.reachable.sound h.opens) h.opens hallowed

/-- What led to a client in use was one, too. -/
theorem of_leads (h : Reachable settings faults u) (hleads : Leads u v) (hopens : v.opens < 2 ^ 64)
    (hgrants : v.granted.length < 2 ^ 64) : InUse settings faults u :=
  ⟨h, Nat.lt_of_le_of_lt hleads.opens_le hopens,
    Nat.lt_of_le_of_lt hleads.granted_kept.length_le hgrants⟩

/-- What is outstanding on an open connection was granted through it. -/
theorem granted_of_tracked (h : InUse settings faults u) (hconn : conn ∈ u.opened)
    (ht : t ∈ u.client.holdings.tracked conn.handle.connection) :
    (conn.handle.connection, t) ∈ u.granted :=
  (h.tracked.locks.granted conn hconn t ht).1

/-- What is outstanding on any connection was granted. -/
theorem exists_granted_of_tracked (h : InUse settings faults u)
    (ht : t ∈ u.client.holdings.tracked c) : ∃ c, (c, t) ∈ u.granted := by
  by_cases hopen : ∃ conn ∈ u.opened, conn.handle.connection = c
  · obtain ⟨conn, hconn, rfl⟩ := hopen
    exact ⟨_, h.granted_of_tracked hconn ht⟩
  · have hidle := h.tracked.opened.idle c fun conn hconn heq => hopen ⟨conn, hconn, heq⟩
    change t ∈ (u.client.held c).locks at ht
    rw [hidle] at ht
    cases ht

/-- What is held was granted. -/
theorem exists_granted_of_held (h : InUse settings faults u) (ht : t ∈ u.client.holdings.held) :
    ∃ c, (c, t) ∈ u.granted := by
  obtain ⟨p, hheld⟩ := ht
  obtain ⟨conn, hconn, hmem⟩ := h.tracked.locks.held p t hheld
  exact ⟨_, h.granted_of_tracked hconn hmem⟩

/-- **A token that is granted is new.** -/
theorem ne_of_granted (h : InUse settings faults (u.does (.lock conn kind mode)))
    (hgranted : kind.granted? conn mode u.client = some token) (hold : (c, t) ∈ u.granted) :
    t ≠ token := by
  have hdistinct := h.tracked.locks.numbered.distinct
  rw [granted_does_lock hgranted, List.map_append, List.nodup_append] at hdistinct
  exact hdistinct.2.2 t (List.mem_map_of_mem hold) token List.mem_cons_self

end InUse

/-! ## The grant of a bracket -/

/-- **A grant that is safe**: it was given through a connection that is open, it is held, and it
is outstanding there. -/
structure Guarded (u : Usage) (conn : Connection) (t : LockToken) : Prop where
  opened : conn ∈ u.opened
  held : t ∈ u.client.holdings.held
  tracked : t ∈ u.client.holdings.tracked conn.handle.connection

namespace Guarded

variable {deed : Deed} {around : List Connection} {known : Set LockToken}

/-- No deed within the bracket is about its token. -/
theorem lockEvents_apart (h : Guarded u conn t) (hu : InUse settings faults u)
    (hu' : InUse settings faults (u.does deed)) (hallowed : u.Allows deed)
    (hwithin : deed.Within around known) (hconn : conn ∈ around) (ht : t ∉ known) :
    ∀ e ∈ deed.lockEvents u.client, e.token ≠ t := by
  have hgrant := hu.granted_of_tracked h.opened h.tracked
  intro e he
  cases deed with
  | lock other kind mode =>
    obtain ⟨token, htoken, rfl⟩ := List.mem_map.1 he
    exact (hu'.ne_of_granted (Option.mem_toList.1 htoken) hgrant).symm
  | endLock other token =>
    have htoken : e.token = token := by
      simp only [Deed.lockEvents] at he
      split at he
      · rw [List.mem_singleton.1 he]
        rfl
      · cases he
    rintro rfl
    exact ht (htoken ▸ hwithin)
  | close other order =>
    obtain ⟨token, htoken, rfl⟩ := List.mem_map.1 he
    rintro rfl
    -- A token is outstanding on one connection, and that one is not closed.
    have hsame := hu.tracked.locks.connection_eq (hu.granted_of_tracked hallowed.1 htoken) hgrant
    exact hwithin (hu.tracked.opened.distinct other hallowed.1 conn h.opened hsame ▸ hconn)
  | _ => cases he

/-- **What one deed leaves alone.** -/
theorem does (h : Guarded u conn t) (hu : InUse settings faults u)
    (hu' : InUse settings faults (u.does deed)) (hallowed : u.Allows deed)
    (hwithin : deed.Within around known) (hconn : conn ∈ around) (ht : t ∉ known) :
    Guarded (u.does deed) conn t := by
  have hapart := h.lockEvents_apart hu hu' hallowed hwithin hconn ht
  have hafter := hu.holdings_does hallowed
  refine ⟨mem_opened_does h.opened (hwithin.ne_close hconn), ?_, ?_⟩
  · rw [hafter]
    exact (Holdings.mem_held_afterAll_iff hapart).2 h.held
  · rw [hafter]
    exact (Holdings.mem_tracked_afterAll_iff hapart).2 h.tracked

/-- **What a routine leaves alone**, with all its own locks and brackets: the grant is there in
every state on the way, and nothing in the routine is about its token. -/
theorem course {course : Course β} (hproper : course.Proper around known u)
    (h : Guarded u conn t) (huse : ∀ v ∈ course.passed, InUse settings faults v)
    (hconn : conn ∈ around) (ht : t ∉ known) :
    (∀ v ∈ course.passed, Guarded v conn t) ∧ ∀ e ∈ course.events, e.token ≠ t := by
  induction hproper with
  | ret =>
    refine ⟨fun v hv => ?_, fun e he => absurd he List.not_mem_nil⟩
    rw [List.mem_singleton.1 hv]
    exact h
  | deed hallowed hwithin hrest ih =>
    rw [Course.preceded, List.forall_mem_append] at huse
    have hu := huse.1 _ List.mem_cons_self
    have hu' := huse.2 _ hrest.mem_passed
    have hapart := h.lockEvents_apart hu hu' hallowed hwithin hconn ht
    have hafter := h.does hu hu' hallowed hwithin hconn ht
    have hnew := fun hmem => Or.elim hmem ht (not_mem_handedOut hapart)
    obtain ⟨hpassed, hothers⟩ := ih hafter huse.2 hconn hnew
    refine ⟨List.forall_mem_cons.2 ⟨h, hpassed⟩, List.forall_mem_append.2 ⟨hapart, hothers⟩⟩
  | @bracket _ _ around known u other kind mode token inside course hother hgranted hinside hrest
      ihinside ih =>
    rw [Course.preceded, List.forall_mem_append, List.forall_mem_cons] at huse
    obtain ⟨⟨hu, huse⟩, huse'⟩ := huse
    have hu' := huse _ hinside.mem_passed
    have hallowed : u.Allows (.lock other kind mode) := hother
    have hentered := h.does hu hu' hallowed trivial hconn ht
    obtain ⟨hpassed, hothers⟩ := ihinside hentered huse (List.mem_cons_of_mem _ hconn) ht
    -- The bracket gives its own token back, which is another one.
    have hrelease : inside.last.Allows (.endLock other token) :=
      hinside.mem_opened List.mem_cons_self (mem_opened_lock hother)
    have hne : t ∉ ({token} : Set LockToken) := fun hmem =>
      hu'.ne_of_granted hgranted (hu.granted_of_tracked h.opened h.tracked) hmem
    have hleft := (hpassed _ hinside.last_mem_passed).does (huse _ hinside.last_mem_passed)
      (huse' _ hrest.mem_passed) hrelease (Set.mem_singleton token) hconn hne
    have hnew := fun hmem => Or.elim hmem ht (not_mem_handedOut hothers)
    obtain ⟨hpassed', hothers'⟩ := ih hleft huse' hconn hnew
    exact ⟨List.forall_mem_append.2 ⟨List.forall_mem_cons.2 ⟨h, hpassed⟩, hpassed'⟩,
      List.forall_mem_append.2 ⟨hothers, hothers'⟩⟩

/-- **A grant that is safe can be given back.** -/
theorem release (h : Guarded u conn t) (hu : InUse settings faults u) :
    ((conn.endLock t).outcome u.client).1 = .ok () := by
  obtain ⟨place, r, hr, -⟩ := hu.tracked.opened.standsFor conn h.opened
  obtain ⟨-, hget, hid⟩ := Engine.resolve_eq_ok_iff.1 hr
  obtain ⟨p, hheldAt⟩ := h.held
  obtain ⟨s, hs, hregion, hheld⟩ := hheldAt
  have hsound := hu.reachable.sound hu.opens
  have hsize := hsound.attached.size_le
  have hopens := hu.opens
  have hsame : s.id = r.id :=
    hregion.trans ((hu.tracked.locks.granted conn h.opened t h.tracked).2.trans hid.symm)
  have hp := hsound.registered.place_eq (by omega) hs hget hsame
  subst hp
  rw [hget, Option.some.injEq] at hs
  subst hs
  obtain ⟨lock, c', houtcome, -⟩ := Connection.outcome_endLock hr ⟨hregion, hheld⟩
  rw [houtcome]

end Guarded

/-! ## What a bracket leaves -/

/-- **A bracket is neutral**: its grant is there at every step of the routine inside, it is given
back once, and what is left of the locks is what the routine itself made of them. -/
structure Neutral (u : Usage) (conn : Connection) (token : LockToken) (course : Course β) :
    Prop where
  /-- The grant is held, and outstanding on the connection, in all states of the routine. -/
  held : ∀ v ∈ course.passed, token ∈ v.client.holdings.held ∧
    token ∈ v.client.holdings.tracked conn.handle.connection
  /-- The routine neither takes its token nor gives it back. -/
  apart : ∀ e ∈ course.events, e.token ≠ token
  /-- The bracket gives it back. -/
  released : ((conn.endLock token).outcome course.last.client).1 = .ok ()
  /-- Then it is held nowhere, and outstanding nowhere. -/
  gone : token ∉ (course.left conn token).client.holdings.held ∧
    ∀ c, token ∉ (course.left conn token).client.holdings.tracked c
  /-- All locks are as before, but for what the routine took and gave back. -/
  holdings : (course.left conn token).client.holdings =
    u.client.holdings.afterAll course.events

/-- The bracket comes to what its routine came to. -/
theorem Neutral.answer_eq {course : Course β} (h : Neutral u conn token course) :
    course.answer conn token = course.result := by
  rw [Course.answer, h.released]
  cases course.result <;> rfl

/-- **A bracket around a course is neutral**, if it is known what the course does to locks. -/
theorem InUse.neutral {course : Course β} {around : List Connection} {known : Set LockToken}
    (hu : InUse settings faults u) (hconn : conn ∈ u.opened)
    (hgranted : kind.granted? conn mode u.client = some token)
    (hproper : course.Proper (conn :: around) known (u.does (.lock conn kind mode)))
    (hknown : ∀ t ∈ known, ∃ c, (c, t) ∈ u.granted)
    (huse : ∀ v ∈ course.passed, InUse settings faults v)
    (hcourse : course.last.client.holdings =
      (u.does (.lock conn kind mode)).client.holdings.afterAll course.events) :
    Neutral u conn token course := by
  have hallowed : u.Allows (.lock conn kind mode) := hconn
  have hentered : (u.does (.lock conn kind mode)).client.holdings =
      u.client.holdings.after (.taken conn.handle.connection token) := by
    rw [hu.holdings_does hallowed, Deed.lockEvents, hgranted]
    rfl
  -- The token is new: it is held for nobody, outstanding nowhere and known to nobody.
  have hfresh : ∀ c, (c, token) ∉ u.granted := fun c hold =>
    (huse _ hproper.mem_passed).ne_of_granted hgranted hold rfl
  have hunheld : token ∉ u.client.holdings.held := fun h =>
    (hu.exists_granted_of_held h).elim hfresh
  have huntracked : ∀ c, token ∉ u.client.holdings.tracked c := fun _ h =>
    (hu.exists_granted_of_tracked h).elim hfresh
  have hunknown : token ∉ known := fun h => (hknown token h).elim hfresh
  have hguarded : Guarded (u.does (.lock conn kind mode)) conn token := by
    refine ⟨mem_opened_lock hconn, ?_, ?_⟩
    · rw [hentered]
      exact Set.mem_insert token _
    · rw [hentered]
      simp only [Holdings.after, Function.update_self]
      exact List.mem_append_right _ List.mem_cons_self
  obtain ⟨hpassed, hapart⟩ := hguarded.course hproper huse List.mem_cons_self hunknown
  have hlast := huse _ hproper.last_mem_passed
  have hkept := hpassed _ hproper.last_mem_passed
  have hreleased := hkept.release hlast
  have hleft : (course.left conn token).client.holdings =
      course.last.client.holdings.after (.ended conn.handle.connection token) := by
    have hallowed : course.last.Allows (.endLock conn token) := hkept.opened
    rw [Course.left, hlast.holdings_does hallowed]
    simp only [Deed.lockEvents, hreleased]
    rfl
  have hholdings : (course.left conn token).client.holdings =
      u.client.holdings.afterAll course.events := by
    rw [hleft, hcourse, hentered, Holdings.taken_afterAll_ended hunheld (huntracked _) hapart]
  exact {
    held := fun v hv => ⟨(hpassed v hv).held, (hpassed v hv).tracked⟩
    apart := hapart
    released := hreleased
    gone := by
      rw [hholdings, Holdings.mem_held_afterAll_iff hapart]
      exact ⟨hunheld, fun c h => huntracked c ((Holdings.mem_tracked_afterAll_iff hapart).1 h)⟩
    holdings := hholdings }

/-- **What a routine makes of the locks** is what it took and gave back itself: its brackets leave
nothing. -/
theorem InUse.holdings_course {course : Course β} {around : List Connection}
    {known : Set LockToken} (hproper : course.Proper around known u)
    (hknown : ∀ t ∈ known, ∃ c, (c, t) ∈ u.granted)
    (huse : ∀ v ∈ course.passed, InUse settings faults v) :
    course.last.client.holdings = u.client.holdings.afterAll course.events := by
  induction hproper with
  | ret => rfl
  | @deed _ _ known u deed course hallowed _ hrest ih =>
    rw [Course.preceded, List.forall_mem_append] at huse
    have hu := huse.1 u List.mem_cons_self
    have hknown' : ∀ t ∈ known ∪ handedOut (deed.lockEvents u.client),
        ∃ c, (c, t) ∈ (u.does deed).granted := by
      rintro t (ht | ⟨c, ht⟩)
      · exact (hknown t ht).imp fun c hold => (u.granted_kept_does deed).subset hold
      · exact ⟨c, mem_granted_does ht⟩
    change course.last.client.holdings =
      u.client.holdings.afterAll (deed.lockEvents u.client ++ course.events)
    rw [ih hknown' huse.2, hu.holdings_does hallowed, Holdings.afterAll_append]
  | @bracket _ _ around known u conn kind mode token inside course hconn hgranted hinside hrest
      ihinside ih =>
    rw [Course.preceded, List.forall_mem_append, List.forall_mem_cons] at huse
    obtain ⟨⟨hu, huse⟩, huse'⟩ := huse
    have hfirst := u.granted_kept_does (.lock conn kind mode)
    have hleft := inside.last.granted_kept_does (.endLock conn token)
    have hentered := ihinside (fun t ht => (hknown t ht).imp fun c hold => hfirst.subset hold) huse
    have hneutral := hu.neutral hconn hgranted hinside hknown huse hentered
    have hknown' : ∀ t ∈ known ∪ handedOut inside.events,
        ∃ c, (c, t) ∈ (inside.left conn token).granted := by
      rintro t (ht | ⟨c, ht⟩)
      · exact (hknown t ht).imp fun c hold =>
          hleft.subset (hinside.granted_kept.subset (hfirst.subset hold))
      · exact ⟨c, hleft.subset (hinside.granted c t ht)⟩
    change course.last.client.holdings =
      u.client.holdings.afterAll (inside.events ++ course.events)
    rw [ih hknown' huse', hneutral.holdings, Holdings.afterAll_append]

/-- **Brackets are neutral.** Whatever a routine does, if it gives back only tokens that were
handed out and leaves the connection open, and however much of it fails: its bracket holds the
grant all the time and gives it back once, and what remains of the locks is what the routine took
and gave back. The bracket comes to what the routine came to; a failure of the release would be
told only of a routine that succeeded. -/
theorem brackets_are_neutral (h : Reachable settings faults u) (hconn : conn ∈ u.opened)
    (hgranted : ((kind.action conn mode).outcome u.client).1 = .ok (some token))
    (routine : Routine β)
    (hproper : routine.Proper [conn] {t | ∃ c, (c, t) ∈ u.granted}
      (u.does (.lock conn kind mode)))
    (hopens : (routine.run (u.does (.lock conn kind mode))).last.opens < 2 ^ 64)
    (hgrants : (routine.run (u.does (.lock conn kind mode))).last.granted.length < 2 ^ 64) :
    let course := routine.run (u.does (.lock conn kind mode))
    Neutral u conn token course ∧
      (conn.underLock token routine.action).outcome (u.does (.lock conn kind mode)).client =
        (course.result, (course.left conn token).client) ∧
      (kind = .start → (conn.withLock mode routine.action).outcome u.client =
        (course.result.map some, (course.left conn token).client)) ∧
      ∀ (c : Client) (t : LockToken),
        ((conn.underLock t routine.action).outcome c).1 =
          match (routine.action.outcome c).1 with
          | .error err => .error err
          | .ok b => ((conn.endLock t).outcome (routine.action.outcome c).2).1.map fun _ => b := by
  intro course
  have hgranted' := LockCall.granted?_eq_some_iff.2 hgranted
  have hallowed : u.Allows (.lock conn kind mode) := hconn
  have hgoes := hproper.course
  have hleads := hgoes.leads
  have huse : ∀ v ∈ course.passed, InUse settings faults v := fun v hv =>
    .of_leads ((hleads v hv).1.reachable (h.does hallowed)) (hleads v hv).2 hopens hgrants
  have hu : InUse settings faults u :=
    .of_leads h ((leads_does hallowed).trans (hleads _ hgoes.mem_passed).2) hopens hgrants
  have hinside := InUse.holdings_course hgoes
    (fun t ht => ht.imp fun c hold =>
      (u.granted_kept_does (.lock conn kind mode)).subset hold) huse
  have hneutral := hu.neutral hconn hgranted' hgoes (fun t ht => ht) huse hinside
  refine ⟨hneutral, ?_, ?_, fun c t => ?_⟩
  · rw [Routine.outcome_underLock, hneutral.answer_eq]
  · rintro rfl
    rw [Routine.outcome_withLock routine hgranted', hneutral.answer_eq]
  · rw [Connection.outcome_underLock]
    cases (routine.action.outcome c).1 <;> rfl

/-- The only connection to a shared region. -/
def sole : Connection := ⟨Engine.firstShared, .ofShared "shared" 0⟩

/-- A client with a shared lock that is still held. -/
def holding : Usage :=
  ((start {} {}).does (.openWith sole.settings)).does (.lock sole .start .shared)

/-- Takes a lock and leaves it, gives an older one back in a bracket of its own, and fails. -/
def nestedFailure : Routine Unit :=
  .call (.lock sole .attempt .shared) fun _ =>
    .bracket sole .start .shared
      (.call (.endLock sole ⟨⟨1⟩, ⟨1⟩, .shared⟩) fun answer => (.ret answer : Routine Unit))
      fun _ => .ret (.error .queryConflict)

/-- The bracket gives its second grant back, the one inside the fourth; the third is left. -/
theorem brackets_are_neutral_nested :
    let outcome := (sole.withLock .shared nestedFailure.action).outcome holding.client
    outcome.1 = .error .queryConflict ∧
      (outcome.2.held ⟨1⟩).locks = [⟨⟨1⟩, ⟨3⟩, .shared⟩] ∧
      ∃ course : Course Unit, Neutral holding sole ⟨⟨1⟩, ⟨2⟩, .shared⟩ course ∧
        course.events =
          [.taken ⟨1⟩ ⟨⟨1⟩, ⟨3⟩, .shared⟩, .ended ⟨1⟩ ⟨⟨1⟩, ⟨1⟩, .shared⟩] := by
  have hopened : sole ∈ holding.opened := List.mem_cons_self
  have hreachable : Reachable {} {} holding :=
    .does (.does .start trivial) List.mem_cons_self
  have hgranted : ((LockCall.start.action sole .shared).outcome holding.client).1 =
    .ok (some ⟨⟨1⟩, ⟨2⟩, .shared⟩) := rfl
  have hinside : LockCall.start.granted? sole .shared ((holding.does
      (.lock sole .start .shared)).does (.lock sole .attempt .shared)).client =
    some ⟨⟨1⟩, ⟨4⟩, .shared⟩ := rfl
  have hproper : nestedFailure.Proper [sole] {t | ∃ c, (c, t) ∈ holding.granted}
      (holding.does (.lock sole .start .shared)) := by
    refine ⟨List.mem_cons_self, trivial, (Routine.proper_granted_iff hinside).2 ?_⟩
    exact ⟨List.mem_cons_self,
      ⟨List.mem_cons_self, .inl ⟨⟨1⟩, List.mem_cons_self⟩, trivial⟩, trivial⟩
  obtain ⟨hneutral, -, hwithLock, -⟩ := brackets_are_neutral hreachable hopened hgranted
    nestedFailure hproper (by decide) (by decide)
  rw [hwithLock rfl]
  exact ⟨rfl, rfl, _, hneutral, rfl⟩

end Usage

end RecordStore
