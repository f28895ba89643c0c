import RecordStore.Proofs.Client.Actions
import RecordStore.Proofs.Query.Prefetch
/-!
# Building — what engines and clients make of a request for a query

An engine builds a query in the region that the handle stands for. A client
checks the request first, by rules of its own; they refuse the same queries
that the engine refuses (`validate_error_iff`), so that a query that passes
the client fails in the engine only for its handles or for want of a slot.
-/

namespace RecordStore

namespace QueryRequest

variable {request : QueryRequest}

theorem forM_validate_error_iff {conditions : List Condition} :
    (∃ err, conditions.forM Condition.validate = .error err) ↔
      ∃ c ∈ conditions, c.comparator.IsInvalid := by
  induction conditions with
  | nil => simp [pure, Except.pure]
  | cons c rest ih =>
    have hcons : (c :: rest).forM Condition.validate =
        c.validate.bind fun _ => rest.forM Condition.validate := rfl
    rw [hcons, Condition.validate_eq]
    by_cases hc : c.comparator.IsInvalid
    · simp [hc, Except.bind]
    · simpa [hc, Except.bind] using ih

/-- **A client refuses what the engine refuses.** -/
theorem validate_error_iff :
    (∃ err, request.validate = .error err) ↔ Refused request.template request.conditions := by
  rw [Refused, ← forM_validate_error_iff, validate]
  by_cases hboth : request.template.isSome ∧ request.conditions ≠ []
  · simp [hboth]
  · have hcheck : (request.template.isSome && !request.conditions.isEmpty) = false := by
      simpa [Bool.and_eq_true, List.isEmpty_iff] using hboth
    simp only [hcheck, hboth, Bool.false_eq_true, if_false, false_or]
    cases request.conditions.forM Condition.validate <;> simp [Except.mapError]

end QueryRequest

namespace Connection

variable {conn : Connection} {request : QueryRequest} {c : Client}

/-- A client that refuses a query does not ask the engine. -/
theorem buildQuery_refused {err : ClientError} (h : request.validate = .error err) :
    (conn.buildQuery request).outcome c = (.error err, c) := by
  simp only [buildQuery, h]
  rfl

/-- A client that asks the engine passes on what the engine answers, and remembers the query. -/
theorem buildQuery_asked (h : request.validate = .ok ()) :
    ((conn.buildQuery request).outcome c).1 =
        ((c.engine.buildQuery conn.handle request.template request.conditions
          request.limit).1.mapError .engine).map (fun handle => { handle }) ∧
      ((conn.buildQuery request).outcome c).2.engine =
        (c.engine.buildQuery conn.handle request.template request.conditions request.limit).2 := by
  simp only [buildQuery, h, Action.outcome_bind, Action.outcome_check, Action.outcome_change]
  cases c.engine.buildQuery conn.handle request.template request.conditions request.limit with
  | mk answer e => cases answer <;> exact ⟨rfl, rfl⟩

end Connection

namespace Engine

variable {e : Engine} {db : DbHandle} {place : Nat} {r : Region} {template : Option RecordHandle}
variable {conditions : List Condition} {limit : Nat}

/-- A query is built by the region that its handle stands for. -/
theorem perform_buildQuery (h : e.resolve db = .ok (place, r))
    (hcheck : checkTemplate db template = .ok ()) :
    e.perform (.buildQuery db template conditions limit) =
      (((r.buildQuery db.connection (template.map RecordHandle.key) conditions limit).1.map
          fun key => .query (db.query key)),
        e.putRegion place
          (r.buildQuery db.connection (template.map RecordHandle.key) conditions limit).2) :=
  perform_of_resolve rfl rfl hcheck h

/-- A template that was obtained through an attachment. -/
def OwnTemplate (db : DbHandle) (template : Option RecordHandle) : Prop :=
  ∀ rec ∈ template, rec.region = db.region ∧ rec.connection = db.connection

theorem checkTemplate_of_own (h : OwnTemplate db template) :
    checkTemplate db template = .ok () := by
  cases template with
  | none => rfl
  | some rec => exact if_pos (h rec rfl)

/-- The rows of a query that an engine built. -/
theorem rows_of_perform (hc : r.Coherent) (h : e.resolve db = .ok (place, r)) {reply : Reply}
    (hreply : (e.perform (.buildQuery db template conditions limit)).1 = .ok reply) :
    ∃ key r' cursor, reply = .query (db.query key) ∧
      (e.perform (.buildQuery db template conditions limit)).2.resolve db = .ok (place, r') ∧
      r'.queries.get? key = some cursor ∧ cursor.connection = db.connection ∧
      cursor.passed = 0 ∧
      cursor.rows = cut limit ((r.listing.filter fun x =>
        Matches (Listing.template? (template.map RecordHandle.key) r.listing) conditions
          x.fields).map LiveRecord.key) := by
  cases hcheck : checkTemplate db template with
  | error err =>
    have hrefused : e.perform (.buildQuery db template conditions limit) = _ := perform_eq rfl rfl
    simp only [precheck, hcheck] at hrefused
    rw [hrefused] at hreply
    cases hreply
  | ok =>
    rw [perform_buildQuery h hcheck] at hreply ⊢
    cases hbuild : r.buildQuery db.connection (template.map RecordHandle.key) conditions limit with
    | mk answer r' =>
      rw [hbuild] at hreply
      cases answer with
      | error err => cases hreply
      | ok key =>
        cases hreply
        obtain ⟨cursor, hcursor⟩ := hc.buildQuery_rows hbuild
        have hid := (Region.Change.built hbuild : Region.Change 0 r r').id_eq
        exact ⟨key, r', cursor, rfl, resolve_putRegion h hid, hcursor⟩

/-- An engine builds a query unless it is refused. -/
theorem perform_buildQuery_fails_iff (hc : r.Coherent) (h : e.resolve db = .ok (place, r))
    (hown : OwnTemplate db template)
    (hlive : ∀ rec ∈ template, (Listing.lookup rec.key r.listing).isSome)
    (hslots : r.queries.count < SlotTable.maxSlots) :
    (∃ err, (e.perform (.buildQuery db template conditions limit)).1 = .error err) ↔
      Refused template conditions := by
  have hkeys : ∀ key ∈ template.map RecordHandle.key,
      (Listing.lookup key r.listing).isSome := by
    intro key hkey
    obtain ⟨rec, hrec, rfl⟩ := Option.map_eq_some_iff.1 hkey
    exact hlive rec hrec
  have hfails : (∃ err, (r.buildQuery db.connection (template.map RecordHandle.key) conditions
      limit).1 = .error err) ↔ _ := hc.buildQuery_fails_iff hkeys hslots
  rw [perform_buildQuery h (checkTemplate_of_own hown),
    ← refused_congr (Option.isSome_map : (template.map RecordHandle.key).isSome = _), ← hfails]
  cases (r.buildQuery db.connection (template.map RecordHandle.key) conditions limit).1 <;>
    simp [Except.map]

/-- **A query that is built prefetches exactly the live records that match**, in the order of
their creation, cut to the limit; with a valid template, and while slots are left, a query is
built unless it is refused for its form or its comparators. A client fails in the same cases,
then without asking the engine, and else has the query that the engine built. -/
theorem build_prefetches_matches {settings : EngineSettings} {calls : List Call}
    (h : ((start settings).run calls).resolve db = .ok (place, r))
    (template : Option RecordHandle) (conditions : List Condition) (limit : Nat) :
    let e := (start settings).run calls
    let built := e.perform (.buildQuery db template conditions limit)
    (∀ reply, built.1 = .ok reply → ∃ key r' cursor, reply = .query (db.query key) ∧
      built.2.resolve db = .ok (place, r') ∧ r'.queries.get? key = some cursor ∧
      cursor.connection = db.connection ∧ cursor.passed = 0 ∧
      cursor.rows = cut limit ((r.listing.filter fun x =>
        Matches (Listing.template? (template.map RecordHandle.key) r.listing) conditions
          x.fields).map LiveRecord.key)) ∧
    (OwnTemplate db template → (∀ rec ∈ template, (Listing.lookup rec.key r.listing).isSome) →
      r.queries.count < 2 ^ 32 →
      ((∃ err, built.1 = .error err) ↔ Refused template conditions) ∧
      ∀ (c : Client) (conn : Connection), c.engine = e → conn.handle = db →
        let outcome := (conn.buildQuery ⟨template, conditions, limit⟩).outcome c
        ((∃ err, outcome.1 = .error err) ↔ Refused template conditions) ∧
          (Refused template conditions → outcome.2 = c) ∧
          ∀ q, outcome.1 = .ok q → q = { handle := q.handle } ∧
            built.1 = .ok (.query q.handle) ∧ outcome.2.engine = built.2) := by
  intro e built
  have hc := coherent_run (getElem?_of_resolve h)
  refine ⟨fun reply hreply => rows_of_perform hc h hreply, fun hown hlive hslots => ?_⟩
  have hfails : (∃ err, built.1 = .error err) ↔ Refused template conditions :=
    perform_buildQuery_fails_iff hc h hown hlive hslots
  refine ⟨hfails, ?_⟩
  rintro c conn hengine rfl
  intro outcome
  have hrefuses := @QueryRequest.validate_error_iff ⟨template, conditions, limit⟩
  cases hvalid : QueryRequest.validate ⟨template, conditions, limit⟩ with
  | error err =>
    -- The client refuses the query, as the engine would.
    have hrefused := hrefuses.1 ⟨err, hvalid⟩
    have houtcome : outcome = (.error err, c) := Connection.buildQuery_refused hvalid
    rw [houtcome]
    exact ⟨iff_of_true ⟨err, rfl⟩ hrefused, fun _ => rfl, fun q hq => by cases hq⟩
  | ok =>
    -- The engine is asked, and has no reason left to refuse.
    have hbuilt : ¬ Refused template conditions := by
      intro hrefused
      obtain ⟨err, herr⟩ := hrefuses.2 hrefused
      rw [hvalid] at herr
      cases herr
    obtain ⟨hanswer, hafter⟩ := @Connection.buildQuery_asked conn _ c hvalid
    rw [hengine] at hanswer hafter
    have hengineAnswer : built.1 =
        (e.buildQuery conn.handle template conditions limit).1.map .query := rfl
    cases hbuild : (e.buildQuery conn.handle template conditions limit).1 with
    | error err =>
      rw [hbuild] at hengineAnswer
      exact absurd (hfails.1 ⟨err, hengineAnswer⟩) hbuilt
    | ok handle =>
      rw [hbuild] at hengineAnswer hanswer
      refine ⟨iff_of_false ?_ hbuilt, fun hrefused => absurd hrefused hbuilt, fun q hq => ?_⟩
      · rintro ⟨err, herr⟩
        rw [hanswer] at herr
        cases herr
      · rw [hanswer] at hq
        cases hq
        exact ⟨rfl, hengineAnswer, hafter⟩

/-- A run that makes three records of one field: a small integer, a greater one, and nothing. -/
def threeRecords : List Call :=
  [.openDatabase none 0 true, .create firstLocal 1, .create firstLocal 1, .create firstLocal 1,
    .set firstLocal (firstLocal.record ⟨0, 0⟩) 0 (.int 5),
    .set firstLocal (firstLocal.record ⟨1, 0⟩) 0 (.int 20)]

/-- What is less than 10 are the small integer and the unset field. -/
theorem build_prefetches_matches_less :
    ∃ key r' cursor,
      (((start {}).run threeRecords).perform
        (.buildQuery firstLocal none [⟨0, ⟨0x04⟩, 10⟩] 0)).2.resolve firstLocal = .ok (0, r') ∧
      r'.queries.get? key = some cursor ∧ cursor.rows = [⟨0, 0⟩, ⟨2, 0⟩] := by
  obtain ⟨r, hr, hl, hcount⟩ : ∃ r, ((start {}).run threeRecords).resolve firstLocal = .ok (0, r) ∧
      r.listing = [⟨⟨0, 0⟩, #[some (.int 5)]⟩, ⟨⟨1, 0⟩, #[some (.int 20)]⟩, ⟨⟨2, 0⟩, #[none]⟩] ∧
      r.queries.count = 0 := ⟨_, rfl, by decide, by decide⟩
  obtain ⟨hrows, hfails⟩ := build_prefetches_matches hr none [⟨0, ⟨0x04⟩, 10⟩] 0
  have hbuilt := (hfails (by simp [OwnTemplate]) (by simp) (by rw [hcount]; decide)).1
  cases hanswer : (((start {}).run threeRecords).perform
      (.buildQuery firstLocal none [⟨0, ⟨0x04⟩, 10⟩] 0)).1 with
  | error err => exact absurd (hbuilt.1 ⟨err, hanswer⟩) (by decide)
  | ok reply =>
    obtain ⟨key, r', cursor, -, hresolve, hcursor, -, -, hrows⟩ := hrows reply hanswer
    refine ⟨key, r', cursor, hresolve, hcursor, ?_⟩
    rw [hrows, hl]
    decide

end Engine

end RecordStore
