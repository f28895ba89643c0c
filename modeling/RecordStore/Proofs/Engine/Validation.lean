import RecordStore.Proofs.Engine.Attachments
import RecordStore.Proofs.Engine.Tokens
import RecordStore.Proofs.Query.Isolation
import RecordStore.Proofs.Query.Matching
/-!
# Validation — which handles are good for a call

A handle is plain data and may be made up. A call goes through with its
handles exactly when its database handle names an attachment, and its record
or query was obtained through that attachment and is still there
(`Validates`); otherwise it is refused, and neither reads nor changes
anything. The connection of an attachment that was ended is not given out
again, so that nothing obtained through it is ever good again
(`handles_are_checked`).
-/

namespace RecordStore

/-- Whether an error is the refusal of a handle of a database, record or query. -/
def Error.refusesHandle : Error → Bool
  | .invalidHandle kind _ => kind != .lock
  | _ => false

@[simp] theorem Error.refusesHandle_badDatabase (fault : HandleFault) :
    (Error.badDatabase fault).refusesHandle = true := rfl

@[simp] theorem Error.refusesHandle_badRecord (fault : HandleFault) :
    (Error.badRecord fault).refusesHandle = true := rfl

@[simp] theorem Error.refusesHandle_badQuery (fault : HandleFault) :
    (Error.badQuery fault).refusesHandle = true := rfl

/-- The answer is the refusal of a handle of a database, record or query. -/
def IsRefused {α : Type} (answer : Except Error α) : Prop :=
  ∃ err, answer = .error err ∧ err.refusesHandle = true

section IsRefused

variable {α β : Type} {answer : Except Error α}

@[simp] theorem not_isRefused_ok (a : α) : ¬ IsRefused (.ok a) := by
  simp [IsRefused]

@[simp] theorem isRefused_error (err : Error) :
    IsRefused (.error err : Except Error α) ↔ err.refusesHandle = true := by
  simp [IsRefused]

@[simp] theorem isRefused_map {f : α → β} : IsRefused (answer.map f) ↔ IsRefused answer := by
  cases answer <;> simp [Except.map]

/-- An error that is passed on refuses a handle if it did so before. -/
theorem isRefused_passed {err : Error} (h : answer = .error err) :
    IsRefused (.error err : Except Error β) ↔ IsRefused answer := by
  simp [h]

/-- Of two steps, where the second refuses no handle, the first does so or none. -/
theorem isRefused_bind {next : α → Except Error β} (hnext : ∀ a, ¬ IsRefused (next a)) :
    IsRefused (answer.bind next) ↔ IsRefused answer := by
  cases answer with
  | error err => simp [Except.bind]
  | ok a => simpa [Except.bind] using hnext a

end IsRefused

namespace Call

/-- The record that a call is about; for a query, the record of its template. -/
def record? : Call → Option RecordHandle
  | .next _ rec | .delete _ rec | .length _ rec | .set _ rec _ _ | .get _ rec _ => some rec
  | .buildQuery _ template _ _ => template
  | _ => none

/-- What a call is about, if it is about a record or a query, is as described. -/
structure About (call : Call) (isRecord : RecordHandle → Prop) (isQuery : QueryHandle → Prop) :
    Prop where
  record : ∀ rec, call.record? = some rec → isRecord rec
  query : ∀ query, call.query? = some query → isQuery query

section About

variable {call : Call} {isRecord : RecordHandle → Prop} {isQuery : QueryHandle → Prop}

theorem about_of_none (hrecord : call.record? = none) (hquery : call.query? = none) :
    call.About isRecord isQuery := by
  refine ⟨fun rec hrec => ?_, fun query hq => ?_⟩
  · rw [hrecord] at hrec
    cases hrec
  · rw [hquery] at hq
    cases hq

theorem about_record_iff {rec : RecordHandle} (hrecord : call.record? = some rec)
    (hquery : call.query? = none) : call.About isRecord isQuery ↔ isRecord rec := by
  refine ⟨fun h => h.record rec hrecord, fun h => ⟨fun other hother => ?_, fun query hq => ?_⟩⟩
  · rw [hrecord, Option.some.injEq] at hother
    exact hother ▸ h
  · rw [hquery] at hq
    cases hq

theorem about_query_iff {query : QueryHandle} (hrecord : call.record? = none)
    (hquery : call.query? = some query) : call.About isRecord isQuery ↔ isQuery query := by
  refine ⟨fun h => h.query query hquery, fun h => ⟨fun rec hrec => ?_, fun other hother => ?_⟩⟩
  · rw [hrecord] at hrec
    cases hrec
  · rw [hquery, Option.some.injEq] at hother
    exact hother ▸ h

end About

/-- The record and the query of a call were obtained through the attachment. -/
def Stamped (call : Call) (db : DbHandle) : Prop :=
  call.About (fun rec => rec.region = db.region ∧ rec.connection = db.connection)
    fun query => query.region = db.region ∧ query.connection = db.connection

/-- What a call is refused for before its handle is looked up: a record that is too long, or a
text with a zero character for a record of the attachment. -/
def FaultsEarly (settings : EngineSettings) (db : DbHandle) : Call → Prop
  | .create _ count => settings.maxFieldCount < count
  | .set _ rec _ value =>
    (rec.region = db.region ∧ rec.connection = db.connection) ∧ value.hasNul = true
  | _ => False

/-- The connections that the handles of a call name. -/
def Names (call : Call) (connection : ConnectionId) : Prop :=
  (∃ db, call.handle? = some db ∧ db.connection = connection) ∨
    (∃ rec, call.record? = some rec ∧ rec.connection = connection) ∨
    ∃ query, call.query? = some query ∧ query.connection = connection

end Call

namespace Region

variable {r : Region} {db : DbHandle} {call : Call} {key : SlotKey} {connection : ConnectionId}

/-- The region has what a call through the attachment is about. -/
def Finds (r : Region) (db : DbHandle) (call : Call) : Prop :=
  call.About (fun rec => ∃ found, r.records.get? rec.key = some found) fun query =>
    ∃ cursor, r.queries.get? query.key = some cursor ∧ cursor.connection = db.connection

/-! ## What a region refuses -/

theorem isRefused_record : IsRefused (r.record key) ↔ ¬ ∃ rec, r.records.get? key = some rec := by
  unfold record
  cases r.records.get? key <;> simp

theorem not_isRefused_create {length : Nat} : ¬ IsRefused (r.create length).1 := by
  have hcreation := r.creation length
  generalize (r.create length).1 = answer, (r.create length).2 = r' at hcreation
  cases hcreation <;> simp [Error.refusesHandle]

theorem isRefused_next : IsRefused (r.next key) ↔ ¬ ∃ rec, r.records.get? key = some rec :=
  isRefused_map.trans isRefused_record

theorem isRefused_length : IsRefused (r.length key) ↔ ¬ ∃ rec, r.records.get? key = some rec :=
  isRefused_map.trans isRefused_record

theorem isRefused_get {index : Nat} :
    IsRefused (r.get key index) ↔ ¬ ∃ rec, r.records.get? key = some rec := by
  rw [← isRefused_record]
  refine isRefused_bind fun rec => ?_
  cases rec.fields[index]? <;> simp [Error.refusesHandle]

theorem isRefused_delete :
    IsRefused (r.delete key).1 ↔ ¬ ∃ rec, r.records.get? key = some rec := by
  unfold delete
  cases hrem : r.records.remove? key with
  | none =>
    have hnone := SlotTable.remove?_eq_none_iff.1 hrem
    simp [hnone]
  | some removed =>
    obtain ⟨rec, records⟩ := removed
    have hsome := (SlotTable.remove?_eq_some_iff.1 hrem).1
    simp [hsome]

theorem isRefused_set {index : Nat} {value : FieldValue} :
    IsRefused (r.set key index value).1 ↔ ¬ ∃ rec, r.records.get? key = some rec := by
  rw [set_eq]
  cases r.records.get? key with
  | none => simp
  | some rec =>
    simp only [Option.some.injEq, exists_eq', not_true, iff_false]
    split
    · simp [Error.refusesHandle]
    · split <;> simp [Error.refusesHandle]

theorem not_isRefused_build (fields : Option (Array Field)) (conditions : List Condition) :
    ¬ IsRefused (QueryPlan.build? fields conditions) := by
  rintro ⟨err, h, hrefuses⟩
  obtain ⟨fault, hfault⟩ := QueryPlan.build?_error h
  rw [hfault] at hrefuses
  cases hrefuses

theorem isRefused_plan {template : Option SlotKey} {conditions : List Condition} :
    IsRefused (r.plan template conditions) ↔
      ¬ ∀ key, template = some key → ∃ rec, r.records.get? key = some rec := by
  cases template with
  | none =>
    have hbuild := not_isRefused_build none conditions
    simpa [plan] using hbuild
  | some key =>
    simp only [Option.some.injEq, forall_eq']
    rw [← isRefused_record]
    exact isRefused_bind fun rec => not_isRefused_build (some rec.fields) conditions

theorem isRefused_buildQuery {template : Option SlotKey} {conditions : List Condition}
    {limit : Nat} :
    IsRefused (r.buildQuery connection template conditions limit).1 ↔
      ¬ ∀ key, template = some key → ∃ rec, r.records.get? key = some rec := by
  have hplanned : IsRefused (r.plan template conditions) ↔ _ := isRefused_plan
  rw [← hplanned]
  unfold buildQuery
  cases hplan : r.plan template conditions with
  | error err => exact isRefused_passed rfl
  | ok plan =>
    simp only [not_isRefused_ok, iff_false]
    split <;> simp [Error.refusesHandle]

theorem isRefused_query :
    IsRefused (r.query connection key) ↔
      ¬ ∃ cursor, r.queries.get? key = some cursor ∧ cursor.connection = connection := by
  unfold query
  cases r.queries.get? key with
  | none => simp
  | some cursor =>
    by_cases hc : cursor.connection = connection <;> simp [hc]

theorem isRefused_fetch :
    IsRefused (r.fetch connection key).1 ↔
      ¬ ∃ cursor, r.queries.get? key = some cursor ∧ cursor.connection = connection := by
  rw [← isRefused_query]
  unfold fetch
  cases r.query connection key with
  | error err => exact isRefused_passed rfl
  | ok cursor => simp

theorem isRefused_freeQuery :
    IsRefused (r.freeQuery connection key).1 ↔
      ¬ ∃ cursor, r.queries.get? key = some cursor ∧ cursor.connection = connection := by
  rw [← isRefused_query]
  unfold freeQuery
  cases r.query connection key with
  | error err => exact isRefused_passed rfl
  | ok cursor =>
    simp only [not_isRefused_ok, iff_false]
    split <;> simp

theorem not_isRefused_endLock {token : LockToken} {mode : LockMode} :
    ¬ IsRefused (r.endLock token mode).1 := by
  rw [endLock_eq]
  split
  · simp [Error.refusesHandle]
  · split
    · simp [Error.refusesHandle]
    · unfold RegionLock.release
      split <;> simp [Error.refusesHandle]

/-- **A region refuses a call** exactly when what the call is about is not there. -/
theorem isRefused_serve (r : Region) (db : DbHandle) (call : Call) :
    IsRefused (r.serve db call).1 ↔ ¬ r.Finds db call := by
  -- A call about no record and no query finds all it is about, and is not refused.
  have hnothing : call.record? = none → call.query? = none → ¬ IsRefused (r.serve db call).1 →
      (IsRefused (r.serve db call).1 ↔ ¬ r.Finds db call) :=
    fun hrecord hquery hserve => iff_of_false hserve (not_not.2 (Call.about_of_none hrecord hquery))
  cases call with
  | create d length =>
    exact hnothing rfl rfl (isRefused_map.not.2 not_isRefused_create)
  | next d rec =>
    rw [Finds, Call.about_record_iff rfl rfl]
    exact isRefused_map.trans isRefused_next
  | delete d rec =>
    rw [Finds, Call.about_record_iff rfl rfl]
    exact isRefused_map.trans isRefused_delete
  | length d rec =>
    rw [Finds, Call.about_record_iff rfl rfl]
    exact isRefused_map.trans isRefused_length
  | set d rec index value =>
    rw [Finds, Call.about_record_iff rfl rfl]
    exact isRefused_map.trans isRefused_set
  | get d rec index =>
    rw [Finds, Call.about_record_iff rfl rfl]
    exact isRefused_map.trans isRefused_get
  | buildQuery d template conditions limit =>
    refine (isRefused_map.trans isRefused_buildQuery).trans (not_congr ?_)
    cases template with
    | none => exact iff_of_true nofun (Call.about_of_none rfl rfl)
    | some rec =>
      rw [Finds, Call.about_record_iff rfl rfl]
      simp
  | fetch d query =>
    rw [Finds, Call.about_query_iff rfl rfl]
    exact isRefused_map.trans isRefused_fetch
  | freeQuery d query =>
    rw [Finds, Call.about_query_iff rfl rfl]
    exact isRefused_map.trans isRefused_freeQuery
  | startLock d mode => exact hnothing rfl rfl (isRefused_map.not.2 (not_isRefused_ok _))
  | resumeLock d mode =>
    refine hnothing rfl rfl (isRefused_map.not.2 ?_)
    rw [resumeLock_eq]
    split <;> simp
  | tryLock d mode =>
    refine hnothing rfl rfl (isRefused_map.not.2 ?_)
    rw [tryLock_eq]
    split <;> simp
  | endLock d token mode => exact hnothing rfl rfl (isRefused_map.not.2 not_isRefused_endLock)
  | _ => exact hnothing rfl rfl (not_isRefused_ok _)

end Region

namespace Engine

variable {e : Engine} {call : Call} {calls : List Call} {db : DbHandle} {place given : Nat}
variable {r : Region} {c : ConnectionId} {err : Error}

/-- **The handles of a call are good**: its connection is attached to a region under the number
of the handle, the record was obtained through this attachment and is in its slot under just
its generation, and so is the query, which the connection has built. -/
def Validates (e : Engine) (db : DbHandle) (call : Call) : Prop :=
  ∃ place r, e.attachments.find? db.connection = some place ∧ e.regions[place]? = some r ∧
    r.id = db.region ∧
    (∀ rec, call.record? = some rec →
      (rec.region = db.region ∧ rec.connection = db.connection) ∧
        ∃ found, r.records.slot? rec.key.slot = some ⟨rec.key.generation, some found⟩) ∧
    ∀ query, call.query? = some query →
      (query.region = db.region ∧ query.connection = db.connection) ∧
        ∃ cursor, r.queries.slot? query.key.slot = some ⟨query.key.generation, some cursor⟩ ∧
          cursor.connection = db.connection

/-- Good handles are stamped, resolve and find what they stand for. -/
theorem validates_iff :
    e.Validates db call ↔
      call.Stamped db ∧ ∃ place r, e.resolve db = .ok (place, r) ∧ r.Finds db call := by
  simp only [Validates, ← SlotTable.get?_eq_some_iff, resolve_eq_ok_iff]
  constructor
  · rintro ⟨place, r, hplace, hr, hid, hrecord, hquery⟩
    exact ⟨⟨fun rec h => (hrecord rec h).1, fun query h => (hquery query h).1⟩, place, r,
      ⟨hplace, hr, hid⟩, fun rec h => (hrecord rec h).2, fun query h => (hquery query h).2⟩
  · rintro ⟨hstamped, place, r, ⟨hplace, hr, hid⟩, hfinds⟩
    exact ⟨place, r, hplace, hr, hid,
      fun rec h => ⟨hstamped.record rec h, hfinds.record rec h⟩,
      fun query h => ⟨hstamped.query query h, hfinds.query query h⟩⟩

/-- A handle that does not resolve is refused. -/
theorem refusesHandle_of_resolve (h : e.resolve db = .error err) : err.refusesHandle = true := by
  unfold resolve at h
  split at h
  · cases h
    rfl
  · split at h <;> cases h
    rfl

/-! ## What is checked before the region is looked up -/

/-- How the check of the arguments can go. -/
def Prechecked (e : Engine) (db : DbHandle) (call : Call) : Prop :=
  (e.precheck call = .ok () ∧ call.Stamped db ∧ ¬ call.FaultsEarly e.settings db) ∨
    ((∃ fault, e.precheck call = .error (.invalidArgument fault)) ∧
      call.FaultsEarly e.settings db) ∨
    (IsRefused (e.precheck call) ∧ ¬ call.Stamped db ∧ ¬ call.FaultsEarly e.settings db)

/-- A call whose only check is that of a stamp. -/
theorem prechecked_of_stamp {stamp : Prop} [Decidable stamp]
    (hfaults : ¬ call.FaultsEarly e.settings db) (hstamp : call.Stamped db ↔ stamp)
    (hrefuses : err.refusesHandle = true)
    (hcheck : e.precheck call = if stamp then .ok () else .error err) : e.Prechecked db call := by
  by_cases h : stamp
  · rw [if_pos h] at hcheck
    exact .inl ⟨hcheck, hstamp.2 h, hfaults⟩
  · rw [if_neg h] at hcheck
    exact .inr (.inr ⟨⟨err, hcheck, hrefuses⟩, hstamp.not.2 h, hfaults⟩)

/-- **The arguments of a call pass** exactly when its record and query are stamped with the
attachment and it has no early fault. Of the others, those with an early fault have an invalid
argument, and the rest are refused. -/
theorem prechecked (e : Engine) (h : call.handle? = some db) : e.Prechecked db call := by
  have hpass : call.record? = none → call.query? = none → ¬ call.FaultsEarly e.settings db →
      e.precheck call = .ok () → e.Prechecked db call :=
    fun hrecord hquery hfaults hcheck =>
      .inl ⟨hcheck, Call.about_of_none hrecord hquery, hfaults⟩
  cases call <;> simp only [Call.handle?, Option.some.injEq, reduceCtorEq] at h <;> subst h
  case create length =>
    by_cases hlong : e.settings.maxFieldCount < length
    · exact .inr (.inl ⟨⟨_, if_pos hlong⟩, hlong⟩)
    · exact hpass rfl rfl hlong (if_neg hlong)
  case next rec => exact prechecked_of_stamp id (Call.about_record_iff rfl rfl) rfl rfl
  case delete rec => exact prechecked_of_stamp id (Call.about_record_iff rfl rfl) rfl rfl
  case length rec => exact prechecked_of_stamp id (Call.about_record_iff rfl rfl) rfl rfl
  case get rec index => exact prechecked_of_stamp id (Call.about_record_iff rfl rfl) rfl rfl
  case set db rec index value =>
    have hstamped : (Call.set db rec index value).Stamped db ↔
        rec.region = db.region ∧ rec.connection = db.connection :=
      Call.about_record_iff rfl rfl
    by_cases hstamp : rec.region = db.region ∧ rec.connection = db.connection
    · have hcheck : e.precheck (.set db rec index value) = checkValue value := by
        simp only [precheck, checkRecord, if_pos hstamp]
        rfl
      by_cases hnul : value.hasNul = true
      · exact .inr (.inl ⟨⟨.nulInString, hcheck.trans (if_pos hnul)⟩, hstamp, hnul⟩)
      · exact .inl ⟨hcheck.trans (if_neg hnul), hstamped.2 hstamp, fun h => hnul h.2⟩
    · have hcheck : e.precheck (.set db rec index value) = .error (.badRecord .foreignRecord) := by
        simp only [precheck, checkRecord, if_neg hstamp]
        rfl
      exact .inr (.inr ⟨⟨_, hcheck, rfl⟩, hstamped.not.2 hstamp, fun h => hstamp h.1⟩)
  case buildQuery template conditions limit =>
    cases template with
    | none => exact hpass rfl rfl id rfl
    | some rec => exact prechecked_of_stamp id (Call.about_record_iff rfl rfl) rfl rfl
  case fetch query => exact prechecked_of_stamp id (Call.about_query_iff rfl rfl) rfl rfl
  case freeQuery query => exact prechecked_of_stamp id (Call.about_query_iff rfl rfl) rfl rfl
  all_goals exact hpass rfl rfl id rfl

/-! ## What comes of a call -/

/-- An attachment that is to be ended is looked up, and nothing else is. -/
theorem isRefused_detaching (h : call.handle? = some db) (hends : call.isDetaching = true) :
    IsRefused (e.perform call).1 ↔ ¬ ∃ place r, e.resolve db = .ok (place, r) := by
  cases call <;> simp only [Call.isDetaching, Bool.false_eq_true] at hends <;>
    simp only [Call.handle?, Option.some.injEq] at h <;> subst h
  case deleteLocal db =>
    refine isRefused_map.trans ?_
    unfold deleteLocal
    cases hr : e.resolve db with
    | error err => simp [refusesHandle_of_resolve hr]
    | ok found =>
      refine iff_of_false ?_ (not_not.2 ⟨found.1, found.2, rfl⟩)
      simp only
      split <;> simp [Error.refusesHandle]
  case detach db =>
    refine isRefused_map.trans ?_
    unfold detach
    cases hr : e.resolve db with
    | error err => simp [refusesHandle_of_resolve hr]
    | ok found =>
      refine iff_of_false ?_ (not_not.2 ⟨found.1, found.2, rfl⟩)
      simp only
      split <;> simp [Error.refusesHandle]

/-- **A call is refused** exactly when its handles are no good, unless it has an early fault. -/
theorem isRefused_perform_iff (h : call.handle? = some db) :
    IsRefused (e.perform call).1 ↔
      ¬ e.Validates db call ∧ ¬ call.FaultsEarly e.settings db := by
  rw [validates_iff]
  cases hends : call.isDetaching with
  | true =>
    -- It is about no record and no query, and has no early fault.
    rw [isRefused_detaching h hends]
    have habout : ∀ {isRecord isQuery}, call.About isRecord isQuery := by
      intro isRecord isQuery
      apply Call.about_of_none <;> cases call <;> first | rfl | cases hends
    have hfaults : ¬ call.FaultsEarly e.settings db := by
      cases call <;> first | exact id | cases hends
    simp only [hfaults, not_false_eq_true, and_true, Call.Stamped, Region.Finds, habout, true_and]
  | false =>
    rw [perform_eq h hends]
    rcases e.prechecked h with ⟨hcheck, hstamped, hfaults⟩ | ⟨⟨fault, hcheck⟩, hfaults⟩ |
      ⟨⟨err, hcheck, hrefuses⟩, hstamped, hfaults⟩
    · simp only [hcheck, hstamped, hfaults, true_and, not_false_eq_true, and_true, onRegion]
      cases hr : e.resolve db with
      | error err => simp [refusesHandle_of_resolve hr]
      | ok found =>
        obtain ⟨place, r⟩ := found
        simp only [Region.isRefused_serve, Except.ok.injEq, Prod.mk.injEq]
        simp
    · simp [hcheck, hfaults, Error.refusesHandle]
    · simp [hcheck, hstamped, hfaults, hrefuses]

/-- An argument with an early fault is refused as such. -/
theorem perform_of_faultsEarly (h : call.handle? = some db)
    (hfaults : call.FaultsEarly e.settings db) :
    ∃ fault, (e.perform call).1 = .error (.invalidArgument fault) := by
  have hends : call.isDetaching = false := by
    cases call <;> first | rfl | exact hfaults.elim
  rw [perform_eq h hends]
  rcases e.prechecked h with ⟨-, -, hnone⟩ | ⟨⟨fault, hcheck⟩, -⟩ | ⟨-, -, hnone⟩
  · exact absurd hfaults hnone
  · rw [hcheck]
    exact ⟨fault, rfl⟩
  · exact absurd hfaults hnone

/-- **Nothing is read or changed** with handles that are no good. -/
theorem perform_of_not_validates (h : call.handle? = some db) (hnot : ¬ e.Validates db call) :
    (∃ err, (e.perform call).1 = .error err) ∧ (e.perform call).2 = e := by
  have herr : ∃ err, (e.perform call).1 = .error err := by
    by_cases hfaults : call.FaultsEarly e.settings db
    · obtain ⟨fault, hfault⟩ := perform_of_faultsEarly h hfaults
      exact ⟨_, hfault⟩
    · obtain ⟨err, hrefused, -⟩ := (isRefused_perform_iff h).2 ⟨hnot, hfaults⟩
      exact ⟨err, hrefused⟩
  refine ⟨herr, ?_⟩
  by_cases hlock : ∃ token mode, call = .endLock db token mode
  · -- A lock is about no record and no query, so that its handle did not resolve.
    obtain ⟨token, mode, rfl⟩ := hlock
    rw [perform_eq rfl rfl]
    simp only [precheck, onRegion]
    cases hr : e.resolve db with
    | error err => rfl
    | ok found =>
      refine absurd (validates_iff.2 ⟨?_, found.1, found.2, hr, ?_⟩) hnot
      · exact Call.about_of_none rfl rfl
      · exact Call.about_of_none rfl rfl
  · obtain ⟨err, herr⟩ := herr
    refine perform_error herr fun d token mode heq => hlock ⟨token, mode, ?_⟩
    subst heq
    simp only [Call.handle?, Option.some.injEq] at h
    rw [h]

/-- **Good handles reach their region**, which serves the call. -/
theorem perform_of_validates (h : call.handle? = some db) (hends : call.isDetaching = false)
    (hgood : e.Validates db call) (hfaults : ¬ call.FaultsEarly e.settings db) :
    ∃ place r, e.resolve db = .ok (place, r) ∧
      e.perform call = ((r.serve db call).1, e.putRegion place (r.serve db call).2) := by
  obtain ⟨hstamped, place, r, hr, -⟩ := validates_iff.1 hgood
  rcases e.prechecked h with ⟨hcheck, -, -⟩ | ⟨-, hnone⟩ | ⟨-, hnone, -⟩
  · exact ⟨place, r, hr, perform_of_resolve h hends hcheck hr⟩
  · exact absurd hnone hfaults
  · exact absurd hstamped hnone

/-- A token is refused exactly where it is of another region. -/
theorem perform_endLock_refused_iff {token : LockToken} {mode : LockMode}
    (hgood : e.Validates db (.endLock db token mode)) :
    (∃ fault, (e.perform (.endLock db token mode)).1 = .error (.invalidHandle .lock fault)) ↔
      token.region ≠ db.region := by
  have hhandle : (Call.endLock db token mode).handle? = some db := rfl
  obtain ⟨place, r, hr, hperform⟩ := perform_of_validates hhandle rfl hgood id
  obtain ⟨-, -, hid⟩ := resolve_eq_ok_iff.1 hr
  rw [hperform, ← hid]
  simp only [Region.serve, reword, Region.endLock_eq]
  by_cases hregion : token.region = r.id
  · rw [if_neg (not_not.2 hregion)]
    refine iff_of_false ?_ (not_not.2 hregion)
    rintro ⟨fault, hfault⟩
    split at hfault
    · cases hfault
    · unfold RegionLock.release at hfault
      split at hfault <;> cases hfault
  · rw [if_pos hregion]
    exact iff_of_true ⟨_, rfl⟩ hregion

/-- Good handles name only connections that are attached. -/
theorem Validates.attached (h : e.Validates db call) (hhandle : call.handle? = some db)
    (hc : call.Names c) : ∃ place, e.attachments.find? c = some place := by
  obtain ⟨place, r, hplace, -, -, hrecord, hquery⟩ := h
  rcases hc with ⟨d, hd, rfl⟩ | ⟨rec, hrec, rfl⟩ | ⟨query, hq, rfl⟩
  · rw [hhandle, Option.some.injEq] at hd
    exact ⟨place, hd ▸ hplace⟩
  · rw [(hrecord rec hrec).1.2]
    exact ⟨place, hplace⟩
  · rw [(hquery query hq).1.2]
    exact ⟨place, hplace⟩

/-- **Handles are checked exactly**, whatever they are, in every state of every run with fewer
than 2^64 openings. A call is refused if and only if its handles are no good, unless it has an
invalid argument that is seen first; with handles that are no good it neither gives nor changes
anything, and with good ones it is what its region does. Once an attachment was ended, no handle
that was obtained through it is good. -/
theorem handles_are_checked (settings : EngineSettings) (calls : List Call)
    (hfew : ((start settings).handles calls).length < 2 ^ 64) :
    let e := (start settings).run calls
    (∀ call db, call.handle? = some db →
      (IsRefused (e.perform call).1 ↔
        ¬ e.Validates db call ∧ ¬ call.FaultsEarly settings db) ∧
      (call.FaultsEarly settings db →
        ∃ fault, (e.perform call).1 = .error (.invalidArgument fault)) ∧
      (¬ e.Validates db call →
        (∃ err, (e.perform call).1 = .error err) ∧ (e.perform call).2 = e) ∧
      (e.Validates db call → ¬ call.FaultsEarly settings db → call.isDetaching = false →
        ∃ place r, e.resolve db = .ok (place, r) ∧
          e.perform call = ((r.serve db call).1, e.putRegion place (r.serve db call).2)) ∧
      ∀ token mode, call = .endLock db token mode → e.Validates db call →
        ((∃ fault, (e.perform call).1 = .error (.invalidHandle .lock fault)) ↔
          token.region ≠ db.region)) ∧
      ∀ c, (start settings).Succeeds (Call.Ends c) calls → ∀ call db,
        call.handle? = some db → call.Names c → ¬ e.Validates db call := by
  intro e
  have hsettings : e.settings = settings := (start settings).run_settings calls
  refine ⟨fun call db h => ⟨?_, ?_, ?_, ?_, ?_⟩, ?_⟩
  · rw [← hsettings]
    exact isRefused_perform_iff h
  · rw [← hsettings]
    exact perform_of_faultsEarly h
  · exact perform_of_not_validates h
  · rw [← hsettings]
    exact fun hgood hfaults hends => perform_of_validates h hends hgood hfaults
  · rintro token mode rfl
    exact perform_endLock_refused_iff
  · intro c hends call db h hc hgood
    have hgone : e.attachments.find? c = none :=
      (Attached.start settings).detached_of_succeeds (by omega) hends
    obtain ⟨place, hplace⟩ := hgood.attached h hc
    rw [hgone] at hplace
    cases hplace

/-- A record that was created through one connection cannot be read through another. -/
theorem handles_are_checked_foreign :
    let calls := twoShared ++ [.create firstShared 1]
    let call := Call.get secondShared (firstShared.record ⟨0, 0⟩) 0
    let e := (start {}).run calls
    ((start {}).handles calls).length = 2 ∧ IsRefused (e.perform call).1 := by
  intro calls call e
  have hlength : ((start {}).handles calls).length = 2 := rfl
  obtain ⟨hcheck, -⟩ := handles_are_checked {} calls (by rw [hlength]; decide)
  refine ⟨hlength, ((hcheck call secondShared rfl).1).2 ⟨?_, id⟩⟩
  rintro ⟨place, r, -, -, -, hrecord, -⟩
  have hconnection : firstShared.connection = secondShared.connection :=
    (hrecord (firstShared.record ⟨0, 0⟩) rfl).1.2
  cases hconnection

end Engine

end RecordStore
