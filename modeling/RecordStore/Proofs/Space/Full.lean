import RecordStore.Proofs.Query.Matching
import RecordStore.Proofs.Space.Losses
/-!
# Space — when a region is full

Only two calls take space, and both are refused exactly when what they take
is more than what is left: a creation takes a whole record, a write takes
what the new value is larger than the old one. No other call is ever
refused for want of space. A creation that is not refused may still panic,
and then the space is taken without a record (`space_can_be_lost`).
-/

namespace RecordStore

/-- The answer is a refusal for want of space. -/
def IsFull {α : Type} (answer : Except Error α) : Prop :=
  ∃ requested available, answer = .error (.regionFull requested available)

section IsFull

variable {α β : Type} {answer : Except Error α}

@[simp] theorem not_isFull_ok (a : α) : ¬ IsFull (.ok a) := by
  simp [IsFull]

@[simp] theorem isFull_error (err : Error) :
    IsFull (.error err : Except Error α) ↔
      ∃ requested available, err = .regionFull requested available := by
  simp [IsFull]

@[simp] theorem isFull_map {f : α → β} : IsFull (answer.map f) ↔ IsFull answer := by
  cases answer <;> simp [Except.map]

/-- Steps of which none is refused for want of space are not refused for it together. -/
theorem not_isFull_bind {next : α → Except Error β} (h : ¬ IsFull answer)
    (hnext : ∀ a, ¬ IsFull (next a)) : ¬ IsFull (answer.bind next) := by
  cases answer with
  | error err => simpa [Except.bind] using h
  | ok a => exact hnext a

/-- An error that is passed on is for want of space if it was so before. -/
theorem isFull_passed {err : Error} (h : answer = .error err) :
    IsFull (.error err : Except Error β) ↔ IsFull answer := by
  simp [h]

end IsFull

/-- Whether a call takes space of its region. -/
def Call.takesSpace : Call → Bool
  | .create _ _ | .set _ _ _ _ => true
  | _ => false

namespace Region

variable {r : Region} {key : SlotKey} {connection : ConnectionId} {db : DbHandle} {call : Call}

/-! ## What takes space -/

/-- **A creation is refused for want of space** exactly when the record does not fit, if its size
can be counted. -/
theorem isFull_create {length : Nat} (hword : Size.record length < Size.modulus) :
    IsFull (r.create length).1 ↔ r.available < Size.record length := by
  have hcreation := r.creation length
  generalize (r.create length).1 = answer, (r.create length).2 = r' at hcreation
  cases hcreation with
  | overflowed hover => exact absurd hover (Nat.not_le.2 hword)
  | full hfull => simp [hfull]
  -- What fits can still panic, or find no slot; these are other outcomes.
  | tooLarge hroom | slotless hroom | stored hroom => simp [hroom]

/-- **A write to a field is refused for want of space** exactly when the new value does not fit
in the place of the old one. -/
theorem isFull_set {rec : Record} {index : Nat} {old : Field} {value : FieldValue}
    (hlive : r.records.get? key = some rec) (hold : rec.fields[index]? = some old) :
    IsFull (r.set key index value).1 ↔ r.available + old.storedSize < value.storedSize := by
  rw [set_eq, hlive]
  simp only [hold]
  by_cases hfull : r.available + old.storedSize < value.storedSize
  · simp [hfull]
  · simp [hfull]

/-! ## What takes none -/

theorem not_isFull_record : ¬ IsFull (r.record key) := by
  unfold record
  split <;> simp [Error.badRecord]

theorem not_isFull_get {index : Nat} : ¬ IsFull (r.get key index) := by
  refine not_isFull_bind not_isFull_record fun rec => ?_
  split <;> simp

theorem not_isFull_build (fields : Option (Array Field)) {conditions : List Condition} :
    ¬ IsFull (QueryPlan.build? fields conditions) := by
  rintro ⟨requested, available, h⟩
  obtain ⟨fault, hfault⟩ := QueryPlan.build?_error h
  cases hfault

theorem not_isFull_plan {template : Option SlotKey} {conditions : List Condition} :
    ¬ IsFull (r.plan template conditions) := by
  cases template with
  | none => exact not_isFull_build none
  | some key =>
    exact not_isFull_bind not_isFull_record fun rec => not_isFull_build (some rec.fields)

theorem not_isFull_buildQuery {template : Option SlotKey} {conditions : List Condition}
    {limit : Nat} : ¬ IsFull (r.buildQuery connection template conditions limit).1 := by
  unfold buildQuery
  split
  · rename_i hplan
    exact (isFull_passed hplan).not.2 not_isFull_plan
  · simp only
    split <;> simp

theorem not_isFull_query : ¬ IsFull (r.query connection key) := by
  unfold query
  split
  · simp [Error.badQuery]
  · split <;> simp [Error.badQuery]

theorem not_isFull_fetch : ¬ IsFull (r.fetch connection key).1 := by
  unfold fetch
  split
  · rename_i hquery
    exact (isFull_passed hquery).not.2 not_isFull_query
  · simp

theorem not_isFull_freeQuery : ¬ IsFull (r.freeQuery connection key).1 := by
  unfold freeQuery
  split
  · rename_i hquery
    exact (isFull_passed hquery).not.2 not_isFull_query
  · split <;> simp

theorem not_isFull_delete : ¬ IsFull (r.delete key).1 := by
  unfold delete
  split <;> simp [Error.badRecord]

theorem not_isFull_checkToken {token : LockToken} {mode : LockMode} :
    ¬ IsFull (r.checkToken token mode) := by
  unfold checkToken
  split
  · simp
  · split <;> simp

theorem not_isFull_endLock {token : LockToken} {mode : LockMode} :
    ¬ IsFull (r.endLock token mode).1 := by
  unfold endLock
  split
  · rename_i hcheck
    exact (isFull_passed hcheck).not.2 not_isFull_checkToken
  · simp only [RegionLock.release]
    split <;> simp

/-- **No other call is refused for want of space** by the region that it reaches. -/
theorem not_isFull_serve (h : call.takesSpace = false) : ¬ IsFull (r.serve db call).1 := by
  cases call with
  | create d length => cases h
  | set d rec index value => cases h
  | next d rec => exact isFull_map.not.2 (isFull_map.not.2 not_isFull_record)
  | delete d rec => exact isFull_map.not.2 not_isFull_delete
  | length d rec => exact isFull_map.not.2 (isFull_map.not.2 not_isFull_record)
  | get d rec index => exact isFull_map.not.2 not_isFull_get
  | buildQuery d template conditions limit => exact isFull_map.not.2 not_isFull_buildQuery
  | fetch d query => exact isFull_map.not.2 not_isFull_fetch
  | freeQuery d query => exact isFull_map.not.2 not_isFull_freeQuery
  | startLock d mode => exact not_isFull_ok _
  | resumeLock d mode =>
    refine isFull_map.not.2 ?_
    unfold resumeLock
    split <;> exact not_isFull_ok _
  | tryLock d mode =>
    refine isFull_map.not.2 ?_
    unfold tryLock
    split <;> exact not_isFull_ok _
  | endLock d token mode => exact isFull_map.not.2 not_isFull_endLock
  | _ => exact not_isFull_ok _

end Region

namespace Engine

variable {e : Engine} {db : DbHandle} {call : Call} {place : Nat} {r : Region}
variable {settings : EngineSettings} {calls : List Call}

theorem not_isFull_checkRecord {rec : RecordHandle} : ¬ IsFull (checkRecord db rec) := by
  unfold checkRecord
  split <;> simp [Error.badRecord]

theorem not_isFull_checkQuery {query : QueryHandle} : ¬ IsFull (checkQuery db query) := by
  unfold checkQuery
  split <;> simp [Error.badQuery]

theorem not_isFull_precheck : ¬ IsFull (e.precheck call) := by
  cases call with
  | create d length =>
    simp only [precheck, checkLength]
    split <;> simp
  | set d rec index value =>
    refine not_isFull_bind not_isFull_checkRecord fun _ => ?_
    unfold checkValue
    split <;> simp
  | buildQuery d template conditions limit =>
    cases template with
    | none => exact not_isFull_ok ()
    | some rec => exact not_isFull_checkRecord
  | next d rec => exact not_isFull_checkRecord
  | delete d rec => exact not_isFull_checkRecord
  | length d rec => exact not_isFull_checkRecord
  | get d rec index => exact not_isFull_checkRecord
  | fetch d query => exact not_isFull_checkQuery
  | freeQuery d query => exact not_isFull_checkQuery
  | _ => exact not_isFull_ok ()

theorem not_isFull_resolve : ¬ IsFull (e.resolve db) := by
  unfold resolve
  split
  · simp [Error.badDatabase]
  · split <;> simp [Error.badDatabase]

theorem not_isFull_unhandled (h : call.handle? = none) : ¬ IsFull (e.perform call).1 := by
  cases call <;> simp only [Call.handle?, reduceCtorEq] at h
  case openDatabase name size isLocal =>
    simp only [perform, reword, isFull_map, openDatabase]
    split <;> simp
  case deleteDatabase name =>
    simp only [perform, reword, isFull_map, deleteDatabase]
    split <;> simp
  all_goals exact not_isFull_ok _

theorem not_isFull_detaching (h : call.isDetaching = true) : ¬ IsFull (e.perform call).1 := by
  cases call <;> simp only [Call.isDetaching, Bool.false_eq_true] at h
  case deleteLocal db =>
    simp only [perform, reword, isFull_map, deleteLocal]
    split
    · rename_i hr
      exact (isFull_passed hr).not.2 not_isFull_resolve
    · split <;> simp
  case detach db =>
    simp only [perform, reword, isFull_map, detach]
    split
    · rename_i hr
      exact (isFull_passed hr).not.2 not_isFull_resolve
    · split <;> simp

/-- **No call is refused for want of space but a creation or a write.** -/
theorem takesSpace_of_isFull (h : IsFull (e.perform call).1) : call.takesSpace = true := by
  -- At each place where another call can fail, it fails for another reason.
  by_contra hspace
  rw [Bool.not_eq_true] at hspace
  revert h
  cases hhandle : call.handle? with
  | none => exact not_isFull_unhandled hhandle
  | some db =>
    cases hends : call.isDetaching with
    | true => exact not_isFull_detaching hends
    | false =>
      rw [perform_eq hhandle hends]
      cases hcheck : e.precheck call with
      | error err => exact (isFull_passed hcheck).not.2 not_isFull_precheck
      | ok =>
        simp only [onRegion]
        cases hr : e.resolve db with
        | error err => exact (isFull_passed hr).not.2 not_isFull_resolve
        | ok found => exact Region.not_isFull_serve hspace

/-! ## Runs -/

/-- A creation that is not too long for the settings is what its region makes of it. -/
theorem perform_create {length : Nat} (h : e.resolve db = .ok (place, r))
    (hlength : length ≤ e.settings.maxFieldCount) :
    e.perform (.create db length) =
      ((r.serve db (.create db length)).1, e.putRegion place (r.serve db (.create db length)).2) := by
  refine perform_of_resolve rfl rfl ?_ h
  have hshort : ¬ e.settings.maxFieldCount < length := by omega
  simp only [precheck, checkLength, if_neg hshort]

theorem isFull_perform_create {length : Nat} (hword : 24 + 8 * length < 2 ^ 64)
    (h : e.resolve db = .ok (place, r)) (hlength : length ≤ e.settings.maxFieldCount) :
    IsFull (e.perform (.create db length)).1 ↔ r.capacity - r.used < 24 + 8 * length := by
  rw [perform_create h hlength, Region.serve, reword, isFull_map,
    Region.isFull_create (by rwa [Size.record_eq]), Size.record_eq, Region.available]

/-- **A creation that is broken off** had room, and takes it. -/
theorem perform_create_panicked {length : Nat} {p : Panic} (hword : 24 + 8 * length < 2 ^ 64)
    (h : e.resolve db = .ok (place, r)) (hlength : length ≤ e.settings.maxFieldCount)
    (hpanic : (e.perform (.create db length)).1 = .ok (.panicked p)) :
    p = .capacityOverflow ∧ Size.maxCells < length ∧ 24 + 8 * length ≤ r.capacity - r.used ∧
      (e.perform (.create db length)).2 =
        e.putRegion place { r with used := r.used + (24 + 8 * length) } := by
  rw [perform_create h hlength] at hpanic ⊢
  obtain ⟨d, n, hcall, hanswer⟩ := Region.create_of_serve_panicked hpanic
  cases hcall
  rcases Region.create_eq_panicked (Prod.ext hanswer rfl) with
    ⟨hover, -⟩ | ⟨hroom, hblock, hp, hcharged⟩
  · rw [Size.record_eq] at hover
    exact absurd hover (Nat.not_le.2 hword)
  · rw [Size.record_eq] at hroom hcharged
    exact ⟨hp, hblock, hroom, congrArg (e.putRegion place) hcharged⟩

theorem isFull_perform_set {rec : RecordHandle} {index : Nat} {value : FieldValue}
    {x : LiveRecord} {old : Field} (hc : r.Coherent) (hused : r.used ≤ r.capacity)
    (h : e.resolve db = .ok (place, r)) (hregion : rec.region = db.region)
    (hconnection : rec.connection = db.connection)
    (hx : Listing.lookup rec.key r.listing = some x) (hold : x.fields[index]? = some old)
    (hvalue : value.hasNul = false) :
    IsFull (e.perform (.set db rec index value)).1 ↔
      (r.capacity : Int) - r.used < (value.space : Int) - old.space := by
  have hcheck : e.precheck (.set db rec index value) = .ok () := by
    simp [precheck, checkRecord, hregion, hconnection, checkValue, hvalue, Except.bind]
  rw [hc.lookup_listing] at hx
  obtain ⟨found, hfound, rfl⟩ := Option.map_eq_some_iff.1 hx
  rw [perform_of_resolve rfl rfl hcheck h, Region.serve, reword, isFull_map,
    Region.isFull_set hfound hold, Region.available, Field.storedSize_eq,
    FieldValue.storedSize_eq]
  omega

/-- **The space of a region is counted exactly, but for what creations lost that panicked.**
Where the longest record that is allowed can be counted in a machine word, the counters of every
region of every run are the sums and numbers of what is live with what was lost, the records fit,
and no subtraction is cut off at zero. Nothing was lost if no call was broken off, and none is if
no record may pass a block of memory. A creation is refused for want of space exactly when the
record does not fit, a write exactly when the new value does not fit in the place of the old one,
and no other call ever is. A creation that is broken off had room for a record that passes a
block, and takes it. -/
theorem space_is_exact (hmost : 24 + 8 * settings.maxFieldCount < 2 ^ 64)
    (h : ((start settings).run calls).regions[place]? = some r) :
    let e := (start settings).run calls
    let missing := lost place (start settings) calls
    Region.CountsExactly missing r ∧
      ((∀ before call later p, calls = before ++ call :: later →
          (((start settings).run before).perform call).1 ≠ .ok (.panicked p)) → missing = 0) ∧
      (settings.maxFieldCount ≤ Size.maxCells → missing = 0) ∧
      r.SubtractsExactly ∧
      (∀ db length, e.resolve db = .ok (place, r) → length ≤ settings.maxFieldCount →
        (IsFull (e.perform (.create db length)).1 ↔ r.capacity - r.used < 24 + 8 * length)) ∧
      (∀ db rec (index : Nat) value x old, e.resolve db = .ok (place, r) →
        rec.region = db.region → rec.connection = db.connection →
        Listing.lookup rec.key r.listing = some x → x.fields[index]? = some old →
        value.hasNul = false →
        (IsFull (e.perform (.set db rec index value)).1 ↔
          (r.capacity : Int) - r.used < (value.space : Int) - old.space)) ∧
      (∀ call, IsFull (e.perform call).1 → call.takesSpace = true) ∧
      ∀ db length p, e.resolve db = .ok (place, r) → length ≤ settings.maxFieldCount →
        (e.perform (.create db length)).1 = .ok (.panicked p) →
          p = .capacityOverflow ∧ Size.maxCells < length ∧
            24 + 8 * length ≤ r.capacity - r.used ∧
            (e.perform (.create db length)).2 =
              e.putRegion place { r with used := r.used + (24 + 8 * length) } := by
  intro e missing
  have ha := accounted_run h
  have hsettings : e.settings = settings := run_settings _ _
  refine ⟨ha.countsExactly, lost_eq_zero, fun hblock => lost_eq_zero_of_le hblock,
    ha.subtractsExactly, ?_, ?_, fun call => takesSpace_of_isFull, ?_⟩
  · intro db length hr hlength
    exact isFull_perform_create (by omega) hr (hsettings ▸ hlength)
  · intro db rec index value x old hr hregion hconnection hx hold hvalue
    exact isFull_perform_set ha.coherent ha.used_le hr hregion hconnection hx hold hvalue
  · intro db length p hr hlength
    exact perform_create_panicked (by omega) hr (hsettings ▸ hlength)

/-- A run that makes a record of three fields in a small region and writes a blob to the first. -/
def smallRegion : List Call :=
  [.openDatabase none 1024 true, .create firstLocal 3,
    .set firstLocal (firstLocal.record ⟨0, 0⟩) 0 (.blob ⟨#[1, 2, 3]⟩)]

/-- The record takes 88 bytes. One of 200 fields does not fit beside it, but an integer fits
in the place of the blob. -/
theorem space_is_exact_small :
    ∃ r, ((start {}).run smallRegion).resolve firstLocal = .ok (0, r) ∧ r.stats.used = 88 ∧
      IsFull (((start {}).run smallRegion).perform (.create firstLocal 200)).1 ∧
      ¬ IsFull (((start {}).run smallRegion).perform
        (.set firstLocal (firstLocal.record ⟨0, 0⟩) 0 (.int 1))).1 := by
  obtain ⟨r, hr, hcapacity, hl⟩ : ∃ r,
      ((start {}).run smallRegion).resolve firstLocal = .ok (0, r) ∧ r.capacity = 1024 ∧
      r.listing = [⟨⟨0, 0⟩, #[some (.blob ⟨#[1, 2, 3]⟩), none, none]⟩] :=
    ⟨_, rfl, by decide, by decide⟩
  obtain ⟨hcounts, -, hnothing, -, hcreate, hset, -⟩ :=
    space_is_exact (by decide) (getElem?_of_resolve hr)
  have hused : r.used = 88 := by
    have hsum := hcounts.used_eq
    rw [hl, hnothing (by decide)] at hsum
    exact hsum
  have hinteger := hset firstLocal (firstLocal.record ⟨0, 0⟩) 0 (.int 1) _
    (some (.blob ⟨#[1, 2, 3]⟩)) hr rfl rfl (by rw [hl]; rfl) rfl rfl
  refine ⟨r, hr, hused, (hcreate _ _ hr (by decide)).2 ?_, hinteger.not.2 ?_⟩
  · rw [hcapacity, hused]
    decide
  · rw [hcapacity, hused]
    decide

/-- Settings that allow records that pass a block of memory, but not a machine word. -/
def vast : EngineSettings := { maxFieldCount := 10 ^ 18 }

/-- The creation of a record that passes a block panics, and its space is taken for good: the
region counts it, although it has no record. -/
theorem space_can_be_lost :
    let calls := [.openDatabase none (32 * 10 ^ 17 + 100) true, .create firstLocal (4 * 10 ^ 17)]
    24 + 8 * vast.maxFieldCount < 2 ^ 64 ∧
      (((start vast).run [.openDatabase none (32 * 10 ^ 17 + 100) true]).perform
        (.create firstLocal (4 * 10 ^ 17))).1 = .ok (.panicked .capacityOverflow) ∧
      ∃ r, ((start vast).run calls).resolve firstLocal = .ok (0, r) ∧ r.listing = [] ∧
        r.stats.used = 3200000000000000024 ∧ r.stats.used ≠ (r.listing.map LiveRecord.space).sum :=
  ⟨by decide, rfl, _, rfl, rfl, rfl, by decide⟩

end Engine

end RecordStore
