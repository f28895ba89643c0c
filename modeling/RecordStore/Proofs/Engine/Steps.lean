import RecordStore.Proofs.Engine.Serving
import RecordStore.Proofs.Region.Outcomes
/-!
# The engine — what one call can do, and what runs keep

`Outcome` lists the ways in which a call can go: it is refused, it is about
the registry or the settings only, it opens a database, it ends an
attachment, or a region serves it. `Region.Change` lists what becomes of
one region on the way. A property that new regions have and that changes
keep holds of every region after every run (`run_induction`).
-/

namespace RecordStore

namespace Region

variable {r r' : Region} {db : DbHandle} {call : Call}

/-- What a call can make of a region, where records have at most so many fields. -/
inductive Change (most : Nat) (r : Region) : Region → Prop where
  | kept : Change most r r
  | attached : Change most r r.attach
  | detached (connection : ConnectionId) : Change most r (r.detach connection)
  | created {length : Nat} {key : SlotKey} {r' : Region} (hmost : length ≤ most)
      (h : r.create length = (.ok (.done key), r')) : Change most r r'
  | brokenOff {length : Nat} {p : Panic} {r' : Region} (hmost : length ≤ most)
      (h : r.create length = (.ok (.panicked p), r')) : Change most r r'
  | deleted {key : SlotKey} {r' : Region} (h : r.delete key = (.ok (), r')) : Change most r r'
  | written {key : SlotKey} {index : Nat} {value : FieldValue} {r' : Region}
      (h : r.set key index value = (.ok (), r')) : Change most r r'
  | built {connection : ConnectionId} {template : Option SlotKey} {conditions : List Condition}
      {limit : Nat} {key : SlotKey} {r' : Region}
      (h : r.buildQuery connection template conditions limit = (.ok key, r')) : Change most r r'
  | fetched {connection : ConnectionId} {key : SlotKey} {row : Option SlotKey} {r' : Region}
      (h : r.fetch connection key = (.ok row, r')) : Change most r r'
  | freed {connection : ConnectionId} {key : SlotKey} {r' : Region}
      (h : r.freeQuery connection key = (.ok (), r')) : Change most r r'
  | locked (lock : RegionLock) : Change most r { r with lock }

/-- No change gives a region another identifier. -/
theorem Change.id_eq {most : Nat} (h : Change most r r') : r'.id = r.id := by
  cases h with
  | kept => rfl
  | attached => rfl
  | detached connection => rfl
  | created _ h => obtain ⟨records, -, -, -, rfl⟩ := create_eq_done h; rfl
  | brokenOff _ h => obtain ⟨used, rfl⟩ := used_of_panicked h; rfl
  | deleted h => obtain ⟨rec, records, -, rfl⟩ := delete_eq_ok h; rfl
  | written h => obtain ⟨rec, old, -, -, -, rfl⟩ := set_eq_ok h; rfl
  | built h => obtain ⟨plan, queries, -, -, rfl⟩ := buildQuery_eq_ok h; rfl
  | fetched h => obtain ⟨cursor, -, -, -, rfl⟩ := fetch_eq_ok h; rfl
  | freed h => obtain ⟨cursor, queries, -, -, rfl⟩ := freeQuery_eq_ok h; rfl
  | locked lock => rfl

/-! ## Locks -/

theorem startLock_snd (r : Region) (mode : LockMode) :
    ∃ lock, (r.startLock mode).2 = { r with lock } :=
  ⟨_, rfl⟩

theorem resumeLock_snd (r : Region) (mode : LockMode) :
    ∃ lock, (r.resumeLock mode).2 = { r with lock } := by
  unfold resumeLock
  cases r.lock.resume mode with
  | none => exact ⟨r.lock, rfl⟩
  | some found => exact ⟨found.2, rfl⟩

theorem tryLock_snd (r : Region) (mode : LockMode) :
    ∃ lock, (r.tryLock mode).2 = { r with lock } := by
  unfold tryLock
  cases r.lock.tryAcquire mode with
  | none => exact ⟨r.lock, rfl⟩
  | some found => exact ⟨found.2, rfl⟩

theorem endLock_snd (r : Region) (token : LockToken) (mode : LockMode) :
    ∃ lock, (r.endLock token mode).2 = { r with lock } := by
  unfold endLock
  cases r.checkToken token mode with
  | error err => exact ⟨r.lock, rfl⟩
  | ok => exact ⟨_, rfl⟩

/-! ## Serving is a change -/

/-- An operation that changes nothing when it fails makes what it makes when it succeeds. -/
theorem change_of_ok {α : Type} {most : Nat} (result : Except Error α × Region)
    (herr : ∀ err r', result = (.error err, r') → r' = r)
    (hok : ∀ a r', result = (.ok a, r') → Change most r r') : Change most r result.2 := by
  obtain ⟨answer, r'⟩ := result
  cases answer with
  | error err =>
    rw [herr err r' rfl]
    exact .kept
  | ok a => exact hok a r' rfl

/-- **A region that serves a call changes in one of the ways listed.** A record that is
created is as long as was asked for. -/
theorem serve_change (r : Region) (db : DbHandle) {most : Nat}
    (hmost : ∀ d length, call = .create d length → length ≤ most) :
    Change most r (r.serve db call).2 := by
  -- Whatever a call on the lock answers, only the lock has changed.
  have hlock : ∀ {s : Region}, (∃ lock, s = { r with lock }) → Change most r s := by
    rintro _ ⟨lock, rfl⟩
    exact .locked lock
  cases call with
  | create d length =>
    refine change_of_ok (r.create length) (fun _ _ => create_eq_error) fun attempt r' h => ?_
    cases attempt with
    | done key => exact .created (hmost d length rfl) h
    | panicked p => exact .brokenOff (hmost d length rfl) h
  | delete d rec =>
    exact change_of_ok (r.delete rec.key) (fun _ _ h => (delete_eq_error_iff.1 h).2.2)
      fun _ _ => .deleted
  | set d rec index value =>
    exact change_of_ok (r.set rec.key index value) (fun _ _ => set_eq_error)
      fun _ _ => .written
  | buildQuery d template conditions limit =>
    exact change_of_ok
      (r.buildQuery db.connection (template.map RecordHandle.key) conditions limit)
      (fun _ _ => buildQuery_eq_error) fun _ _ => .built
  | fetch d query =>
    exact change_of_ok (r.fetch db.connection query.key) (fun _ _ => fetch_eq_error)
      fun _ _ => .fetched
  | freeQuery d query =>
    exact change_of_ok (r.freeQuery db.connection query.key) (fun _ _ => freeQuery_eq_error)
      fun _ _ => .freed
  | startLock d mode => exact hlock (r.startLock_snd mode)
  | resumeLock d mode => exact hlock (r.resumeLock_snd mode)
  | tryLock d mode => exact hlock (r.tryLock_snd mode)
  | endLock d token mode => exact hlock (r.endLock_snd token mode)
  | _ => exact .kept

/-- An operation that changes nothing when it fails. -/
theorem snd_eq_of_error {α : Type} {err : Error} (result : Except Error α × Region)
    (herr : ∀ err r', result = (.error err, r') → r' = r) (h : result.1 = .error err) :
    result.2 = r :=
  herr err result.2 (Prod.ext h rfl)

/-- An answer put in other words fails where the answer fails. -/
theorem error_of_reword {α β : Type} {f : α → β} {err : Error} {a : Except Error α × Region}
    (h : (reword f a).1 = .error err) : a.1 = .error err := by
  obtain ⟨answer, s⟩ := a
  cases answer with
  | error err' =>
    cases h
    rfl
  | ok x => cases h

/-- **A region is as it was after a call that it refused**, unless the call was to release a
lock: the release is counted. -/
theorem serve_error {err : Error} (h : (r.serve db call).1 = .error err)
    (hlock : ∀ d token mode, call ≠ .endLock d token mode) : (r.serve db call).2 = r := by
  cases call with
  | create d length =>
    exact snd_eq_of_error (r.create length) (fun _ _ => create_eq_error) (error_of_reword h)
  | delete d rec =>
    exact snd_eq_of_error (r.delete rec.key) (fun _ _ h => (delete_eq_error_iff.1 h).2.2)
      (error_of_reword h)
  | set d rec index value =>
    exact snd_eq_of_error (r.set rec.key index value) (fun _ _ => set_eq_error)
      (error_of_reword h)
  | buildQuery d template conditions limit =>
    exact snd_eq_of_error
      (r.buildQuery db.connection (template.map RecordHandle.key) conditions limit)
      (fun _ _ => buildQuery_eq_error) (error_of_reword h)
  | fetch d query =>
    exact snd_eq_of_error (r.fetch db.connection query.key) (fun _ _ => fetch_eq_error)
      (error_of_reword h)
  | freeQuery d query =>
    exact snd_eq_of_error (r.freeQuery db.connection query.key) (fun _ _ => freeQuery_eq_error)
      (error_of_reword h)
  | startLock d mode => cases h
  | resumeLock d mode =>
    have h := error_of_reword h
    unfold resumeLock at h
    split at h <;> cases h
  | tryLock d mode =>
    have h := error_of_reword h
    unfold tryLock at h
    split at h <;> cases h
  | endLock d token mode => exact absurd rfl (hlock d token mode)
  | _ => rfl

end Region

namespace Engine

variable {e e' : Engine} {call : Call} {db : DbHandle} {place : Nat} {r r' : Region}
variable {answer : Except Error Reply}

/-- **The ways in which a call can go.** -/
inductive Outcome (e : Engine) (call : Call) : Except Error Reply → Engine → Prop where
  /-- The call is refused before it reaches a region, and changes nothing. -/
  | refused (err : Error) : Outcome e call (.error err) e
  /-- The call is about the registry or the settings. -/
  | aside {reply : Reply} {e' : Engine} (hhandle : call.handle? = none)
      (hregions : e'.regions = e.regions) (hattachments : e'.attachments = e.attachments)
      (hnext : e'.nextConnection = e.nextConnection) (hsettings : e'.settings = e.settings) :
      Outcome e call (.ok reply) e'
  /-- A connection was attached to a region that was there. -/
  | joined {e' : Engine} {name : Option String} {size : Nat} {isLocal : Bool} {place : Nat}
      {r : Region} (hcall : call = .openDatabase name size isLocal)
      (hr : e.regions[place]? = some r)
      (hregions : e'.regions = (e.putRegion place r.attach).regions)
      (hattachments : e'.attachments = e.attachments.insert e.nextConnection place)
      (hsettings : e'.settings = e.settings) :
      Outcome e call (.ok (.database ⟨r.id, e.nextConnection, r.isLocal⟩)) e'
  /-- A connection was attached to a region that was made for it. -/
  | founded {e' : Engine} {asked : Option String} {size : Nat} {isLocal : Bool} (i : RegionId)
      (name : Option String) (capacity : Nat) (hcall : call = .openDatabase asked size isLocal)
      (hregions : e'.regions = e.regions.push (Region.fresh i name capacity).attach)
      (hattachments : e'.attachments = e.attachments.insert e.nextConnection e.regions.size)
      (hsettings : e'.settings = e.settings) :
      Outcome e call (.ok (.database ⟨i, e.nextConnection, name.isNone⟩)) e'
  /-- An attachment was ended. -/
  | released {db : DbHandle} {place : Nat} {r : Region} (hhandle : call.handle? = some db)
      (hends : call.isDetaching = true) (hr : e.resolve db = .ok (place, r)) :
      Outcome e call (.ok .done) (e.release db.connection place r)
  /-- The region that the handle stands for served the call. -/
  | served {db : DbHandle} {place : Nat} {r : Region} (hhandle : call.handle? = some db)
      (hends : call.isDetaching = false) (hcheck : e.precheck call = .ok ())
      (hr : e.resolve db = .ok (place, r)) :
      Outcome e call (r.serve db call).1 (e.putRegion place (r.serve db call).2)

theorem registered?_eq_some {name : String} (h : e.registered? name = some (place, r)) :
    e.regions[place]? = some r := by
  unfold registered? regionAt? at h
  obtain ⟨p, -, hp⟩ := Option.bind_eq_some_iff.1 h
  obtain ⟨found, hfound, heq⟩ := Option.map_eq_some_iff.1 hp
  cases heq
  exact hfound

theorem attach_made {name : Option String} {capacity : Nat} :
    ((e.makeRegion name capacity).2.attach e.regions.size
      (Region.fresh e.nextRegion name capacity)).2.regions =
      e.regions.push (Region.fresh e.nextRegion name capacity).attach := by
  apply Array.ext_getElem?
  intro p
  simp only [attach, putRegion, makeRegion, Array.getElem?_setIfInBounds, Array.getElem?_push,
    Array.size_push, Nat.lt_succ_self, if_true, eq_comm]
  split <;> rfl

theorem outcome_openDatabase (e : Engine) (name : Option String) (size : Nat) (isLocal : Bool) :
    Outcome e (.openDatabase name size isLocal) (e.perform (.openDatabase name size isLocal)).1
      (e.perform (.openDatabase name size isLocal)).2 := by
  simp only [perform, reword, openDatabase]
  split
  · exact .refused _
  · cases isLocal with
    | true => exact .founded _ none _ rfl attach_made rfl rfl
    | false =>
      simp only [Bool.false_eq_true, if_false, shared]
      cases hreg : e.registered? (e.settings.effectiveName name) with
      | some found => exact .joined rfl (registered?_eq_some hreg) rfl rfl rfl
      | none => exact .founded _ (some _) _ rfl attach_made rfl rfl

/-- **Every call goes in one of these ways.** -/
theorem outcome_perform (e : Engine) (call : Call) :
    Outcome e call (e.perform call).1 (e.perform call).2 := by
  cases hhandle : call.handle? with
  | none =>
    -- Calls without a handle are about the registry or the settings, or open a database.
    cases call <;> simp only [Call.handle?, reduceCtorEq] at hhandle
    case openDatabase name size isLocal => exact outcome_openDatabase e name size isLocal
    case deleteDatabase name =>
      simp only [perform, reword, deleteDatabase]
      split
      · exact .aside rfl rfl rfl rfl rfl
      · exact .refused _
    all_goals exact .aside rfl rfl rfl rfl rfl
  | some db =>
    cases hends : call.isDetaching with
    | true =>
      cases call <;> simp only [Call.isDetaching, Bool.false_eq_true] at hends <;>
        simp only [Call.handle?, Option.some.injEq] at hhandle <;> subst hhandle
      case deleteLocal =>
        simp only [perform, reword, deleteLocal]
        split
        · exact .refused _
        · rename_i hr
          split
          · exact .released rfl rfl hr
          · exact .refused _
      case detach =>
        simp only [perform, reword, detach]
        split
        · exact .refused _
        · rename_i hr
          split
          · exact .refused _
          · exact .released rfl rfl hr
    | false =>
      -- All others are checked, resolved and served.
      rw [perform_eq hhandle hends]
      cases hcheck : e.precheck call with
      | error err => exact .refused err
      | ok =>
        simp only [onRegion]
        cases hr : e.resolve db with
        | error err => exact .refused err
        | ok found => exact .served hhandle hends hcheck hr

/-! ## One call -/

theorem perform_settings (e : Engine) (call : Call) : (e.perform call).2.settings = e.settings := by
  have hout := e.outcome_perform call
  generalize (e.perform call).1 = answer, (e.perform call).2 = e' at hout
  cases hout <;> first | rfl | assumption

/-- A creation that was let through is within the bound of the settings. -/
theorem length_le_of_precheck (hcheck : e.precheck call = .ok ()) (d : DbHandle) (length : Nat)
    (h : call = .create d length) : length ≤ e.settings.maxFieldCount := by
  subst h
  simp only [precheck, checkLength] at hcheck
  split at hcheck
  · cases hcheck
  · omega

/-- **After a call, a region was there before and changed, or was made by the call.** -/
theorem region_of_perform (h : (e.perform call).2.regions[place]? = some r') :
    (∃ r, e.regions[place]? = some r ∧ Region.Change e.settings.maxFieldCount r r') ∨
      ∃ i name capacity, r' = (Region.fresh i name capacity).attach := by
  have hout := e.outcome_perform call
  generalize (e.perform call).1 = answer, (e.perform call).2 = e' at h hout
  -- A region that was put back at a place changed there, and no other region did.
  have hput : ∀ {p r₀ r₁}, e.regions[p]? = some r₀ →
      Region.Change e.settings.maxFieldCount r₀ r₁ →
      (e.putRegion p r₁).regions[place]? = some r' →
      ∃ r, e.regions[place]? = some r ∧ Region.Change e.settings.maxFieldCount r r' := by
    intro p r₀ r₁ hr hchange hafter
    rw [getElem?_putRegion hr] at hafter
    split at hafter
    · rename_i hp
      cases hafter
      exact ⟨r₀, hp ▸ hr, hchange⟩
    · exact ⟨r', hafter, .kept⟩
  cases hout with
  | refused err => exact .inl ⟨r', h, .kept⟩
  | aside _ hregions => exact .inl ⟨r', hregions ▸ h, .kept⟩
  | joined _ hr hregions => exact .inl (hput hr .attached (hregions ▸ h))
  | founded i name capacity _ hregions =>
    simp only [hregions, Array.getElem?_push] at h
    split at h
    · exact .inr ⟨i, name, capacity, (Option.some.inj h).symm⟩
    · exact .inl ⟨r', h, .kept⟩
  | released _ _ hr => exact .inl (hput (getElem?_of_resolve hr) (.detached _) h)
  | served _ _ hcheck hr =>
    exact .inl (hput (getElem?_of_resolve hr)
      (Region.serve_change _ _ (length_le_of_precheck hcheck)) h)

/-- **A call that fails leaves the engine as it was**, unless it was to release a lock. -/
theorem perform_error {err : Error} (h : (e.perform call).1 = .error err)
    (hlock : ∀ d token mode, call ≠ .endLock d token mode) : (e.perform call).2 = e := by
  have hout := e.outcome_perform call
  generalize (e.perform call).1 = answer, (e.perform call).2 = e' at h hout
  cases hout with
  | refused err => rfl
  | aside => cases h
  | joined => cases h
  | founded => cases h
  | released => cases h
  | served _ _ _ hr =>
    -- The region refused the call, so what is put back is what was there.
    rw [Region.serve_error h hlock]
    exact putRegion_self (getElem?_of_resolve hr)

/-- What every region of an engine has, and new regions have, and changes keep, every region
has after a call. -/
theorem forall_perform {P : Region → Prop}
    (hfresh : ∀ i name capacity, P (Region.fresh i name capacity).attach)
    (hchange : ∀ r r', Region.Change e.settings.maxFieldCount r r' → P r → P r')
    (call : Call) (he : ∀ (p : Nat) r, e.regions[p]? = some r → P r) :
    ∀ (p : Nat) r, (e.perform call).2.regions[p]? = some r → P r := by
  intro p r' hr'
  rcases region_of_perform hr' with ⟨r, hr, hc⟩ | ⟨i, name, capacity, rfl⟩
  · exact hchange r r' hc (he p r hr)
  · exact hfresh i name capacity

/-! ## Runs -/

/-- The handle that the first call of a run gives when it opens a local database. -/
def firstLocal : DbHandle := ⟨⟨1⟩, ⟨1⟩, true⟩

theorem run_nil (e : Engine) : e.run [] = e := rfl

theorem run_cons (e : Engine) (call : Call) (calls : List Call) :
    e.run (call :: calls) = (e.perform call).2.run calls := rfl

theorem run_settings (e : Engine) (calls : List Call) : (e.run calls).settings = e.settings := by
  induction calls generalizing e with
  | nil => rfl
  | cons call calls ih => rw [run_cons, ih, perform_settings]

/-- The same after a run. -/
theorem forall_run {P : Region → Prop}
    (hfresh : ∀ i name capacity, P (Region.fresh i name capacity).attach)
    (hchange : ∀ r r', Region.Change e.settings.maxFieldCount r r' → P r → P r')
    (calls : List Call) (he : ∀ (p : Nat) r, e.regions[p]? = some r → P r) :
    ∀ (p : Nat) r, (e.run calls).regions[p]? = some r → P r := by
  induction calls generalizing e with
  | nil => exact he
  | cons call calls ih =>
    rw [run_cons]
    exact ih (by rwa [perform_settings]) (forall_perform hfresh hchange call he)

/-- **What new regions have and changes keep, every region of a run has.** -/
theorem run_induction {settings : EngineSettings} {P : Region → Prop}
    (hfresh : ∀ i name capacity, P (Region.fresh i name capacity).attach)
    (hchange : ∀ r r', Region.Change settings.maxFieldCount r r' → P r → P r')
    {calls : List Call} (h : ((start settings).run calls).regions[place]? = some r) : P r :=
  forall_run hfresh hchange calls (fun p r hr => by simp [start] at hr) place r h

end Engine

end RecordStore
