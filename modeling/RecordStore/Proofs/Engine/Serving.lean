import RecordStore.Engine.Call
/-!
# The engine — how a call reaches its region

A call that is made through a database handle does four things: its
arguments are checked against each other, the handle is resolved to a
region, the region serves the call, and the region is put back. `precheck`
and `Region.serve` are the first and the third of these, for all calls
alike, and `perform_eq` says that a call is nothing else. Only attaching
and detaching also change who is attached.
-/

namespace RecordStore

namespace Call

/-- The handle that a call is made through. -/
def handle? : Call → Option DbHandle
  | .openDatabase _ _ _ | .deleteDatabase _ | .exists _ | .names | .settings => none
  | .deleteLocal db | .detach db | .stats db | .create db _ | .first db | .next db _
  | .delete db _ | .length db _ | .set db _ _ _ | .get db _ _ | .buildQuery db _ _ _
  | .fetch db _ | .freeQuery db _ | .startLock db _ | .resumeLock db _ | .tryLock db _
  | .endLock db _ _ => some db

/-- Whether a call ends an attachment. -/
def isDetaching : Call → Bool
  | .detach _ | .deleteLocal _ => true
  | _ => false

end Call

namespace Region

/-- What a region does on a call that reached it through a handle. -/
def serve (r : Region) (db : DbHandle) : Call → Except Error Reply × Region
  | .stats _ => (.ok (.stats r.stats), r)
  | .create _ length =>
    reword (fun attempt => .ofAttempt .record (attempt.map db.record)) (r.create length)
  | .first _ => (.ok (.recordOrEnd (r.first.map db.record)), r)
  | .next _ rec => ((r.next rec.key).map fun key => .recordOrEnd (key.map db.record), r)
  | .delete _ rec => reword (fun _ => .done) (r.delete rec.key)
  | .length _ rec => ((r.length rec.key).map .length, r)
  | .set _ rec index value => reword (fun _ => .done) (r.set rec.key index value)
  | .get _ rec index => ((r.get rec.key index).map .field, r)
  | .buildQuery _ template conditions limit =>
    reword (fun key => .query (db.query key))
      (r.buildQuery db.connection (template.map RecordHandle.key) conditions limit)
  | .fetch _ query =>
    reword (fun row => .recordOrEnd (row.map db.record)) (r.fetch db.connection query.key)
  | .freeQuery _ query => reword (fun _ => .done) (r.freeQuery db.connection query.key)
  | .startLock _ mode => reword .token (r.startLock mode)
  | .resumeLock _ mode => reword .token (r.resumeLock mode)
  | .tryLock _ mode => reword .token (r.tryLock mode)
  | .endLock _ token mode => reword (fun _ => .done) (r.endLock token mode)
  | _ => (.ok .done, r)

end Region

namespace Engine

variable {e : Engine} {db : DbHandle} {call : Call} {place : Nat} {r r' : Region}

/-- Fails if the arguments of a call already show that it is refused. -/
def precheck (e : Engine) : Call → Except Error Unit
  | .create _ length => e.checkLength length
  | .next db rec | .delete db rec | .length db rec | .get db rec _ => checkRecord db rec
  | .set db rec _ value => (checkRecord db rec).bind fun _ => checkValue value
  | .buildQuery db template _ _ => checkTemplate db template
  | .fetch db query | .freeQuery db query => checkQuery db query
  | _ => .ok ()

/-! ## Regions at their places -/

/-- **A handle resolves** to the region that its connection is attached to, if the two agree
on the region's identifier. -/
theorem resolve_eq_ok_iff :
    e.resolve db = .ok (place, r) ↔
      e.attachments.find? db.connection = some place ∧ e.regions[place]? = some r ∧
        r.id = db.region := by
  unfold resolve attachment? regionAt?
  cases hplace : e.attachments.find? db.connection with
  | none => simp
  | some p =>
    cases hr : e.regions[p]? with
    | none =>
      simp only [Option.bind_some, hr, Option.map_none, reduceCtorEq, Option.some.injEq, false_iff]
      rintro ⟨rfl, hr', -⟩
      rw [hr] at hr'
      cases hr'
    | some found =>
      simp only [Option.bind_some, hr, Option.map_some, Option.some.injEq]
      by_cases hid : found.id = db.region
      · simp only [if_pos hid, Except.ok.injEq, Prod.mk.injEq]
        constructor
        · rintro ⟨rfl, rfl⟩
          exact ⟨rfl, hr, hid⟩
        · rintro ⟨rfl, hr', -⟩
          rw [hr, Option.some.injEq] at hr'
          exact ⟨rfl, hr'⟩
      · simp only [if_neg hid, reduceCtorEq, false_iff]
        rintro ⟨rfl, hr', hid'⟩
        rw [hr, Option.some.injEq] at hr'
        exact hid (hr' ▸ hid')

theorem getElem?_of_resolve (h : e.resolve db = .ok (place, r)) : e.regions[place]? = some r :=
  (resolve_eq_ok_iff.1 h).2.1

/-- What stands at a place after a region was put back. -/
theorem getElem?_putRegion (h : e.regions[place]? = some r) (other : Nat) :
    (e.putRegion place r').regions[other]? =
      if other = place then some r' else e.regions[other]? := by
  have hlt := (Array.getElem?_eq_some_iff.1 h).1
  simp only [putRegion, Array.getElem?_setIfInBounds]
  by_cases hp : other = place
  · subst hp
    simp [hlt]
  · simp [hp, Ne.symm hp]

/-- Putting back what was found changes nothing. -/
theorem putRegion_self (h : e.regions[place]? = some r) : e.putRegion place r = e := by
  -- An engine is its fields, and of these only the regions are written.
  have hsame : e.regions.setIfInBounds place r = e.regions := by
    apply Array.ext_getElem?
    intro other
    have hput : (e.putRegion place r).regions[other]? = _ := getElem?_putRegion h other
    simp only [putRegion] at hput
    rw [hput]
    split
    · rename_i hp
      rw [hp, h]
    · rfl
  simp only [putRegion, hsame]

/-- The region that is put back last is the one that stands there. -/
theorem putRegion_putRegion (e : Engine) (place : Nat) (r r' : Region) :
    (e.putRegion place r).putRegion place r' = e.putRegion place r' := by
  simp only [putRegion, Array.setIfInBounds_setIfInBounds]

/-- A handle stands for the region that was put back in the place of its own. -/
theorem resolve_putRegion (h : e.resolve db = .ok (place, r)) (hid : r'.id = r.id) :
    (e.putRegion place r').resolve db = .ok (place, r') := by
  obtain ⟨hplace, hr, hdb⟩ := resolve_eq_ok_iff.1 h
  refine resolve_eq_ok_iff.2 ⟨hplace, ?_, hid.trans hdb⟩
  rw [getElem?_putRegion hr, if_pos rfl]

/-! ## Calls through a handle -/

/-- An answer that is put in other words twice. -/
theorem reword_reword {σ α β γ : Type} (f : β → γ) (g : α → β) (a : Except Error α × σ) :
    reword f (reword g a) = reword (fun x => f (g x)) a := by
  obtain ⟨answer, s⟩ := a
  cases answer <;> rfl

theorem map_map {α β γ : Type} (f : β → γ) (g : α → β) (a : Except Error α) :
    (a.map g).map f = a.map fun x => f (g x) := by
  cases a <;> rfl

theorem reword_onRegion {α β : Type} (f : α → β) (change : Region → Except Error α × Region) :
    reword f (e.onRegion db change) = e.onRegion db fun r => reword f (change r) := by
  unfold onRegion
  cases e.resolve db <;> rfl

/-- A question is a change that changes nothing. -/
theorem answer_askRegion {α : Type} (f : α → Reply) (ask : Region → Except Error α) :
    e.answer f (e.askRegion db ask) = e.onRegion db fun r => ((ask r).map f, r) := by
  unfold answer askRegion onRegion
  cases h : e.resolve db with
  | error err => rfl
  | ok found => simp only [Except.bind, putRegion_self (getElem?_of_resolve h)]

theorem answer_bind {α : Type} (f : α → Reply) (check : Except Error Unit)
    (ask : Region → Except Error α) :
    e.answer f (check.bind fun _ => e.askRegion db ask) =
      match check with
      | .error err => (.error err, e)
      | .ok () => e.onRegion db fun r => ((ask r).map f, r) := by
  cases check with
  | error err => rfl
  | ok u => exact answer_askRegion f ask

theorem reword_checkedOn {α : Type} (f : α → Reply) (check : Except Error Unit)
    (change : Region → Except Error α × Region) :
    reword f (e.checkedOn check db change) =
      match check with
      | .error err => (.error err, e)
      | .ok () => e.onRegion db fun r => reword f (change r) := by
  cases check with
  | error err => rfl
  | ok u => exact reword_onRegion f change

/-- **A call through a handle** checks its arguments, and then lets the region that the handle
stands for serve it. -/
theorem perform_eq (h : call.handle? = some db) (hd : call.isDetaching = false) :
    e.perform call = match e.precheck call with
      | .error err => (.error err, e)
      | .ok () => e.onRegion db fun r => r.serve db call := by
  -- Each call is one of three: a question, a change, or either of them behind a check.
  cases call <;> simp only [Call.handle?, Option.some.injEq, reduceCtorEq] at h <;> subst h
  case deleteLocal => simp [Call.isDetaching] at hd
  case detach => simp [Call.isDetaching] at hd
  case stats => exact answer_askRegion _ _
  case create length =>
    refine (reword_checkedOn _ _ _).trans ?_
    simp only [reword_reword]
    rfl
  case first => exact answer_askRegion _ _
  case next rec =>
    refine (answer_bind _ _ _).trans ?_
    simp only [map_map]
    rfl
  case delete rec => exact reword_checkedOn _ _ _
  case length rec => exact answer_bind _ _ _
  case set rec index value => exact reword_checkedOn _ _ _
  case get rec index => exact answer_bind _ _ _
  case buildQuery template conditions limit =>
    refine (reword_checkedOn _ _ _).trans ?_
    simp only [reword_reword]
    rfl
  case fetch query =>
    refine (reword_checkedOn _ _ _).trans ?_
    simp only [reword_reword]
    rfl
  case freeQuery query => exact reword_checkedOn _ _ _
  case startLock mode => exact reword_onRegion _ _
  case resumeLock mode => exact reword_onRegion _ _
  case tryLock mode => exact reword_onRegion _ _
  case endLock token mode => exact reword_onRegion _ _

/-- **A call that reaches its region** is what the region does. -/
theorem perform_of_resolve (h : call.handle? = some db) (hd : call.isDetaching = false)
    (hcheck : e.precheck call = .ok ()) (hr : e.resolve db = .ok (place, r)) :
    e.perform call = ((r.serve db call).1, e.putRegion place (r.serve db call).2) := by
  rw [perform_eq h hd, hcheck]
  simp only [onRegion, hr]

end Engine

end RecordStore
