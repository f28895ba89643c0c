import RecordStore.Proofs.Records.Changes
import RecordStore.Proofs.Records.Effects
/-!
# History — a region is the list of records that its history made

The calls of a run that come through a handle of a region, and succeed, are
the history of that region. The listing of the region is the replay of its
history, whatever else happens in between, and each call is answered as the
listing says.
-/

namespace RecordStore

namespace Region

variable {r r' : Region} {db : DbHandle} {call : Call}

/-! ## One call in a region -/

/-- Why a creation fails: for want of space, or for want of a slot. -/
theorem create_error_cases {length : Nat} {err : Error} (h : r.create length = (.error err, r')) :
    (∃ requested available, err = .regionFull requested available) ∨
      err = .internal .slotsExhausted := by
  cases creation_of_eq h with
  | full => exact .inl ⟨_, _, rfl⟩
  | slotless => exact .inr rfl

/-- An operation that leaves the listing alone, whether it fails or succeeds. -/
theorem listing_snd {α : Type} (result : Except Error α × Region)
    (herr : ∀ err r', result = (.error err, r') → r' = r)
    (hok : ∀ a r', result = (.ok a, r') → r'.listing = r.listing) :
    result.2.listing = r.listing := by
  obtain ⟨answer, r'⟩ := result
  cases answer with
  | error err => rw [herr err r' rfl]
  | ok a => exact hok a r' rfl

theorem listing_of_locked (h : ∃ lock, r' = { r with lock }) : r'.listing = r.listing := by
  obtain ⟨lock, rfl⟩ := h
  rfl

namespace Coherent

theorem answers_create (hc : r.Coherent) (d : DbHandle) (length : Nat) :
    Listing.Answers db r.listing (r.serve db (.create d length)).1 (.create d length) := by
  simp only [serve, reword, Listing.Answers]
  rcases hr : r.create length with ⟨err | key | p, r'⟩
  · rcases create_error_cases hr with ⟨requested, available, rfl⟩ | rfl
    · exact .inr (.inl ⟨requested, available, rfl⟩)
    · exact .inr (.inr (.inl rfl))
  · exact .inl ⟨key, (hc.listing_create hr).2, rfl⟩
  · exact .inr (.inr (.inr ⟨maxCells_lt_of_panicked hr, p, rfl⟩))

theorem answers_delete (hc : r.Coherent) (d : DbHandle) (rec : RecordHandle) :
    Listing.Answers db r.listing (r.serve db (.delete d rec)).1 (.delete d rec) := by
  simp only [serve, reword, Listing.Answers, hc.lookup_listing, Region.delete]
  cases hlive : r.records.get? rec.key with
  | none =>
    rw [SlotTable.remove?_eq_none_iff.2 hlive]
    rfl
  | some found =>
    rw [SlotTable.remove?_eq_some_iff.2 ⟨hlive, rfl⟩]
    rfl

theorem answers_set (hc : r.Coherent) (d : DbHandle) (rec : RecordHandle) (index : Nat)
    (value : FieldValue) :
    Listing.Answers db r.listing (r.serve db (.set d rec index value)).1
      (.set d rec index value) := by
  simp only [serve, reword, Listing.Answers, hc.lookup_listing, set_eq]
  cases r.records.get? rec.key with
  | none => rfl
  | some found =>
    simp only [Option.map_some]
    by_cases hlt : index < found.fields.size
    · rw [if_pos hlt, Array.getElem?_eq_getElem hlt]
      simp only
      split
      · exact .inr ⟨_, _, rfl⟩
      · exact .inl rfl
    · rw [if_neg hlt, Array.getElem?_eq_none (Nat.le_of_not_lt hlt)]
      rfl

theorem answers_get (hc : r.Coherent) (d : DbHandle) (rec : RecordHandle) (index : Nat) :
    Listing.Answers db r.listing (r.serve db (.get d rec index)).1 (.get d rec index) := by
  simp only [serve, Listing.Answers, hc.lookup_listing, get, record]
  cases r.records.get? rec.key with
  | none => rfl
  | some found =>
    simp only [Option.map_some, bind, Except.bind]
    cases found.fields[index]? <;> rfl

theorem answers_length (hc : r.Coherent) (d : DbHandle) (rec : RecordHandle) :
    Listing.Answers db r.listing (r.serve db (.length d rec)).1 (.length d rec) := by
  simp only [serve, Listing.Answers, hc.lookup_listing, length, record]
  cases r.records.get? rec.key <;> rfl

theorem answers_first (hc : r.Coherent) :
    Listing.Answers db r.listing (r.serve db (.first db)).1 (.first db) := by
  simp only [serve, Listing.Answers, hc.first_eq, Option.map_map, Function.comp_def]

theorem answers_next (hc : r.Coherent) (rec : RecordHandle) :
    Listing.Answers db r.listing (r.serve db (.next db rec)).1 (.next db rec) := by
  simp only [serve, Listing.Answers, hc.next_eq]
  cases Listing.lookup rec.key r.listing with
  | none => rfl
  | some x => simp only [Except.map, Option.map_map, Function.comp_def]

/-- **A coherent region answers as its listing says.** -/
theorem serve_answers (hc : r.Coherent) (h : call.handle? = some db) :
    Listing.Answers db r.listing (r.serve db call).1 call := by
  cases call <;> simp only [Call.handle?, Option.some.injEq, reduceCtorEq] at h <;> subst h
  case create length => exact hc.answers_create _ length
  case delete rec => exact hc.answers_delete _ rec
  case set rec index value => exact hc.answers_set _ rec index value
  case get rec index => exact hc.answers_get _ rec index
  case length rec => exact hc.answers_length _ rec
  case first => exact hc.answers_first
  case next rec => exact hc.answers_next rec
  all_goals exact trivial

/-- **The listing of a coherent region changes by the effect of the call**, and by nothing
else. -/
theorem serve_listing (hc : r.Coherent) (db : DbHandle) (call : Call) :
    (r.serve db call).2.listing =
      (Effect.of? call (r.serve db call).1).toList.foldl Effect.apply r.listing := by
  cases call with
  | create d length =>
    simp only [serve, reword]
    rcases hr : r.create length with ⟨err | key | p, r'⟩
    · rw [create_eq_error hr]
      rfl
    · exact (hc.listing_create hr).1
    · obtain ⟨used, rfl⟩ := used_of_panicked hr
      rfl
  | delete d rec =>
    simp only [serve, reword]
    cases hr : r.delete rec.key with
    | mk answer r' =>
      cases answer with
      | error err => rw [(delete_eq_error_iff.1 hr).2.2]; rfl
      | ok => exact hc.listing_delete hr
  | set d rec index value =>
    simp only [serve, reword]
    cases hr : r.set rec.key index value with
    | mk answer r' =>
      cases answer with
      | error err => rw [set_eq_error hr]; rfl
      | ok => exact hc.listing_set hr
  | buildQuery d template conditions limit =>
    exact listing_snd
      (r.buildQuery db.connection (template.map RecordHandle.key) conditions limit)
      (fun _ _ => buildQuery_eq_error) fun _ _ => listing_buildQuery
  | fetch d query =>
    exact listing_snd (r.fetch db.connection query.key) (fun _ _ => fetch_eq_error)
      fun _ _ => listing_fetch
  | freeQuery d query =>
    exact listing_snd (r.freeQuery db.connection query.key) (fun _ _ => freeQuery_eq_error)
      fun _ _ => listing_freeQuery
  | startLock d mode => exact listing_of_locked (r.startLock_snd mode)
  | resumeLock d mode => exact listing_of_locked (r.resumeLock_snd mode)
  | tryLock d mode => exact listing_of_locked (r.tryLock_snd mode)
  | endLock d token mode => exact listing_of_locked (r.endLock_snd token mode)
  | _ => rfl

end Coherent

end Region

namespace Engine

variable {e e' : Engine} {call : Call} {db : DbHandle} {place : Nat} {r : Region}

/-! ## The history of a region -/

/-- Whether a call is made through a handle that stands for the region at a place. -/
def reaches (e : Engine) (place : Nat) (call : Call) : Bool :=
  match call.handle?.map e.resolve with
  | some (.ok (p, _)) => p == place
  | _ => false

/-- The effect of a call on the records of the region at a place. -/
def effectAt? (e : Engine) (place : Nat) (call : Call) : Option Effect :=
  if e.reaches place call then Effect.of? call (e.perform call).1 else none

/-- The history of the region at a place, in a run from an engine. -/
def history (place : Nat) (e : Engine) : List Call → List Effect
  | [] => []
  | call :: calls => (e.effectAt? place call).toList ++ history place (e.perform call).2 calls

/-- The live records of the region at a place; none where there is no region. -/
def listingAt (e : Engine) (place : Nat) : List LiveRecord :=
  match e.regions[place]? with
  | some r => r.listing
  | none => []

theorem listingAt_eq (h : e.regions[place]? = some r) : e.listingAt place = r.listing := by
  simp only [listingAt, h]

theorem reaches_of_resolve (h : call.handle? = some db) {p : Nat} (hr : e.resolve db = .ok (p, r)) :
    e.reaches place call = (p == place) := by
  simp only [reaches, h, Option.map_some, hr]

theorem reaches_of_handle_none (h : call.handle? = none) : e.reaches place call = false := by
  simp only [reaches, h, Option.map_none]

/-- Only the regions count. -/
theorem listingAt_congr (h : e'.regions = e.regions) : e'.listingAt place = e.listingAt place := by
  simp only [listingAt, h]

theorem listingAt_putRegion {p : Nat} {r' : Region} (h : e.regions[p]? = some r) :
    (e.putRegion p r').listingAt place =
      if place = p then r'.listing else e.listingAt place := by
  by_cases hp : place = p
  · rw [if_pos hp]
    exact listingAt_eq ((getElem?_putRegion h place).trans (if_pos hp))
  · rw [if_neg hp]
    simp only [listingAt, getElem?_putRegion h, if_neg hp]

/-- A region that changed, but not in its records, leaves all listings alone. -/
theorem listingAt_putRegion_same {p : Nat} {r' : Region} (h : e.regions[p]? = some r)
    (hsame : r'.listing = r.listing) : (e.putRegion p r').listingAt place = e.listingAt place := by
  rw [listingAt_putRegion h]
  split
  · rename_i hp
    rw [hsame, hp, listingAt_eq h]
  · rfl

theorem of?_detaching (h : call.isDetaching = true) (answer : Except Error Reply) :
    Effect.of? call answer = none := by
  cases call <;> simp only [Call.isDetaching, Bool.false_eq_true] at h <;> rfl

/-- **One call changes the listing of a region by its effect there.** -/
theorem listingAt_perform (hall : ∀ (p : Nat) r, e.regions[p]? = some r → r.Coherent)
    (place : Nat) (call : Call) :
    (e.perform call).2.listingAt place =
      (e.effectAt? place call).toList.foldl Effect.apply (e.listingAt place) := by
  have hout := e.outcome_perform call
  unfold effectAt?
  generalize (e.perform call).1 = answer, (e.perform call).2 = e' at hout ⊢
  cases hout with
  | refused err => simp [Effect.of?_error]
  -- Calls that do not come through a handle have no effect, and leave all listings alone.
  | aside hhandle hregions =>
    rw [reaches_of_handle_none hhandle]
    exact listingAt_congr hregions
  | joined hcall hr hregions =>
    rw [reaches_of_handle_none (by rw [hcall]; rfl)]
    exact (listingAt_congr hregions).trans (listingAt_putRegion_same hr rfl)
  | founded i name capacity hcall hregions =>
    rw [reaches_of_handle_none (by rw [hcall]; rfl)]
    simp only [listingAt, hregions, Array.getElem?_push]
    by_cases hp : place = e.regions.size
    · -- The new region has no records, and there was none at its place before.
      rw [if_pos hp, Array.getElem?_eq_none (Nat.le_of_eq hp.symm)]
      rfl
    · rw [if_neg hp]
      rfl
  | released hhandle hends hr =>
    rw [of?_detaching hends, ite_self]
    exact listingAt_putRegion_same (getElem?_of_resolve hr) (Region.listing_detach _ _)
  | @served db p r hhandle hends hcheck hr =>
    have hregion := getElem?_of_resolve hr
    rw [reaches_of_resolve hhandle hr, listingAt_putRegion hregion]
    by_cases hp : place = p
    · -- The region itself served the call.
      subst hp
      rw [if_pos rfl, beq_self_eq_true, if_pos rfl, listingAt_eq hregion]
      exact (hall place r hregion).serve_listing db call
    · rw [if_neg hp, if_neg (by simpa using Ne.symm hp)]
      rfl

/-- What happens to a region can come next there. -/
theorem canFollow_effectAt (hall : ∀ (p : Nat) r, e.regions[p]? = some r → r.Coherent)
    {eff : Effect} (h : e.effectAt? place call = some eff) :
    eff.CanFollow (e.listingAt place) := by
  have hout := e.outcome_perform call
  unfold effectAt? at h
  generalize (e.perform call).1 = answer, (e.perform call).2 = e' at hout h
  cases hout with
  | refused err => simp [Effect.of?_error] at h
  | aside hhandle => simp [reaches_of_handle_none hhandle] at h
  | joined hcall => subst hcall; simp [reaches, Call.handle?] at h
  | founded _ _ _ hcall => subst hcall; simp [reaches, Call.handle?] at h
  | released _ hends => simp [of?_detaching hends] at h
  | @served db p r hhandle hends hcheck hr =>
    have hregion := getElem?_of_resolve hr
    rw [reaches_of_resolve hhandle hr] at h
    by_cases hp : place = p
    · subst hp
      rw [beq_self_eq_true, if_pos rfl] at h
      rw [listingAt_eq hregion]
      exact ((hall place r hregion).serve_answers hhandle).canFollow h
    · rw [if_neg (by simpa using Ne.symm hp)] at h
      cases h

/-! ## Runs -/

/-- **A run changes the listing of a region by its history**, and the listing stays faithful
to what was before and what the run added. -/
theorem listingAt_run (place : Nat) (calls : List Call) (before : List Effect)
    (hall : ∀ (p : Nat) r, e.regions[p]? = some r → r.Coherent)
    (hbefore : Effect.Faithful (e.listingAt place) before) :
    (e.run calls).listingAt place = (history place e calls).foldl Effect.apply (e.listingAt place) ∧
      Effect.Faithful ((e.run calls).listingAt place) (before ++ history place e calls) := by
  induction calls generalizing e before with
  | nil =>
    simp only [run_nil, history, List.foldl_nil, List.append_nil, true_and]
    exact hbefore
  | cons call calls ih =>
    -- The first call adds its effect, if it has one, to what was before; the rest follows from
    -- the engine that it leaves.
    have hstep := listingAt_perform hall place call
    have hcan : ∀ eff, e.effectAt? place call = some eff → eff.CanFollow (e.listingAt place) :=
      fun eff => canFollow_effectAt hall
    rw [run_cons, history]
    have hfaithful : Effect.Faithful ((e.perform call).2.listingAt place)
        (before ++ (e.effectAt? place call).toList) := by
      rw [hstep]
      cases heff : e.effectAt? place call with
      | none => simpa using hbefore
      | some eff => exact hbefore.apply (hcan eff heff)
    have hrest := ih _ (coherent_perform hall call) hfaithful
    rw [hstep] at hrest
    rw [List.foldl_append, ← List.append_assoc]
    exact hrest

/-- **A region is the list of records that its history made.** After every run its listing is
the replay of its history: no key is live twice, each record is as long as it was created, and
each field holds what was last written to it. A call through a handle of the region is refused
for its arguments alone, or is answered as the listing says and changes the listing by its
effect; and one that fails changes nothing, but for the count of a lock's releases. -/
theorem region_refines_listing {settings : EngineSettings} {calls : List Call}
    (h : ((start settings).run calls).regions[place]? = some r) :
    let e := (start settings).run calls
    let past := history place (start settings) calls
    r.listing = Effect.replay past ∧
      (r.listing.map LiveRecord.key).Nodup ∧
      Effect.Faithful r.listing past ∧
      ∀ db call, call.handle? = some db → call.isDetaching = false →
        e.resolve db = .ok (place, r) →
        match e.precheck call with
        | .error err => e.perform call = (.error err, e)
        | .ok () =>
          Listing.Answers db r.listing (e.perform call).1 call ∧
            (e.perform call).2.listingAt place =
              (Effect.of? call (e.perform call).1).toList.foldl Effect.apply r.listing ∧
            ∀ err, (e.perform call).1 = .error err →
              (∀ d token mode, call ≠ .endLock d token mode) → (e.perform call).2 = e := by
  intro e past
  have hc := coherent_run h
  have hempty : ∀ (p : Nat) r, (start settings).regions[p]? = some r → r.Coherent :=
    fun p r hr => by simp [start] at hr
  have hnothing : (start settings).listingAt place = [] := by simp [listingAt, start]
  have hrun := listingAt_run place calls [] hempty
    (by rw [hnothing]; exact Effect.faithful_nil)
  rw [hnothing, listingAt_eq h, List.nil_append] at hrun
  refine ⟨hrun.1, hc.listing_nodup, hrun.2, fun db call hhandle hends hr => ?_⟩
  cases hcheck : e.precheck call with
  | error err => simp only [perform_eq hhandle hends, hcheck]
  | ok =>
    have hperform := perform_of_resolve hhandle hends hcheck hr
    refine ⟨?_, ?_, fun err herr hlock => perform_error herr hlock⟩
    · rw [hperform]
      exact hc.serve_answers hhandle
    · rw [hperform, listingAt_putRegion h, if_pos rfl]
      exact hc.serve_listing db call

/-- A run in which the slot of a deleted record is filled again. -/
def slotReused : List Call :=
  [.openDatabase none 0 true, .create firstLocal 1, .create firstLocal 2,
    .delete firstLocal (firstLocal.record ⟨0, 0⟩), .create firstLocal 1,
    .set firstLocal (firstLocal.record ⟨0, 1⟩) 0 (.int 7)]

/-- The record in a slot that was filled again is listed last, under another key, and the old
key finds nothing. -/
theorem region_refines_listing_reused :
    ∃ r, ((start {}).run slotReused).resolve firstLocal = .ok (0, r) ∧
      r.listing = [⟨⟨1, 0⟩, #[none, none]⟩, ⟨⟨0, 1⟩, #[some (.int 7)]⟩] ∧
      r.listing = Effect.replay (history 0 (start {}) slotReused) ∧
      (((start {}).run slotReused).perform (.get firstLocal (firstLocal.record ⟨0, 0⟩) 0)).1 =
        Listing.gone := by
  obtain ⟨r, hr, hl⟩ : ∃ r, ((start {}).run slotReused).resolve firstLocal = .ok (0, r) ∧
      r.listing = [⟨⟨1, 0⟩, #[none, none]⟩, ⟨⟨0, 1⟩, #[some (.int 7)]⟩] := ⟨_, rfl, by decide⟩
  obtain ⟨hreplay, -, -, hserved⟩ := region_refines_listing (getElem?_of_resolve hr)
  refine ⟨r, hr, hl, hreplay, ?_⟩
  have hget := (hserved firstLocal (.get firstLocal (firstLocal.record ⟨0, 0⟩) 0) rfl rfl hr).1
  rw [hl] at hget
  exact hget

end Engine

end RecordStore
