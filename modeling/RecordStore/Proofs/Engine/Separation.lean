import RecordStore.Proofs.Engine.Registry
/-!
# Separation — regions do not interfere

Two engines that differ in regions elsewhere at most (`DifferElsewhere`)
answer every call that is not made through a connection elsewhere alike, and
go on to differ elsewhere at most. A call on what another region holds makes
no other difference than this, so it may be left out of a run
(`without`) and nobody outside that region learns of it
(`regions_do_not_interfere`).
-/

namespace RecordStore

namespace Call

/-- Whether a call is about the records, fields or queries of a region or about its lock. -/
def isInner : Call → Bool
  | .create _ _ | .first _ | .next _ _ | .delete _ _ | .length _ _ | .set _ _ _ _ | .get _ _ _
  | .buildQuery _ _ _ _ | .fetch _ _ | .freeQuery _ _ | .startLock _ _ | .resumeLock _ _
  | .tryLock _ _ | .endLock _ _ _ => true
  | _ => false

/-- Such a call is made through a handle and ends no attachment. -/
theorem isDetaching_of_isInner {call : Call} (h : call.isInner = true) :
    call.isDetaching = false := by
  cases call <;> first | rfl | cases h

end Call

namespace Engine

variable {e e' : Engine} {call : Call} {calls : List Call} {db : DbHandle} {place p q : Nat}
variable {r r' s s' : Region}

/-! ## Calls elsewhere -/

/-- The place of the region that the connection of a call is attached to. -/
def placeOf? (e : Engine) (call : Call) : Option Nat :=
  call.handle?.bind fun db => e.attachments.find? db.connection

/-- Whether a call is made through a connection that is attached to a region elsewhere. -/
def isElsewhere (e : Engine) (place : Nat) (call : Call) : Bool :=
  (e.placeOf? call).any fun p => p ≠ place

/-- A run without the calls that are made elsewhere and are about what regions hold. -/
def without (e : Engine) (place : Nat) : List Call → List Call
  | [] => []
  | call :: calls =>
    let rest := (e.perform call).2.without place calls
    if e.isElsewhere place call && call.isInner then rest else call :: rest

/-- The calls of a run that are not made elsewhere, with their answers. -/
def answersAt (e : Engine) (place : Nat) : List Call → List (Call × Except Error Reply)
  | [] => []
  | call :: calls =>
    let rest := (e.perform call).2.answersAt place calls
    if e.isElsewhere place call then rest else (call, (e.perform call).1) :: rest

theorem placeOf?_of_resolve (hhandle : call.handle? = some db)
    (hr : e.resolve db = .ok (p, r)) : e.placeOf? call = some p := by
  rw [placeOf?, hhandle]
  exact (resolve_eq_ok_iff.1 hr).1

/-- **A call changes no region but the one that it is made through.** -/
theorem perform_elsewhere (h : e.placeOf? call = some p) (hq : q ≠ p) :
    (e.perform call).2.regions[q]? = e.regions[q]? := by
  obtain ⟨db, hdb, hp⟩ := Option.bind_eq_some_iff.1 h
  -- A region that the handle stands for is the one at that place.
  have hplace : ∀ {db' p' r'}, call.handle? = some db' → e.resolve db' = .ok (p', r') →
      p' = p := by
    intro db' p' r' hdb' hr'
    rw [hdb, Option.some.injEq] at hdb'
    subst hdb'
    have hp' := (resolve_eq_ok_iff.1 hr').1
    rw [hp, Option.some.injEq] at hp'
    exact hp'.symm
  have hout := e.outcome_perform call
  generalize (e.perform call).1 = answer, (e.perform call).2 = e' at hout ⊢
  cases hout with
  | refused err => rfl
  | aside hhandle =>
    rw [hdb] at hhandle
    cases hhandle
  | joined hcall =>
    rw [hcall] at hdb
    cases hdb
  | founded i name capacity hcall =>
    rw [hcall] at hdb
    cases hdb
  | released hhandle hends hr =>
    have hne := hplace hhandle hr ▸ hq
    exact (getElem?_putRegion (getElem?_of_resolve hr) q).trans (if_neg hne)
  | served hhandle hends hcheck hr =>
    have hne := hplace hhandle hr ▸ hq
    exact (getElem?_putRegion (getElem?_of_resolve hr) q).trans (if_neg hne)

/-! ## Engines that differ elsewhere -/

/-- **The engines differ at most in what regions at other places hold.** -/
structure DifferElsewhere (place : Nat) (e e' : Engine) : Prop where
  settings : e'.settings = e.settings
  named : e'.named = e.named
  attachments : e'.attachments = e.attachments
  nextRegion : e'.nextRegion = e.nextRegion
  nextConnection : e'.nextConnection = e.nextConnection
  size : e'.regions.size = e.regions.size
  region : ∀ (p : Nat) r, e.regions[p]? = some r →
    ∃ r', e'.regions[p]? = some r' ∧ Region.SameIdentity r r' ∧ (p = place → r' = r)

namespace DifferElsewhere

theorem refl (place : Nat) (e : Engine) : DifferElsewhere place e e where
  settings := rfl
  named := rfl
  attachments := rfl
  nextRegion := rfl
  nextConnection := rfl
  size := rfl
  region _ r hr := ⟨r, hr, .refl r, fun _ => rfl⟩

/-- The region at the place itself is the same. -/
theorem region_eq (h : DifferElsewhere place e e') :
    e'.regions[place]? = e.regions[place]? := by
  cases hr : e.regions[place]? with
  | some r =>
    obtain ⟨r', hr', -, heq⟩ := h.region place r hr
    rw [hr', heq rfl]
  | none =>
    have hsize := Array.getElem?_eq_none_iff.1 hr
    have hsize' := h.size
    exact Array.getElem?_eq_none (by omega)

/-- Regions that stay themselves may be put back on both sides. -/
theorem putRegion (h : DifferElsewhere place e e') (hr : e.regions[p]? = some r)
    (hr' : e'.regions[p]? = some r') (hsame : Region.SameIdentity s s')
    (heq : p = place → s' = s) :
    DifferElsewhere place (e.putRegion p s) (e'.putRegion p s') where
  settings := h.settings
  named := h.named
  attachments := h.attachments
  nextRegion := h.nextRegion
  nextConnection := h.nextConnection
  size := by
    rw [size_putRegion, size_putRegion]
    exact h.size
  region q t ht := by
    rcases putRegion_cases hr ht with ⟨rfl, rfl⟩ | ⟨hq, ht⟩
    · exact ⟨s', by rw [getElem?_putRegion hr', if_pos rfl], hsame, heq⟩
    · obtain ⟨t', ht', htsame⟩ := h.region q t ht
      exact ⟨t', by rw [getElem?_putRegion hr', if_neg hq, ht'], htsame⟩

/-- A region that is not at the place may change on one side alone. -/
theorem putElsewhere (h : DifferElsewhere place e e') (hr : e.regions[p]? = some r)
    (hsame : Region.SameIdentity r s) (hp : p ≠ place) :
    DifferElsewhere place (e.putRegion p s) e' := by
  obtain ⟨r', hr', hother, -⟩ := h.region p r hr
  have hsides : Region.SameIdentity s r' :=
    ⟨hother.id.trans hsame.id.symm, hother.name.trans hsame.name.symm,
      hother.capacity.trans hsame.capacity.symm⟩
  have hput := h.putRegion hr hr' hsides fun heq => absurd heq hp
  rwa [putRegion_self hr'] at hput

/-- Connections may be added and taken away on both sides. -/
theorem reattach (h : DifferElsewhere place e e') (attachments : Directory ConnectionId Nat)
    (nextConnection : ConnectionId) :
    DifferElsewhere place { e with attachments, nextConnection }
      { e' with attachments, nextConnection } :=
  { h with attachments := rfl, nextConnection := rfl }

/-- A new connection on both sides. -/
theorem join (h : DifferElsewhere place e e') (hr : e.regions[p]? = some r)
    (hr' : e'.regions[p]? = some r') (hsame : Region.SameIdentity r r')
    (heq : p = place → r' = r) : DifferElsewhere place (e.join p r) (e'.join p r') := by
  have hattached : Region.SameIdentity r.attach r'.attach := ⟨hsame.id, hsame.name, hsame.capacity⟩
  have hput := h.putRegion hr hr' hattached fun hp => by rw [heq hp]
  have hjoin := hput.reattach (e.attachments.insert e.nextConnection p) e.nextConnection.next
  simp only [Engine.join, attach, h.attachments, h.nextConnection]
  exact hjoin

/-- A new region on both sides. -/
theorem found (h : DifferElsewhere place e e') (name : Option String) (capacity : Nat) :
    DifferElsewhere place (e.found name capacity) (e'.found name capacity) where
  settings := h.settings
  named := by simp only [Engine.found, h.named, h.size]
  attachments := by simp only [Engine.found, h.attachments, h.nextConnection, h.size]
  nextRegion := by simp only [Engine.found, h.nextRegion]
  nextConnection := by simp only [Engine.found, h.nextConnection]
  size := by rw [size_found, size_found, h.size]
  region q t ht := by
    rcases found_cases ht with ⟨rfl, rfl⟩ | ⟨hq, ht⟩
    · refine ⟨(Region.fresh e.nextRegion name capacity).attach, ?_, .refl _, fun _ => rfl⟩
      rw [← h.size, getElem?_found_self, h.nextRegion]
    · obtain ⟨t', ht', htsame⟩ := h.region q t ht
      exact ⟨t', getElem?_found_of_lt ht', htsame⟩

/-! ### What both find -/

theorem placeOf?_eq (h : DifferElsewhere place e e') (call : Call) :
    e'.placeOf? call = e.placeOf? call := by
  rw [placeOf?, placeOf?, h.attachments]

theorem isElsewhere_eq (h : DifferElsewhere place e e') (call : Call) :
    e'.isElsewhere place call = e.isElsewhere place call := by
  rw [isElsewhere, isElsewhere, h.placeOf?_eq]

/-- A handle stands for the same region on both sides. -/
theorem resolve_eq_ok (h : DifferElsewhere place e e') (hr : e.resolve db = .ok (p, r)) :
    ∃ r', e'.resolve db = .ok (p, r') ∧ Region.SameIdentity r r' ∧ (p = place → r' = r) := by
  obtain ⟨hp, hget, hid⟩ := resolve_eq_ok_iff.1 hr
  obtain ⟨r', hr', hsame, heq⟩ := h.region p r hget
  refine ⟨r', resolve_eq_ok_iff.2 ⟨?_, hr', hsame.id.trans hid⟩, hsame, heq⟩
  rw [h.attachments, hp]

/-- What is found at a place is found there on both sides. -/
theorem regionAt?_cases (h : DifferElsewhere place e e') (p : Nat) :
    (e.regionAt? p = none ∧ e'.regionAt? p = none) ∨
      ∃ r r', e.regionAt? p = some (p, r) ∧ e'.regionAt? p = some (p, r') ∧
        Region.SameIdentity r r' := by
  cases hr : e.regions[p]? with
  | some r =>
    obtain ⟨r', hr', hsame, -⟩ := h.region p r hr
    exact .inr ⟨r, r', by simp [regionAt?, hr], by simp [regionAt?, hr'], hsame⟩
  | none =>
    have hsize := Array.getElem?_eq_none_iff.1 hr
    have hsize' := h.size
    have hr' : e'.regions[p]? = none := Array.getElem?_eq_none (by omega)
    exact .inl ⟨by simp [regionAt?, hr], by simp [regionAt?, hr']⟩

/-- A handle that is refused is refused in the same words on both sides. -/
theorem resolve_eq_error (h : DifferElsewhere place e e') {err : Error}
    (hr : e.resolve db = .error err) : e'.resolve db = .error err := by
  unfold resolve attachment? at hr ⊢
  rw [h.attachments]
  cases hp : e.attachments.find? db.connection with
  | none => simpa [hp] using hr
  | some p =>
    rcases h.regionAt?_cases p with ⟨hnone, hnone'⟩ | ⟨r, r', hsome, hsome', hsame⟩
    · simpa [hp, hnone, hnone'] using hr
    · -- The regions have one identifier, so both are refused or neither is.
      simp only [hp, Option.bind_some, hsome, hsome', hsame.id] at hr ⊢
      split at hr
      · cases hr
      · rename_i hid
        rw [if_neg hid, hr]

/-- A name stands for the same region on both sides. -/
theorem registered?_eq_some (h : DifferElsewhere place e e') {name : String}
    (hr : e.registered? name = some (p, r)) :
    ∃ r', e'.registered? name = some (p, r') ∧ Region.SameIdentity r r' ∧
      (p = place → r' = r) := by
  have hget := Engine.registered?_eq_some hr
  obtain ⟨r', hr', hsame, heq⟩ := h.region p r hget
  refine ⟨r', ?_, hsame, heq⟩
  obtain ⟨p', hp', hat⟩ := Option.bind_eq_some_iff.1 hr
  obtain ⟨r'', -, hpair⟩ := Option.map_eq_some_iff.1 hat
  cases hpair
  simp [registered?, h.named, hp', regionAt?, hr']

theorem registered?_eq_none (h : DifferElsewhere place e e') {name : String}
    (hr : e.registered? name = none) : e'.registered? name = none := by
  unfold registered? at hr ⊢
  rw [h.named]
  cases hp : e.named.find? name with
  | none => rfl
  | some p =>
    rcases h.regionAt?_cases p with ⟨-, hnone'⟩ | ⟨r, r', hsome, -⟩
    · exact hnone'
    · simp [hp, hsome] at hr

/-! ### What both do -/

/-- An opening gives the same handle on both sides. -/
theorem openDatabase (h : DifferElsewhere place e e') (asked : Option String) (size : Nat)
    (isLocal : Bool) :
    (e'.openDatabase asked size isLocal).1 = (e.openDatabase asked size isLocal).1 ∧
      DifferElsewhere place (e.openDatabase asked size isLocal).2
        (e'.openDatabase asked size isLocal).2 := by
  by_cases hsize : e.settings.minRegionSize ≤ e.settings.effectiveSize size
  · have hsize' : e'.settings.minRegionSize ≤ e'.settings.effectiveSize size := by
      rwa [h.settings]
    cases isLocal with
    | true =>
      rw [openDatabase_own hsize, openDatabase_own hsize', h.nextRegion, h.nextConnection,
        h.settings]
      exact ⟨rfl, h.found none _⟩
    | false =>
      cases hreg : e.registered? (e.settings.effectiveName asked) with
      | some found =>
        obtain ⟨p, r⟩ := found
        obtain ⟨r', hreg', hsame, heq⟩ := h.registered?_eq_some hreg
        rw [← h.settings] at hreg'
        rw [openDatabase_registered hsize hreg, openDatabase_registered hsize' hreg', hsame.id,
          hsame.isLocal, h.nextConnection]
        exact ⟨rfl, h.join (Engine.registered?_eq_some hreg) (Engine.registered?_eq_some hreg')
          hsame heq⟩
      | none =>
        have hreg' := h.registered?_eq_none hreg
        rw [← h.settings] at hreg'
        rw [openDatabase_unregistered hsize hreg, openDatabase_unregistered hsize' hreg',
          h.nextRegion, h.nextConnection, h.settings]
        exact ⟨rfl, h.found _ _⟩
  · have hsmall := Nat.lt_of_not_le hsize
    simp only [Engine.openDatabase, if_pos hsmall, h.settings]
    exact ⟨trivial, h⟩

/-- A name that is taken out on both sides. -/
theorem deleteDatabase (h : DifferElsewhere place e e') (asked : Option String) :
    (e'.deleteDatabase asked).1 = (e.deleteDatabase asked).1 ∧
      DifferElsewhere place (e.deleteDatabase asked).2 (e'.deleteDatabase asked).2 := by
  simp only [Engine.deleteDatabase, h.settings, h.named]
  split
  · have hnamed : DifferElsewhere place
        { e with named := e.named.erase (e.settings.effectiveName asked) }
        { e' with named := e.named.erase (e.settings.effectiveName asked) } :=
      { h with named := rfl }
    simp only [h.settings] at hnamed ⊢
    exact ⟨trivial, hnamed⟩
  · exact ⟨rfl, h⟩

/-- The end of an attachment on both sides. -/
theorem release (h : DifferElsewhere place e e') (hr : e.resolve db = .ok (p, r))
    (hr' : e'.resolve db = .ok (p, r')) (hsame : Region.SameIdentity r r')
    (heq : p = place → r' = r) :
    DifferElsewhere place (e.release db.connection p r) (e'.release db.connection p r') := by
  have hdetached : Region.SameIdentity (r.detach db.connection) (r'.detach db.connection) :=
    ⟨hsame.id, hsame.name, hsame.capacity⟩
  have hput := h.putRegion (getElem?_of_resolve hr) (getElem?_of_resolve hr') hdetached
    fun hp => by rw [heq hp]
  have hrelease := hput.reattach (e.attachments.erase db.connection) e.nextConnection
  simp only [Engine.release, h.attachments]
  exact { hrelease with nextConnection := h.nextConnection }

theorem detaching (h : DifferElsewhere place e e') (hends : call.isDetaching = true) :
    (e'.perform call).1 = (e.perform call).1 ∧
      DifferElsewhere place (e.perform call).2 (e'.perform call).2 := by
  cases call <;> simp only [Call.isDetaching, Bool.false_eq_true] at hends
  case deleteLocal db =>
    simp only [perform, reword, deleteLocal]
    cases hr : e.resolve db with
    | error err =>
      rw [h.resolve_eq_error hr]
      exact ⟨rfl, h⟩
    | ok found =>
      obtain ⟨p, r⟩ := found
      obtain ⟨r', hr', hsame, heq⟩ := h.resolve_eq_ok hr
      simp only [hr', hsame.isLocal]
      split
      · exact ⟨rfl, h.release hr hr' hsame heq⟩
      · exact ⟨rfl, h⟩
  case detach db =>
    simp only [perform, reword, Engine.detach]
    cases hr : e.resolve db with
    | error err =>
      rw [h.resolve_eq_error hr]
      exact ⟨rfl, h⟩
    | ok found =>
      obtain ⟨p, r⟩ := found
      obtain ⟨r', hr', hsame, heq⟩ := h.resolve_eq_ok hr
      simp only [hr', hsame.isLocal]
      split
      · exact ⟨rfl, h⟩
      · exact ⟨rfl, h.release hr hr' hsame heq⟩

/-- The arguments of a call are checked alike. -/
theorem precheck_eq (h : DifferElsewhere place e e') (call : Call) :
    e'.precheck call = e.precheck call := by
  cases call <;> simp only [precheck, checkLength, h.settings]

/-- A call that a region serves. -/
theorem serving (h : DifferElsewhere place e e') (hhandle : call.handle? = some db)
    (hends : call.isDetaching = false) :
    (e.isElsewhere place call = false → (e'.perform call).1 = (e.perform call).1) ∧
      DifferElsewhere place (e.perform call).2 (e'.perform call).2 := by
  rw [perform_eq hhandle hends, perform_eq hhandle hends, h.precheck_eq]
  cases e.precheck call with
  | error err => exact ⟨fun _ => rfl, h⟩
  | ok =>
    simp only [onRegion]
    cases hr : e.resolve db with
    | error err =>
      rw [h.resolve_eq_error hr]
      exact ⟨fun _ => rfl, h⟩
    | ok found =>
      obtain ⟨p, r⟩ := found
      obtain ⟨r', hr', hsame, heq⟩ := h.resolve_eq_ok hr
      simp only [hr']
      have hframe := (r.serve_sameFrame db call).same
      have hframe' := (r'.serve_sameFrame db call).same
      have hserved : Region.SameIdentity (r.serve db call).2 (r'.serve db call).2 :=
        ⟨hframe'.id.trans (hsame.id.trans hframe.id.symm),
          hframe'.name.trans (hsame.name.trans hframe.name.symm),
          hframe'.capacity.trans (hsame.capacity.trans hframe.capacity.symm)⟩
      refine ⟨fun hhere => ?_, h.putRegion (getElem?_of_resolve hr) (getElem?_of_resolve hr')
        hserved fun hp => by rw [heq hp]⟩
      -- The call is not made elsewhere, so the region is the one that both have.
      have hp : p = place := by
        rw [isElsewhere, placeOf?_of_resolve hhandle hr] at hhere
        simpa using hhere
      rw [heq hp]

/-- **A call that both carry out** is answered alike unless it is made elsewhere, and leaves
them different elsewhere at most. -/
theorem perform (h : DifferElsewhere place e e') (call : Call) :
    (e.isElsewhere place call = false → (e'.perform call).1 = (e.perform call).1) ∧
      DifferElsewhere place (e.perform call).2 (e'.perform call).2 := by
  cases hhandle : call.handle? with
  | some db =>
    cases hends : call.isDetaching with
    | true =>
      obtain ⟨hanswer, hdiffer⟩ := h.detaching hends
      exact ⟨fun _ => hanswer, hdiffer⟩
    | false => exact h.serving hhandle hends
  | none =>
    cases call <;> simp only [Call.handle?, reduceCtorEq] at hhandle
    case openDatabase asked size isLocal =>
      obtain ⟨hanswer, hdiffer⟩ := h.openDatabase asked size isLocal
      exact ⟨fun _ => congrArg (Except.map Reply.database) hanswer, hdiffer⟩
    case deleteDatabase asked =>
      obtain ⟨hanswer, hdiffer⟩ := h.deleteDatabase asked
      exact ⟨fun _ => congrArg (Except.map fun _ => Reply.done) hanswer, hdiffer⟩
    -- The other calls without a handle are questions about what both have.
    case «exists» name =>
      refine ⟨fun _ => ?_, h⟩
      simp only [Engine.perform, answer, h.named]
    case names =>
      refine ⟨fun _ => ?_, h⟩
      simp only [Engine.perform, answer, Engine.names, h.named]
    case settings =>
      refine ⟨fun _ => ?_, h⟩
      simp only [Engine.perform, answer, h.settings]

/-- **A call on what a region elsewhere holds** makes no difference but there, also where only
one of the two carries it out. -/
theorem perform_inner (h : DifferElsewhere place e e') (helse : e.isElsewhere place call = true)
    (hinner : call.isInner = true) : DifferElsewhere place (e.perform call).2 e' := by
  have hends := Call.isDetaching_of_isInner hinner
  have hout := e.outcome_perform call
  generalize (e.perform call).1 = answer, (e.perform call).2 = e₁ at hout ⊢
  cases hout with
  | refused err => exact h
  | aside hhandle =>
    rw [isElsewhere, placeOf?, hhandle] at helse
    cases helse
  | joined hcall =>
    subst hcall
    cases hinner
  | founded i name capacity hcall =>
    subst hcall
    cases hinner
  | released _ hdetaching =>
    rw [hends] at hdetaching
    cases hdetaching
  | @served db p r hhandle _ _ hr =>
    refine h.putElsewhere (getElem?_of_resolve hr) (r.serve_sameFrame db call).same ?_
    rw [isElsewhere, placeOf?_of_resolve hhandle hr] at helse
    simpa using helse

/-! ## Runs -/

/-- **A run and the same run without calls elsewhere**, on engines that differ elsewhere at
most: what is not asked elsewhere is answered alike, and they end up different elsewhere at
most. -/
theorem run_without (h : DifferElsewhere place e e') (calls : List Call) :
    e'.answersAt place (e.without place calls) = e.answersAt place calls ∧
      DifferElsewhere place (e.run calls) (e'.run (e.without place calls)) := by
  induction calls generalizing e e' with
  | nil => exact ⟨rfl, h⟩
  | cons call calls ih =>
    simp only [without, answersAt, run_cons]
    by_cases hout : (e.isElsewhere place call && call.isInner) = true
    · -- The call is left out, and nobody but its own region has seen it.
      obtain ⟨helse, hinner⟩ := Bool.and_eq_true_iff.1 hout
      obtain ⟨hanswers, hdiffer⟩ := ih (h.perform_inner helse hinner)
      rw [if_pos hout, if_pos helse]
      exact ⟨hanswers, hdiffer⟩
    · obtain ⟨hanswer, hnext⟩ := h.perform call
      obtain ⟨hanswers, hdiffer⟩ := ih hnext
      rw [if_neg hout]
      simp only [answersAt, run_cons, h.isElsewhere_eq]
      refine ⟨?_, hdiffer⟩
      split
      · exact hanswers
      · rename_i helse
        rw [hanswers, hanswer (Bool.eq_false_of_not_eq_true helse)]

end DifferElsewhere

/-- **Regions do not interfere.** Leave out of a run every call on records, fields, queries and
locks that is made through a connection to another region: all other calls, but those that are
made through such connections, are answered as before, and the region ends up in the same state.
A call changes no region but the one that its connection is attached to, and the deletion of a
database changes none. -/
theorem regions_do_not_interfere (e : Engine) (place : Nat) (calls : List Call) :
    e.answersAt place (e.without place calls) = e.answersAt place calls ∧
      (e.run (e.without place calls)).regions[place]? = (e.run calls).regions[place]? ∧
      (∀ call p q, e.placeOf? call = some p → q ≠ p →
        (e.perform call).2.regions[q]? = e.regions[q]?) ∧
      ∀ name, (e.perform (.deleteDatabase name)).2.regions = e.regions := by
  obtain ⟨hanswers, hdiffer⟩ := (DifferElsewhere.refl place e).run_without calls
  refine ⟨hanswers, hdiffer.region_eq, fun call p q => perform_elsewhere, fun name => ?_⟩
  simp only [perform, reword, deleteDatabase]
  split <;> rfl

/-- The handle that the second opening of a run gives when it opens a local database. -/
def secondLocal : DbHandle := ⟨⟨2⟩, ⟨2⟩, true⟩

/-- Two local databases in which the same slots and lock numbers are in use. The second one's
token is also tried on the first. -/
def twoLocal : List Call :=
  [.openDatabase none 0 true, .openDatabase none 0 true, .create secondLocal 1,
    .create firstLocal 1, .startLock secondLocal .exclusive, .startLock firstLocal .exclusive,
    .set secondLocal (secondLocal.record ⟨0, 0⟩) 0 (.int 7),
    .endLock firstLocal ⟨⟨2⟩, ⟨1⟩, .exclusive⟩ .exclusive,
    .get firstLocal (firstLocal.record ⟨0, 0⟩) 0]

/-- Nothing of what happened in the second database can be told from the first. -/
theorem regions_do_not_interfere_locked :
    let alone := [.openDatabase none 0 true, .openDatabase none 0 true, .create firstLocal 1,
      .startLock firstLocal .exclusive, .endLock firstLocal ⟨⟨2⟩, ⟨1⟩, .exclusive⟩ .exclusive,
      .get firstLocal (firstLocal.record ⟨0, 0⟩) 0]
    let e := (start {}).run twoLocal
    let call := Call.delete secondLocal (secondLocal.record ⟨0, 0⟩)
    (start {}).without 0 twoLocal = alone ∧
      (start {}).answersAt 0 alone = (start {}).answersAt 0 twoLocal ∧
      e.placeOf? call = some 1 ∧ (e.perform call).1 = .ok .done ∧
      (e.perform call).2.regions[0]? = e.regions[0]? := by
  intro alone e call
  have hwithout : (start {}).without 0 twoLocal = alone := rfl
  have hplace : e.placeOf? call = some 1 := rfl
  obtain ⟨hanswers, -⟩ := regions_do_not_interfere (start {}) 0 twoLocal
  obtain ⟨-, -, hother, -⟩ := regions_do_not_interfere e 0 []
  rw [hwithout] at hanswers
  exact ⟨hwithout, hanswers, hplace, rfl, hother call 1 0 hplace (by decide)⟩

end Engine

end RecordStore
