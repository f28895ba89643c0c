import RecordStore.Proofs.Engine.Locking
/-!
# Upkeep — regions, names and attachments

Four kinds of calls keep up the registry and the attachments: the opening
and the deletion of a database, and the two that end an attachment. `Upkeep`
says all that a call can do there: the four kinds change just what they name,
and every other call changes at most the contents and the lock of one region
(`upkeep_perform`).
-/

namespace RecordStore

namespace Call

/-- Whether a call is for the upkeep of the registry and the attachments. -/
def isUpkeep : Call → Bool
  | .openDatabase _ _ _ | .deleteDatabase _ | .deleteLocal _ | .detach _ => true
  | _ => false

/-- The calls that end an attachment are among them. -/
theorem isDetaching_of_isUpkeep {call : Call} (h : call.isUpkeep = false) :
    call.isDetaching = false := by
  cases call <;> first | rfl | cases h

end Call

namespace Region

variable {r r' r'' : Region} {db : DbHandle} {call : Call}

/-- Two states of one region, which keeps its identifier, name and capacity for good. -/
structure SameIdentity (r r' : Region) : Prop where
  id : r'.id = r.id
  name : r'.name = r.name
  capacity : r'.capacity = r.capacity

namespace SameIdentity

theorem refl (r : Region) : SameIdentity r r := ⟨rfl, rfl, rfl⟩

theorem trans (h : SameIdentity r r') (h' : SameIdentity r' r'') : SameIdentity r r'' :=
  ⟨h'.id.trans h.id, h'.name.trans h.name, h'.capacity.trans h.capacity⟩

theorem attach (r : Region) : SameIdentity r r.attach := ⟨rfl, rfl, rfl⟩

theorem detach (r : Region) (connection : ConnectionId) : SameIdentity r (r.detach connection) :=
  ⟨rfl, rfl, rfl⟩

theorem isLocal (h : SameIdentity r r') : r'.isLocal = r.isLocal := by
  rw [Region.isLocal, Region.isLocal, h.name]

end SameIdentity

/-- Two states of a region that differ in its contents and its lock at most. -/
structure SameFrame (r r' : Region) : Prop where
  same : SameIdentity r r'
  attached : r'.attached = r.attached

theorem SameFrame.refl (r : Region) : SameFrame r r := ⟨.refl r, rfl⟩

/-- An operation that changes nothing when it fails keeps the frame if it does so when it
succeeds. -/
theorem sameFrame_of_ok {α : Type} (result : Except Error α × Region)
    (herr : ∀ err r', result = (.error err, r') → r' = r)
    (hok : ∀ a r', result = (.ok a, r') → SameFrame r r') : SameFrame r result.2 := by
  obtain ⟨answer, r'⟩ := result
  cases answer with
  | error err =>
    rw [herr err r' rfl]
    exact .refl r
  | ok a => exact hok a r' rfl

/-- **A region that serves a call** stays under its identifier, name and capacity, and the same
number of connections stays attached to it. -/
theorem serve_sameFrame (r : Region) (db : DbHandle) (call : Call) :
    SameFrame r (r.serve db call).2 := by
  have hlock : ∀ {s : Region}, (∃ lock, s = { r with lock }) → SameFrame r s := by
    rintro _ ⟨lock, rfl⟩
    exact ⟨⟨rfl, rfl, rfl⟩, rfl⟩
  cases call with
  | create d length =>
    refine sameFrame_of_ok (r.create length) (fun _ _ => create_eq_error) fun attempt r' h => ?_
    cases attempt with
    | done key =>
      obtain ⟨records, -, -, -, rfl⟩ := create_eq_done h
      exact ⟨⟨rfl, rfl, rfl⟩, rfl⟩
    | panicked p =>
      obtain ⟨used, rfl⟩ := used_of_panicked h
      exact ⟨⟨rfl, rfl, rfl⟩, rfl⟩
  | delete d rec =>
    refine sameFrame_of_ok (r.delete rec.key)
      (fun _ _ h => (delete_eq_error_iff.1 h).2.2) fun _ r' h => ?_
    obtain ⟨old, records, -, rfl⟩ := delete_eq_ok h
    exact ⟨⟨rfl, rfl, rfl⟩, rfl⟩
  | set d rec index value =>
    refine sameFrame_of_ok (r.set rec.key index value) (fun _ _ => set_eq_error) fun _ r' h => ?_
    obtain ⟨old, field, -, -, -, rfl⟩ := set_eq_ok h
    exact ⟨⟨rfl, rfl, rfl⟩, rfl⟩
  | buildQuery d template conditions limit =>
    refine sameFrame_of_ok
      (r.buildQuery db.connection (template.map RecordHandle.key) conditions limit)
      (fun _ _ => buildQuery_eq_error) fun key r' h => ?_
    obtain ⟨plan, queries, -, -, rfl⟩ := buildQuery_eq_ok h
    exact ⟨⟨rfl, rfl, rfl⟩, rfl⟩
  | fetch d query =>
    refine sameFrame_of_ok (r.fetch db.connection query.key) (fun _ _ => fetch_eq_error)
      fun row r' h => ?_
    obtain ⟨cursor, -, -, -, rfl⟩ := fetch_eq_ok h
    exact ⟨⟨rfl, rfl, rfl⟩, rfl⟩
  | freeQuery d query =>
    refine sameFrame_of_ok (r.freeQuery db.connection query.key)
      (fun _ _ => freeQuery_eq_error) fun _ r' h => ?_
    obtain ⟨cursor, queries, -, -, rfl⟩ := freeQuery_eq_ok h
    exact ⟨⟨rfl, rfl, rfl⟩, rfl⟩
  | startLock d mode => exact hlock (r.startLock_snd mode)
  | resumeLock d mode => exact hlock (r.resumeLock_snd mode)
  | tryLock d mode => exact hlock (r.tryLock_snd mode)
  | endLock d token mode => exact hlock (r.endLock_snd token mode)
  | _ => exact .refl r

end Region

namespace Engine

variable {e e' : Engine} {call : Call} {db : DbHandle} {place : Nat} {r r' : Region}
variable {answer : Except Error Reply}

/-- The handle that an answer gives out, if it answers an opening. -/
def opened? : Except Error Reply → Option DbHandle
  | .ok (.database db) => some db
  | _ => none

/-- An answer of another form gives out no handle. -/
theorem opened?_map {α : Type} {f : α → Reply} (hf : ∀ a db, f a ≠ .database db)
    (answer : Except Error α) : opened? (answer.map f) = none := by
  cases answer with
  | error err => rfl
  | ok a =>
    cases h : f a with
    | database db => exact absurd h (hf a db)
    | _ => simp only [Except.map, h, opened?]

/-- A region gives out no handles of databases. -/
theorem opened?_serve (r : Region) (db : DbHandle) (call : Call) :
    opened? (r.serve db call).1 = none := by
  have htoken : ∀ answer, opened? (Except.map Reply.token answer) = none := opened?_map nofun
  cases call with
  | startLock d mode => exact htoken (r.startLock mode).1
  | resumeLock d mode => exact htoken (r.resumeLock mode).1
  | tryLock d mode => exact htoken (r.tryLock mode).1
  | create | next | delete | length | set | get | buildQuery | fetch | freeQuery | endLock =>
    exact opened?_map (by nofun) _
  | _ => rfl

/-- The engine with a new connection attached to the region at a place. -/
def join (e : Engine) (place : Nat) (r : Region) : Engine := (e.attach place r).2

/-- The engine with a new region and a new connection attached to it. A region with a name is
registered under it. -/
def found (e : Engine) (name : Option String) (capacity : Nat) : Engine :=
  { e with
    regions := e.regions.push (Region.fresh e.nextRegion name capacity).attach
    named := match name with
      | none => e.named
      | some name => e.named.insert name e.regions.size
    attachments := e.attachments.insert e.nextConnection e.regions.size
    nextRegion := e.nextRegion.next
    nextConnection := e.nextConnection.next }

theorem attachments_join (e : Engine) (place : Nat) (r : Region) :
    (e.join place r).attachments = e.attachments.insert e.nextConnection place := rfl

theorem attachments_found (e : Engine) (name : Option String) (capacity : Nat) :
    (e.found name capacity).attachments =
      e.attachments.insert e.nextConnection e.regions.size := rfl

/-- The name of the region that an opening makes, if it makes one. -/
def newName (e : Engine) (asked : Option String) (isLocal : Bool) : Option String :=
  if isLocal then none else some (e.settings.effectiveName asked)

/-- **What a call does to the registry and the attachments.** -/
inductive Upkeep (e : Engine) (call : Call) : Except Error Reply → Engine → Prop where
  /-- Nothing changes: a call for the upkeep that was refused, or a question. -/
  | same {answer : Except Error Reply}
      (h : call.isUpkeep = true → ∃ err, answer = .error err) (hreply : opened? answer = none) :
      Upkeep e call answer e
  /-- The contents or the lock of a region may change. -/
  | inside {answer : Except Error Reply} {db : DbHandle} {place : Nat} {r r' : Region}
      (hkind : call.isUpkeep = false) (hr : e.resolve db = .ok (place, r))
      (hframe : Region.SameFrame r r') (hreply : opened? answer = none) :
      Upkeep e call answer (e.putRegion place r')
  /-- A connection was attached to the region registered under a name. -/
  | joined {asked : Option String} {size : Nat} {place : Nat} {r : Region}
      (hcall : call = .openDatabase asked size false)
      (hr : e.registered? (e.settings.effectiveName asked) = some (place, r)) :
      Upkeep e call (.ok (.database ⟨r.id, e.nextConnection, r.isLocal⟩)) (e.join place r)
  /-- A connection was attached to a region that was made for it. -/
  | founded {asked : Option String} {size : Nat} {isLocal : Bool}
      (hcall : call = .openDatabase asked size isLocal)
      (hnew : isLocal = false → e.registered? (e.settings.effectiveName asked) = none)
      (hsize : e.settings.minRegionSize ≤ e.settings.effectiveSize size) :
      Upkeep e call (.ok (.database ⟨e.nextRegion, e.nextConnection, isLocal⟩))
        (e.found (e.newName asked isLocal) (e.settings.effectiveSize size))
  /-- A name was taken out of the registry. -/
  | unregistered {asked : Option String} (hcall : call = .deleteDatabase asked) :
      Upkeep e call (.ok .done)
        { e with named := e.named.erase (e.settings.effectiveName asked) }
  /-- An attachment was ended, by the call that the region asks for. -/
  | released {db : DbHandle} {place : Nat} {r : Region}
      (hcall : call = if r.isLocal then .deleteLocal db else .detach db)
      (hr : e.resolve db = .ok (place, r)) :
      Upkeep e call (.ok .done) (e.release db.connection place r)

/-- A connection that is attached to a region made for it. -/
theorem join_made (e : Engine) (name : Option String) (capacity : Nat)
    (named : Directory String Nat) :
    { (e.makeRegion name capacity).2 with named }.join e.regions.size
        (Region.fresh e.nextRegion name capacity) =
      { e.found name capacity with named } := by
  have hregions := @attach_made e name capacity
  simp only [join, attach, putRegion, makeRegion, found, Engine.mk.injEq] at hregions ⊢
  exact ⟨trivial, hregions, trivial, trivial, trivial, trivial⟩

section Opening

variable {size : Nat} (hsize : e.settings.minRegionSize ≤ e.settings.effectiveSize size)
include hsize

/-- **The opening of a local database** makes a region. -/
theorem openDatabase_own (asked : Option String) :
    e.openDatabase asked size true =
      (.ok ⟨e.nextRegion, e.nextConnection, true⟩,
        e.found none (e.settings.effectiveSize size)) := by
  simp only [openDatabase, if_neg (Nat.not_lt.2 hsize)]
  exact Prod.ext rfl (e.join_made none (e.settings.effectiveSize size) e.named)

/-- **The opening of a shared database** finds the region that is registered. -/
theorem openDatabase_registered {asked : Option String}
    (h : e.registered? (e.settings.effectiveName asked) = some (place, r)) :
    e.openDatabase asked size false =
      (.ok ⟨r.id, e.nextConnection, r.isLocal⟩, e.join place r) := by
  simp only [openDatabase, if_neg (Nat.not_lt.2 hsize), Bool.false_eq_true, if_false, shared, h]
  rfl

/-- **The opening of a shared database** makes and registers a region where there is none. -/
theorem openDatabase_unregistered {asked : Option String}
    (h : e.registered? (e.settings.effectiveName asked) = none) :
    e.openDatabase asked size false =
      (.ok ⟨e.nextRegion, e.nextConnection, false⟩,
        e.found (some (e.settings.effectiveName asked)) (e.settings.effectiveSize size)) := by
  simp only [openDatabase, if_neg (Nat.not_lt.2 hsize), Bool.false_eq_true, if_false, shared, h]
  exact Prod.ext rfl (e.join_made (some (e.settings.effectiveName asked)) _
    (e.named.insert (e.settings.effectiveName asked) e.regions.size))

end Opening

/-- **An opening** is refused, or joins a region that is registered, or founds one. -/
theorem openDatabase_cases (e : Engine) (asked : Option String) (size : Nat) (isLocal : Bool) :
    (∃ err, e.openDatabase asked size isLocal = (.error err, e)) ∨
      (∃ place r, isLocal = false ∧
        e.registered? (e.settings.effectiveName asked) = some (place, r) ∧
        e.openDatabase asked size isLocal =
          (.ok ⟨r.id, e.nextConnection, r.isLocal⟩, e.join place r)) ∨
      ((isLocal = false → e.registered? (e.settings.effectiveName asked) = none) ∧
        e.settings.minRegionSize ≤ e.settings.effectiveSize size ∧
        e.openDatabase asked size isLocal =
          (.ok ⟨e.nextRegion, e.nextConnection, isLocal⟩,
            e.found (e.newName asked isLocal) (e.settings.effectiveSize size))) := by
  by_cases hsize : e.settings.effectiveSize size < e.settings.minRegionSize
  · refine .inl ⟨.invalidArgument (.regionTooSmall (e.settings.effectiveSize size)
      e.settings.minRegionSize), ?_⟩
    simp only [openDatabase, if_pos hsize]
  · have hsize := Nat.le_of_not_lt hsize
    cases isLocal with
    | true => exact .inr (.inr ⟨fun h => Bool.noConfusion h, hsize, openDatabase_own hsize asked⟩)
    | false =>
      cases hreg : e.registered? (e.settings.effectiveName asked) with
      | some found =>
        exact .inr (.inl ⟨found.1, found.2, rfl, rfl, openDatabase_registered hsize hreg⟩)
      | none =>
        exact .inr (.inr ⟨fun _ => rfl, hsize, openDatabase_unregistered hsize hreg⟩)

theorem upkeep_openDatabase (e : Engine) (asked : Option String) (size : Nat) (isLocal : Bool) :
    Upkeep e (.openDatabase asked size isLocal)
      (e.perform (.openDatabase asked size isLocal)).1
      (e.perform (.openDatabase asked size isLocal)).2 := by
  simp only [perform, reword]
  rcases e.openDatabase_cases asked size isLocal with
    ⟨err, h⟩ | ⟨place, r, rfl, hreg, h⟩ | ⟨hnew, hsize, h⟩
  · rw [h]
    exact .same (fun _ => ⟨err, rfl⟩) rfl
  · rw [h]
    exact .joined rfl hreg
  · rw [h]
    exact .founded rfl hnew hsize

/-- **Every call does one of these.** -/
theorem upkeep_perform (e : Engine) (call : Call) :
    Upkeep e call (e.perform call).1 (e.perform call).2 := by
  cases hkind : call.isUpkeep with
  | false =>
    have hquiet {answer : Except Error Reply} :
        call.isUpkeep = true → ∃ err, answer = .error err := fun h => by simp [hkind] at h
    cases hhandle : call.handle? with
    | none =>
      -- Three calls are left, and they are questions.
      cases call <;> simp only [Call.handle?, reduceCtorEq] at hhandle <;>
        first | exact .same hquiet rfl | cases hkind
    | some db =>
      rw [perform_eq hhandle (Call.isDetaching_of_isUpkeep hkind)]
      cases e.precheck call with
      | error err => exact .same hquiet rfl
      | ok =>
        simp only [onRegion]
        cases hr : e.resolve db with
        | error err => exact .same hquiet rfl
        | ok found =>
          exact .inside hkind hr (found.2.serve_sameFrame db call) (opened?_serve found.2 db call)
  | true =>
    cases call <;> simp only [Call.isUpkeep, Bool.false_eq_true] at hkind
    case openDatabase asked size isLocal => exact upkeep_openDatabase e asked size isLocal
    case deleteDatabase asked =>
      simp only [perform, reword, deleteDatabase]
      split
      · exact .unregistered rfl
      · exact .same (fun _ => ⟨_, rfl⟩) rfl
    case deleteLocal db =>
      simp only [perform, reword, deleteLocal]
      split
      · exact .same (fun _ => ⟨_, rfl⟩) rfl
      · rename_i place r hr
        split
        · rename_i hlocal
          exact .released (by rw [if_pos hlocal]) hr
        · exact .same (fun _ => ⟨_, rfl⟩) rfl
    case detach db =>
      simp only [perform, reword, detach]
      split
      · exact .same (fun _ => ⟨_, rfl⟩) rfl
      · rename_i place r hr
        split
        · exact .same (fun _ => ⟨_, rfl⟩) rfl
        · rename_i hlocal
          exact .released (by rw [if_neg hlocal]) hr

end Engine

end RecordStore
