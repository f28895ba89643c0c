import RecordStore.Proofs.Engine.Attachments
import RecordStore.Proofs.Query.Isolation
import RecordStore.Proofs.Records.Changes
/-!
# Owners — whose queries a region holds

A live query belongs to the connection that built it, and that connection is
attached to the region (`Owned`): queries come and go through an attachment
to their region, and none is left when the attachment ends.
-/

namespace RecordStore

namespace Region

variable {r r' : Region} {key other : SlotKey} {connection : ConnectionId} {db : DbHandle}
variable {call : Call}

/-- The connection that a live query belongs to. -/
def owner? (r : Region) (key : SlotKey) : Option ConnectionId :=
  (r.queries.get? key).map Cursor.connection

theorem owner?_congr (h : r'.queries = r.queries) : r'.owner? = r.owner? := by
  funext key
  rw [owner?, owner?, h]

theorem owner?_eq_some_iff :
    r.owner? key = some connection ↔
      ∃ cursor, r.queries.get? key = some cursor ∧ cursor.connection = connection :=
  Option.map_eq_some_iff

/-- A fetch moves a cursor, which stays with its owner. -/
theorem owner?_fetch (r : Region) (connection : ConnectionId) (key : SlotKey) :
    (r.fetch connection key).2.owner? = r.owner? := by
  cases hfetch : r.fetch connection key with
  | mk answer r' =>
    cases answer with
    | error err => rw [fetch_eq_error hfetch]
    | ok row =>
      obtain ⟨cursor, hget, -, -, rfl⟩ := fetch_eq_ok hfetch
      funext other
      have hmoved : (cursor.advance r.records.contains).2.connection = cursor.connection := rfl
      simp only [owner?, SlotTable.get?_replace hget]
      split
      · rename_i hkey
        rw [hkey, hget, Option.map_some, Option.map_some, hmoved]
      · rfl

/-- **A query that is built** is new, and belongs to the connection that built it. -/
theorem owner?_buildQuery (hc : r.Coherent) {template : Option SlotKey}
    {conditions : List Condition} {limit : Nat}
    (h : r.buildQuery connection template conditions limit = (.ok key, r')) (other : SlotKey) :
    r.owner? key = none ∧
      r'.owner? other = if other = key then some connection else r.owner? other := by
  obtain ⟨plan, queries, -, hins, rfl⟩ := buildQuery_eq_ok h
  have hw := hc.queries.toWellFormed
  have hfresh : r.queries.get? key = none := SlotTable.get?_of_slot_insert hw hins rfl
  refine ⟨by rw [owner?, hfresh, Option.map_none], ?_⟩
  simp only [owner?, SlotTable.get?_insert hw hins]
  split <;> rfl

/-- **A query that is freed** belonged to the connection that freed it. -/
theorem owner?_freeQuery (h : r.freeQuery connection key = (.ok (), r')) (other : SlotKey) :
    r.owner? key = some connection ∧
      r'.owner? other = if other = key then none else r.owner? other := by
  obtain ⟨cursor, queries, hrem, hconnection, rfl⟩ := freeQuery_eq_ok h
  have hget := (SlotTable.remove?_eq_some_iff.1 hrem).1
  refine ⟨owner?_eq_some_iff.2 ⟨cursor, hget, hconnection⟩, ?_⟩
  simp only [owner?, SlotTable.get?_remove hrem]
  split <;> rfl

/-- **A detachment** frees what the connection owns. -/
theorem owner?_detach (r : Region) (connection : ConnectionId) (key : SlotKey) :
    (r.detach connection).owner? key = (r.owner? key).filter fun c => c ≠ connection := by
  rw [detach_eq]
  simp only [owner?, SlotTable.get?_drain]
  cases r.queries.get? key with
  | none => rfl
  | some cursor =>
    by_cases hc : cursor.connection = connection <;> simp [Option.filter, hc]

/-- An operation that changes nothing when it fails keeps what it keeps when it succeeds. -/
theorem owner?_of_ok {α : Type} (result : Except Error α × Region)
    (herr : ∀ err r', result = (.error err, r') → r' = r)
    (hok : ∀ a r', result = (.ok a, r') →
      ∀ c, r'.owner? key = some c → c = connection ∨ r.owner? key = some c)
    {c : ConnectionId} (h : result.2.owner? key = some c) :
    c = connection ∨ r.owner? key = some c := by
  obtain ⟨answer, r'⟩ := result
  cases answer with
  | error err =>
    rw [herr err r' rfl] at h
    exact .inr h
  | ok a => exact hok a r' rfl c h

/-- **A call brings queries only to the connection that it is made through.** -/
theorem owner?_serve (hc : r.Coherent) {c : ConnectionId}
    (h : (r.serve db call).2.owner? key = some c) :
    c = db.connection ∨ r.owner? key = some c := by
  have hsame : ∀ {r' : Region}, r'.queries = r.queries → r'.owner? key = some c →
      c = db.connection ∨ r.owner? key = some c :=
    fun hqueries h => .inr (owner?_congr hqueries ▸ h)
  cases call with
  | create d length => exact hsame (r.queries_create length) h
  | delete d rec => exact hsame (r.queries_delete rec.key) h
  | set d rec index value => exact hsame (r.queries_set rec.key index value) h
  | buildQuery d template conditions limit =>
    refine owner?_of_ok (r.buildQuery db.connection (template.map RecordHandle.key) conditions
      limit) (fun _ _ => buildQuery_eq_error) (fun built r' hbuilt c' h' => ?_) h
    rw [(owner?_buildQuery hc hbuilt key).2] at h'
    split at h'
    · exact .inl (Option.some.inj h').symm
    · exact .inr h'
  | fetch d query => exact .inr (r.owner?_fetch db.connection query.key ▸ h)
  | freeQuery d query =>
    refine owner?_of_ok (r.freeQuery db.connection query.key) (fun _ _ => freeQuery_eq_error)
      (fun _ r' hfreed c' h' => ?_) h
    rw [(owner?_freeQuery hfreed key).2] at h'
    split at h'
    · cases h'
    · exact .inr h'
  | startLock d mode => exact hsame (queries_of_locked (r.startLock_snd mode)) h
  | resumeLock d mode => exact hsame (queries_of_locked (r.resumeLock_snd mode)) h
  | tryLock d mode => exact hsame (queries_of_locked (r.tryLock_snd mode)) h
  | endLock d token mode => exact hsame (queries_of_locked (r.endLock_snd token mode)) h
  | _ => exact .inr h

end Region

namespace Engine

variable {e e' : Engine} {call : Call} {calls : List Call} {place p given : Nat}
variable {r r' : Region} {key : SlotKey} {c : ConnectionId}

/-- The owner of a query in the region at a place. -/
def ownerAt (e : Engine) (place : Nat) (key : SlotKey) : Option ConnectionId :=
  e.regions[place]?.bind fun r => r.owner? key

theorem ownerAt_eq (hr : e.regions[place]? = some r) (key : SlotKey) :
    e.ownerAt place key = r.owner? key := by
  rw [ownerAt, hr, Option.bind_some]

theorem ownerAt_putRegion (hr : e.regions[place]? = some r) (p : Nat) (key : SlotKey) :
    (e.putRegion place r').ownerAt p key =
      if p = place then r'.owner? key else e.ownerAt p key := by
  have hput : (e.putRegion place r').regions[p]? = _ := getElem?_putRegion hr p
  rw [ownerAt, hput]
  split <;> rfl

/-- A region that keeps the owners of its queries. -/
theorem ownerAt_putRegion_same (hr : e.regions[place]? = some r) (howner : r'.owner? = r.owner?) :
    (e.putRegion place r').ownerAt = e.ownerAt := by
  funext p key
  rw [ownerAt_putRegion hr]
  split
  · rename_i hp
    rw [hp, ownerAt_eq hr, howner]
  · rfl

/-- A new region has no queries. -/
theorem ownerAt_found (e : Engine) (name : Option String) (capacity : Nat) :
    (e.found name capacity).ownerAt = e.ownerAt := by
  funext p key
  by_cases hp : p = e.regions.size
  · subst hp
    rw [ownerAt_eq (getElem?_found_self e name capacity), ownerAt,
      Array.getElem?_eq_none (Nat.le_refl _)]
    rfl
  · simp only [ownerAt, found, Array.getElem?_push, if_neg hp]

/-- **Queries belong to connections that are attached to their region.** -/
def Owned (e : Engine) : Prop :=
  ∀ p key c, e.ownerAt p key = some c → e.attachments.find? c = some p

theorem owned_start (settings : EngineSettings) : (start settings).Owned := by
  intro p key c h
  simp [ownerAt, start] at h

/-- A connection that is attached anew owned nothing before. -/
theorem Owned.insert (h : e.Owned) (hnew : e.attachments.find? e.nextConnection = none)
    (howner : e'.ownerAt = e.ownerAt)
    (hattachments : e'.attachments = e.attachments.insert e.nextConnection place) : e'.Owned := by
  intro p key c hc
  rw [howner] at hc
  have hp := h p key c hc
  rw [hattachments, Directory.find?_insert]
  split
  · rename_i heq
    rw [← heq, hnew] at hp
    cases hp
  · exact hp

/-- **What a call keeps**, as long as the numbers of connections last. -/
theorem Owned.perform (h : e.Owned) (hatt : Attached e given)
    (hc : ∀ (p : Nat) r, e.regions[p]? = some r → r.Coherent) (call : Call)
    (hfew : given + (opened? (e.perform call).1).toList.length < 2 ^ 64) :
    (e.perform call).2.Owned := by
  cases hkind : call.isUpkeep with
  | false =>
    cases hhandle : call.handle? with
    | none =>
      -- The calls that are left are questions.
      cases call <;> simp only [Call.handle?, reduceCtorEq] at hhandle <;>
        first | exact h | cases hkind
    | some db =>
      rw [perform_eq hhandle (Call.isDetaching_of_isUpkeep hkind)]
      cases e.precheck call with
      | error err => exact h
      | ok =>
        simp only [onRegion]
        cases hr : e.resolve db with
        | error err => exact h
        | ok found =>
          obtain ⟨place, r⟩ := found
          obtain ⟨hplace, hget, -⟩ := resolve_eq_ok_iff.1 hr
          intro p key c howner
          rw [ownerAt_putRegion hget] at howner
          split at howner
          · rename_i hp
            rcases Region.owner?_serve (hc place r hget) howner with rfl | hold
            · exact hp ▸ hplace
            · rw [hp]
              exact h place key c ((ownerAt_eq hget key).trans hold)
          · exact h p key c howner
  | true =>
    have hup := e.upkeep_perform call
    generalize (e.perform call).1 = answer, (e.perform call).2 = e' at hfew hup ⊢
    cases hup with
    | same => exact h
    | inside hother =>
      rw [hkind] at hother
      cases hother
    | joined _ hr =>
      exact h.insert (hatt.next_unattached hfew)
        (ownerAt_putRegion_same (registered?_eq_some hr) rfl) rfl
    | founded => exact h.insert (hatt.next_unattached hfew) (ownerAt_found e _ _) rfl
    | unregistered => exact h
    | @released db place r hcall hr =>
      obtain ⟨hplace, hget, -⟩ := resolve_eq_ok_iff.1 hr
      intro p key c howner
      have hput : (e.putRegion place (r.detach db.connection)).ownerAt p key = some c := howner
      rw [ownerAt_putRegion hget] at hput
      -- The connection owned queries in this region only, and they are gone.
      have hkept : c ≠ db.connection ∧ e.ownerAt p key = some c := by
        split at hput
        · rename_i hp
          rw [Region.owner?_detach, Option.filter_eq_some_iff] at hput
          exact ⟨of_decide_eq_true hput.2, hp ▸ (ownerAt_eq hget key).trans hput.1⟩
        · rename_i hp
          refine ⟨?_, hput⟩
          rintro rfl
          have hother := h p key _ hput
          rw [hplace, Option.some.injEq] at hother
          exact hp hother.symm
      exact (Directory.find?_erase _ _ _).trans
        ((if_neg hkept.1.symm).trans (h p key c hkept.2))

/-- **Every query of every run** belongs to a connection that is attached to its region. -/
theorem Owned.run (h : e.Owned) (hatt : Attached e given)
    (hc : ∀ (p : Nat) r, e.regions[p]? = some r → r.Coherent)
    (hfew : given + (e.handles calls).length < 2 ^ 64) : (e.run calls).Owned := by
  induction calls generalizing e given with
  | nil => exact h
  | cons call calls ih =>
    simp only [handles, List.length_append, ← Nat.add_assoc] at hfew
    exact ih (h.perform hatt hc call (by omega)) (hatt.perform call (by omega))
      (coherent_perform hc call) hfew

end Engine

end RecordStore
