import RecordStore.Proofs.Records.Changes
/-!
# Isolation — a query among other calls

A call leaves an attachment alone if it does not end it (`Call.Leaves`), and
it leaves a query alone if moreover it is not about the query
(`Call.Spares`). After such a call the engine still offers the query, with
the same cursor (`Offers.other`). And of all calls only those that create
and delete records change what is live (`isLive_perform`).
-/

namespace RecordStore

namespace Call

/-- The query that a call fetches from or frees. -/
def query? : Call → Option QueryHandle
  | .fetch _ query | .freeQuery _ query => some query
  | _ => none

/-- **The call leaves an attachment alone**: it does not end it, and the connection that it opens
is another one. -/
def Leaves (call : Call) (e : Engine) (c : ConnectionId) : Prop :=
  match call with
  | .detach db | .deleteLocal db => db.connection ≠ c
  | .openDatabase _ _ _ => e.nextConnection ≠ c
  | _ => True

/-- **The call leaves the query alone**: it does not fetch from the query or free it, it does
not end the attachment of the connection, and the connection it opens is another one. -/
def Spares (call : Call) (e : Engine) (q : QueryHandle) : Prop :=
  match call with
  | .fetch _ query | .freeQuery _ query => query ≠ q
  | .detach db | .deleteLocal db => db.connection ≠ q.connection
  | .openDatabase _ _ _ => e.nextConnection ≠ q.connection
  | _ => True

variable {call : Call} {e : Engine} {q query : QueryHandle} {db : DbHandle} {c : ConnectionId}

/-- A call that spares a query does not use it. -/
theorem Spares.query_ne (h : call.Spares e q) (hquery : call.query? = some query) : query ≠ q := by
  cases call <;> simp only [query?, Option.some.injEq, reduceCtorEq] at hquery
  all_goals
    subst hquery
    exact h

theorem Leaves.connection_ne (h : call.Leaves e c) (hhandle : call.handle? = some db)
    (hends : call.isDetaching = true) : db.connection ≠ c := by
  cases call <;> simp only [isDetaching, Bool.false_eq_true] at hends
  all_goals
    simp only [handle?, Option.some.injEq] at hhandle
    subst hhandle
    exact h

/-- A call that spares a query leaves its attachment alone. -/
theorem Spares.leaves (h : call.Spares e q) : call.Leaves e q.connection := by
  cases call <;> first | exact h | exact trivial

/-- A query that a call uses has passed its check. -/
theorem checkQuery_of_precheck (hhandle : call.handle? = some db)
    (hquery : call.query? = some query) (hcheck : e.precheck call = .ok ()) :
    Engine.checkQuery db query = .ok () := by
  cases call <;> simp only [query?, Option.some.injEq, reduceCtorEq] at hquery
  all_goals
    simp only [handle?, Option.some.injEq] at hhandle
    subst hquery hhandle
    exact hcheck

end Call

namespace Region

variable {r : Region} {db : DbHandle} {key : SlotKey} {cursor : Cursor} {call : Call}

/-! ## What does not concern queries -/

theorem queries_create (r : Region) (length : Nat) : (r.create length).2.queries = r.queries := by
  have hcreation := r.creation length
  generalize (r.create length).1 = answer, (r.create length).2 = r' at hcreation
  cases hcreation <;> rfl

theorem queries_delete (r : Region) (key : SlotKey) : (r.delete key).2.queries = r.queries := by
  unfold delete
  split <;> rfl

theorem queries_set (r : Region) (key : SlotKey) (index : Nat) (value : FieldValue) :
    (r.set key index value).2.queries = r.queries := by
  rw [set_eq]
  split
  · rfl
  · split
    · rfl
    · split <;> rfl

theorem queries_of_locked {r' : Region} (h : ∃ lock, r' = { r with lock }) :
    r'.queries = r.queries := by
  obtain ⟨lock, rfl⟩ := h
  rfl

/-! ## What does not concern this query -/

theorem get?_buildQuery (hc : r.Coherent) (h : r.queries.get? key = some cursor)
    (connection : ConnectionId) (template : Option SlotKey) (conditions : List Condition)
    (limit : Nat) :
    (r.buildQuery connection template conditions limit).2.queries.get? key = some cursor := by
  cases hbuild : r.buildQuery connection template conditions limit with
  | mk answer r' =>
    cases answer with
    | error err => rw [buildQuery_eq_error hbuild, h]
    | ok built =>
      -- The new query goes into a slot that was empty, so its key is another one.
      obtain ⟨plan, queries, -, hins, rfl⟩ := buildQuery_eq_ok hbuild
      have hw := hc.queries.toWellFormed
      have hfresh : r.queries.get? built = none := SlotTable.get?_of_slot_insert hw hins rfl
      have hne : key ≠ built := by
        rintro rfl
        rw [h] at hfresh
        cases hfresh
      exact (SlotTable.get?_insert hw hins).trans ((if_neg hne).trans h)

/-- A fetch on behalf of another connection, or from another query. -/
theorem get?_fetch (h : r.queries.get? key = some cursor) {connection : ConnectionId}
    {other : SlotKey} (hother : cursor.connection = connection → other ≠ key) :
    (r.fetch connection other).2.queries.get? key = some cursor := by
  cases hfetch : r.fetch connection other with
  | mk answer r' =>
    cases answer with
    | error err => rw [fetch_eq_error hfetch, h]
    | ok row =>
      obtain ⟨found, hfound, hconnection, -, rfl⟩ := fetch_eq_ok hfetch
      have hne : key ≠ other := by
        rintro rfl
        rw [h, Option.some.injEq] at hfound
        subst hfound
        exact hother hconnection rfl
      exact (SlotTable.get?_replace hfound).trans ((if_neg hne).trans h)

theorem get?_freeQuery (h : r.queries.get? key = some cursor) {connection : ConnectionId}
    {other : SlotKey} (hother : cursor.connection = connection → other ≠ key) :
    (r.freeQuery connection other).2.queries.get? key = some cursor := by
  cases hfree : r.freeQuery connection other with
  | mk answer r' =>
    cases answer with
    | error err => rw [freeQuery_eq_error hfree, h]
    | ok =>
      obtain ⟨found, queries, hrem, hconnection, rfl⟩ := freeQuery_eq_ok hfree
      have hfound := (SlotTable.remove?_eq_some_iff.1 hrem).1
      have hne : key ≠ other := by
        rintro rfl
        rw [h, Option.some.injEq] at hfound
        subst hfound
        exact hother hconnection rfl
      exact (SlotTable.get?_remove hrem).trans ((if_neg hne).trans h)

/-- The query stays where it is when another connection detaches. -/
theorem get?_detach (h : r.queries.get? key = some cursor) {connection : ConnectionId}
    (hother : cursor.connection ≠ connection) :
    (r.detach connection).queries.get? key = some cursor := by
  rw [detach_eq]
  simp only [SlotTable.get?_drain, h, Option.filter_some, hother, decide_false, Bool.not_false,
    if_true]

/-- **A region that serves another call leaves the query alone.** -/
theorem get?_serve (hc : r.Coherent) (h : r.queries.get? key = some cursor)
    (hother : ∀ query, call.query? = some query → cursor.connection = db.connection →
      query.key ≠ key) :
    (r.serve db call).2.queries.get? key = some cursor := by
  have hsame : ∀ {r' : Region}, r'.queries = r.queries → r'.queries.get? key = some cursor :=
    fun hqueries => hqueries ▸ h
  cases call with
  | create d length => exact hsame (r.queries_create length)
  | delete d rec => exact hsame (r.queries_delete rec.key)
  | set d rec index value => exact hsame (r.queries_set rec.key index value)
  | buildQuery d template conditions limit => exact get?_buildQuery hc h _ _ _ _
  | fetch d query => exact get?_fetch h (hother query rfl)
  | freeQuery d query => exact get?_freeQuery h (hother query rfl)
  | startLock d mode => exact hsame (queries_of_locked (r.startLock_snd mode))
  | resumeLock d mode => exact hsame (queries_of_locked (r.resumeLock_snd mode))
  | tryLock d mode => exact hsame (queries_of_locked (r.tryLock_snd mode))
  | endLock d token mode => exact hsame (queries_of_locked (r.endLock_snd token mode))
  | _ => exact h

/-! ## What does not change what is live -/

theorem contains_set (r : Region) (key other : SlotKey) (index : Nat) (value : FieldValue) :
    (r.set key index value).2.records.contains other = r.records.contains other := by
  rw [set_eq]
  cases hrec : r.records.get? key with
  | none => rfl
  | some rec =>
    simp only
    split
    · rfl
    · split
      · rfl
      · simp only [SlotTable.contains, SlotTable.get?_replace hrec]
        split
        · rename_i hkey
          rw [hkey, hrec]
          rfl
        · rfl

theorem records_buildQuery (r : Region) (connection : ConnectionId) (template : Option SlotKey)
    (conditions : List Condition) (limit : Nat) :
    (r.buildQuery connection template conditions limit).2.records = r.records := by
  cases hbuild : r.buildQuery connection template conditions limit with
  | mk answer r' =>
    cases answer with
    | error err => rw [buildQuery_eq_error hbuild]
    | ok built =>
      obtain ⟨plan, queries, -, -, rfl⟩ := buildQuery_eq_ok hbuild
      rfl

theorem records_fetch (r : Region) (connection : ConnectionId) (key : SlotKey) :
    (r.fetch connection key).2.records = r.records := by
  unfold fetch
  split <;> rfl

theorem records_freeQuery (r : Region) (connection : ConnectionId) (key : SlotKey) :
    (r.freeQuery connection key).2.records = r.records := by
  unfold freeQuery
  split
  · rfl
  · split <;> rfl

theorem records_of_locked {r' : Region} (h : ∃ lock, r' = { r with lock }) :
    r'.records = r.records := by
  obtain ⟨lock, rfl⟩ := h
  rfl

/-- **Only the creation and deletion of records change what is live.** -/
theorem contains_serve (hcreate : ∀ d length, call ≠ .create d length)
    (hdelete : ∀ d rec, call ≠ .delete d rec) (other : SlotKey) :
    (r.serve db call).2.records.contains other = r.records.contains other := by
  have hsame : ∀ {r' : Region}, r'.records = r.records →
      r'.records.contains other = r.records.contains other := fun hrecords => by rw [hrecords]
  cases call with
  | create d length => exact absurd rfl (hcreate d length)
  | delete d rec => exact absurd rfl (hdelete d rec)
  | set d rec index value => exact r.contains_set rec.key other index value
  | buildQuery d template conditions limit => exact hsame (r.records_buildQuery _ _ _ _)
  | fetch d query => exact hsame (r.records_fetch _ _)
  | freeQuery d query => exact hsame (r.records_freeQuery _ _)
  | startLock d mode => exact hsame (records_of_locked (r.startLock_snd mode))
  | resumeLock d mode => exact hsame (records_of_locked (r.resumeLock_snd mode))
  | tryLock d mode => exact hsame (records_of_locked (r.tryLock_snd mode))
  | endLock d token mode => exact hsame (records_of_locked (r.endLock_snd token mode))
  | _ => rfl

end Region

namespace Engine

variable {e e' : Engine} {db : DbHandle} {place : Nat} {key : SlotKey} {cursor : Cursor}
variable {call : Call} {r : Region} {c : ConnectionId}

/-! ## What is live in an engine -/

/-- Whether a record is live in the region at a place. -/
def isLive (e : Engine) (place : Nat) (key : SlotKey) : Bool :=
  e.regions[place]?.any fun r => r.records.contains key

theorem isLive_eq (h : e.regions[place]? = some r) : e.isLive place = r.records.contains := by
  funext key
  simp only [isLive, h, Option.any_some]

theorem isLive_congr (h : e'.regions[place]? = e.regions[place]?) :
    e'.isLive place = e.isLive place := by
  funext key
  simp only [isLive, h]

theorem isLive_putRegion {p : Nat} {r' : Region} (h : e.regions[p]? = some r)
    (hsame : r'.records.contains = r.records.contains) :
    (e.putRegion p r').isLive place = e.isLive place := by
  have hput : (e.putRegion p r').regions[place]? = _ := getElem?_putRegion h place
  by_cases hp : place = p
  · subst hp
    rw [if_pos rfl] at hput
    rw [isLive_eq hput, isLive_eq h, hsame]
  · rw [if_neg hp] at hput
    exact isLive_congr hput

/-- **Only the creation and deletion of records change what is live**, of all calls. -/
theorem isLive_perform (hcreate : ∀ d length, call ≠ .create d length)
    (hdelete : ∀ d rec, call ≠ .delete d rec) :
    (e.perform call).2.isLive place = e.isLive place := by
  have hout := e.outcome_perform call
  generalize (e.perform call).1 = answer, (e.perform call).2 = e' at hout ⊢
  cases hout with
  | refused err => rfl
  | aside _ hregions => exact isLive_congr (by rw [hregions])
  | @joined _ _ _ _ p r _ hr hregions =>
    have hput : e'.isLive place = (e.putRegion p r.attach).isLive place :=
      isLive_congr (by rw [hregions])
    exact hput.trans (isLive_putRegion hr rfl)
  | founded i name capacity _ hregions =>
    by_cases hp : place = e.regions.size
    · -- The new region has no records, and there was none at its place before.
      funext key
      simp only [isLive, hregions, hp, Array.getElem?_push_size, Option.any_some,
        Array.getElem?_eq_none (Nat.le_refl _), Option.any_none]
      simp [Region.fresh, Region.attach, SlotTable.contains, SlotTable.get?, SlotTable.slot?]
    · refine isLive_congr ?_
      rw [hregions, Array.getElem?_push, if_neg hp]
  | released _ _ hr => exact isLive_putRegion (getElem?_of_resolve hr) rfl
  | served _ _ _ hr =>
    exact isLive_putRegion (getElem?_of_resolve hr)
      (funext fun key => Region.contains_serve hcreate hdelete key)

/-! ## The query stays what it is -/

/-- **The engine offers a query**: the handle stands for the region at a place, and the cursor
is there under the key and belongs to the handle's connection. -/
def Offers (e : Engine) (place : Nat) (db : DbHandle) (key : SlotKey) (cursor : Cursor) : Prop :=
  ∃ r, e.resolve db = .ok (place, r) ∧ r.Coherent ∧ r.queries.get? key = some cursor ∧
    cursor.connection = db.connection

theorem resolve_congr (hregions : e'.regions[place]? = e.regions[place]?)
    (hattachments : e'.attachments.find? db.connection = e.attachments.find? db.connection)
    (h : e.resolve db = .ok (place, r)) : e'.resolve db = .ok (place, r) := by
  obtain ⟨hplace, hr, hid⟩ := resolve_eq_ok_iff.1 h
  exact resolve_eq_ok_iff.2 ⟨hattachments.trans hplace, hregions.trans hr, hid⟩

/-- The query is still offered where a region was put back, if that is another region or one
that still has the cursor. -/
theorem Offers.put {p : Nat} {r₀ r' : Region} (h : e.Offers place db key cursor)
    (hr₀ : e.regions[p]? = some r₀) (hregions : e'.regions = (e.putRegion p r').regions)
    (hattachments : e'.attachments.find? db.connection = e.attachments.find? db.connection)
    (hafter : e.resolve db = .ok (p, r₀) → r₀.Coherent → r₀.queries.get? key = some cursor →
      r'.id = r₀.id ∧ r'.Coherent ∧ r'.queries.get? key = some cursor) :
    e'.Offers place db key cursor := by
  obtain ⟨r, hresolve, hcoherent, hget, hconnection⟩ := h
  obtain ⟨hplace, hr, hdb⟩ := resolve_eq_ok_iff.1 hresolve
  have hput : e'.regions[place]? = if place = p then some r' else e.regions[place]? := by
    rw [hregions]
    exact getElem?_putRegion hr₀ place
  by_cases hp : place = p
  · subst hp
    rw [hr₀, Option.some.injEq] at hr
    subst hr
    rw [if_pos rfl] at hput
    obtain ⟨hid, hcoherent, hget⟩ := hafter hresolve hcoherent hget
    exact ⟨r', resolve_eq_ok_iff.2 ⟨hattachments.trans hplace, hput, hid.trans hdb⟩, hcoherent,
      hget, hconnection⟩
  · rw [if_neg hp] at hput
    exact ⟨r, resolve_congr hput hattachments hresolve, hcoherent, hget, hconnection⟩

/-- A query of the same attachment that is not the one under a key has another key. -/
theorem key_ne_of_ne {d : DbHandle} {query : QueryHandle} (hcheck : checkQuery d query = .ok ())
    (hne : query ≠ db.query key) (hregion : d.region = db.region)
    (hconnection : d.connection = db.connection) : query.key ≠ key := by
  rintro rfl
  unfold checkQuery at hcheck
  split at hcheck
  · rename_i hown
    apply hne
    obtain ⟨region, connection, k⟩ := query
    simp only [DbHandle.query, QueryHandle.mk.injEq, and_true]
    exact ⟨hown.1.trans hregion, hown.2.trans hconnection⟩
  · cases hcheck

/-- The attachment stays when a call leaves it alone. -/
theorem find?_perform_of_leaves (h : call.Leaves e c) :
    (e.perform call).2.attachments.find? c = e.attachments.find? c := by
  have hout := e.outcome_perform call
  generalize (e.perform call).1 = answer, (e.perform call).2 = e' at hout ⊢
  cases hout with
  | refused err => rfl
  | aside _ _ hattachments => rw [hattachments]
  | joined hcall _ _ hattachments =>
    subst hcall
    rw [hattachments, Directory.find?_insert, if_neg h]
  | founded _ _ _ hcall _ hattachments =>
    subst hcall
    rw [hattachments, Directory.find?_insert, if_neg h]
  | released hhandle hends =>
    exact (Directory.find?_erase _ _ _).trans (if_neg (h.connection_ne hhandle hends))
  | served => rfl

/-- **Another call leaves the query as it is.** -/
theorem Offers.other (h : e.Offers place db key cursor) (hspares : call.Spares e (db.query key)) :
    (e.perform call).2.Offers place db key cursor := by
  -- Wherever the call goes, the handle still resolves and the region there keeps the cursor.
  obtain ⟨r, hresolve, hcoherent, hget, hconnection⟩ := id h
  have hattached : (e.perform call).2.attachments.find? db.connection =
      e.attachments.find? db.connection := find?_perform_of_leaves hspares.leaves
  have hout := e.outcome_perform call
  generalize (e.perform call).1 = answer, (e.perform call).2 = e' at hout hattached ⊢
  cases hout with
  | refused err => exact h
  | aside _ hregions =>
    exact ⟨r, resolve_congr (by rw [hregions]) hattached hresolve, hcoherent, hget, hconnection⟩
  | joined _ hr hregions =>
    exact h.put hr hregions hattached fun _ hc hget =>
      ⟨rfl, hc.change (.attached : Region.Change 0 _ _), hget⟩
  | founded i name capacity _ hregions =>
    have hlt := (Array.getElem?_eq_some_iff.1 (getElem?_of_resolve hresolve)).1
    refine ⟨r, resolve_congr ?_ hattached hresolve, hcoherent, hget, hconnection⟩
    rw [hregions, Array.getElem?_push, if_neg (Nat.ne_of_lt hlt)]
  | @released d p r₀ hhandle hends hr =>
    have hother : d.connection ≠ db.connection := hspares.leaves.connection_ne hhandle hends
    refine h.put (getElem?_of_resolve hr) rfl hattached fun _ hc hget =>
      ⟨rfl, hc.change (.detached _ : Region.Change 0 _ _), Region.get?_detach hget ?_⟩
    rw [hconnection]
    exact hother.symm
  | @served d p r₀ hhandle hends hcheck hr =>
    have hchange := r₀.serve_change d (length_le_of_precheck hcheck)
    refine h.put (getElem?_of_resolve hr) rfl rfl fun hresolve' hc hget' =>
      ⟨hchange.id_eq, hc.change hchange, Region.get?_serve hc hget' fun query hquery hown => ?_⟩
    -- The handle of a query of this attachment differs from the query's only in the key.
    have hregion := (resolve_eq_ok_iff.1 hr).2.2.symm.trans (resolve_eq_ok_iff.1 hresolve').2.2
    exact key_ne_of_ne (Call.checkQuery_of_precheck hhandle hquery hcheck)
      (hspares.query_ne hquery) hregion (hown.symm.trans hconnection)

end Engine

end RecordStore
