import RecordStore.Proofs.Client.Usage
/-!
# Returns — what is given back when a connection is closed

A connection that is closed frees its queries, in whichever order, gives
back its locks and ends its attachment. Each of these steps concerns one
region, and takes nothing from it but what the connection obtained
(`Region.GivenBack`); that some of them fail makes no difference
(`outcome_closeIn`).
-/

namespace RecordStore

/-! ## A region -/

namespace Region

variable {r r' r'' : Region} {connection : ConnectionId} {key : SlotKey} {cursor : Cursor}
variable {tokens tokens' : List LockToken} {t : LockToken}

/-- The regions have the same records. -/
structure SameRecords (r r' : Region) : Prop where
  records : r'.records = r.records
  order : r'.order = r.order
  nextSeq : r'.nextSeq = r.nextSeq
  used : r'.used = r.used

theorem SameRecords.refl (r : Region) : SameRecords r r := ⟨rfl, rfl, rfl, rfl⟩

theorem SameRecords.trans (h : SameRecords r r') (h' : SameRecords r' r'') : SameRecords r r'' :=
  ⟨h'.records.trans h.records, h'.order.trans h.order, h'.nextSeq.trans h.nextSeq,
    h'.used.trans h.used⟩

/-- **The region after a connection gave things back**: queries of the connection may be gone,
and the lock is no longer held for the tokens. -/
structure GivenBack (r : Region) (connection : ConnectionId) (tokens : List LockToken)
    (r' : Region) : Prop where
  frame : SameFrame r r'
  records : SameRecords r r'
  get?_iff : ∀ key cursor, cursor.connection ≠ connection →
    (r'.queries.get? key = some cursor ↔ r.queries.get? key = some cursor)
  nextId : r'.lock.nextId = r.lock.nextId
  waitingWriters : r'.lock.waitingWriters = r.lock.waitingWriters
  nodup : r'.lock.readers.Nodup
  holdsFor_iff : ∀ t, r'.HoldsFor t ↔ r.HoldsFor t ∧ t ∉ tokens

theorem givenBack_refl (connection : ConnectionId) (hnodup : r.lock.readers.Nodup) :
    GivenBack r connection [] r where
  frame := .refl r
  records := .refl r
  get?_iff _ _ _ := Iff.rfl
  nextId := rfl
  waitingWriters := rfl
  nodup := hnodup
  holdsFor_iff t := by simp only [List.not_mem_nil, not_false_eq_true, and_true]

theorem GivenBack.trans (h : GivenBack r connection tokens r')
    (h' : GivenBack r' connection tokens' r'') :
    GivenBack r connection (tokens ++ tokens') r'' where
  frame := ⟨h.frame.same.trans h'.frame.same, h'.frame.attached.trans h.frame.attached⟩
  records := h.records.trans h'.records
  get?_iff key cursor hother :=
    (h'.get?_iff key cursor hother).trans (h.get?_iff key cursor hother)
  nextId := h'.nextId.trans h.nextId
  waitingWriters := h'.waitingWriters.trans h.waitingWriters
  nodup := h'.nodup
  holdsFor_iff t := by
    rw [h'.holdsFor_iff, h.holdsFor_iff, List.mem_append, not_or, and_assoc]

/-- **A query is freed**, if it is one of the connection. -/
theorem givenBack_freeQuery (connection : ConnectionId) (key : SlotKey)
    (hnodup : r.lock.readers.Nodup) :
    GivenBack r connection [] (r.freeQuery connection key).2 := by
  cases hfree : r.freeQuery connection key with
  | mk answer r' =>
    cases answer with
    | error err =>
      rw [freeQuery_eq_error hfree]
      exact givenBack_refl connection hnodup
    | ok =>
      obtain ⟨freed, queries, hrem, hconnection, rfl⟩ := freeQuery_eq_ok hfree
      have hkept := givenBack_refl (r := r) connection hnodup
      refine ⟨⟨⟨rfl, rfl, rfl⟩, rfl⟩, ⟨rfl, rfl, rfl, rfl⟩, ?_, rfl, rfl, hnodup,
        hkept.holdsFor_iff⟩
      intro other cursor hother
      refine (iff_of_eq (congrArg (· = some cursor) (SlotTable.get?_remove hrem))).trans ?_
      split
      · -- The query that was freed is one of the connection.
        rename_i hkey
        rw [hkey, (SlotTable.remove?_eq_some_iff.1 hrem).1]
        refine iff_of_false nofun fun heq => hother ?_
        rw [← Option.some.inj heq, hconnection]
      · exact Iff.rfl

/-- **A lock is given back**, if it is held. -/
theorem givenBack_endLock (connection : ConnectionId) (token : LockToken)
    (hnodup : r.lock.readers.Nodup) :
    GivenBack r connection [token] (r.endLock token token.mode).2 := by
  have hholds : ∀ t, (r.endLock token token.mode).2.HoldsFor t ↔ r.HoldsFor t ∧ t ∉ [token] := by
    intro t
    rw [holdsFor_endLock_iff hnodup, List.mem_singleton]
  obtain ⟨lock, hlock, hnext, hwaiting, hkept⟩ := relock_endLock r token token.mode
  rw [hlock] at hholds ⊢
  exact {
    frame := ⟨⟨rfl, rfl, rfl⟩, rfl⟩
    records := ⟨rfl, rfl, rfl, rfl⟩
    get?_iff := fun _ _ _ => Iff.rfl
    nextId := hnext
    waitingWriters := hwaiting
    nodup := hkept hnodup
    holdsFor_iff := hholds }

/-- The queries after a detachment are those of the other connections. -/
theorem get?_detach_iff :
    (r.detach connection).queries.get? key = some cursor ↔
      r.queries.get? key = some cursor ∧ cursor.connection ≠ connection := by
  rw [detach_eq]
  simp only [SlotTable.get?_drain, Option.filter_eq_some_iff, Bool.not_eq_true',
    decide_eq_false_iff_not, ne_eq]

/-- **A connection that has given back and leaves** takes with it all its queries that are
left, and no others. -/
theorem GivenBack.get?_detach_iff (h : GivenBack r connection tokens r') :
    (r'.detach connection).queries.get? key = some cursor ↔
      r.queries.get? key = some cursor ∧ cursor.connection ≠ connection := by
  rw [Region.get?_detach_iff]
  exact and_congr_left fun hother => h.get?_iff key cursor hother

end Region

/-! ## An engine -/

namespace Engine

variable {e : Engine} {db : DbHandle} {place : Nat} {r : Region}

/-- What gives back one thing at a time gives back all of them. -/
theorem exists_foldl_givenBack {β : Type} (step : Engine → β → Engine)
    (tokens : β → List LockToken)
    (hstep : ∀ e r b, e.resolve db = .ok (place, r) → r.lock.readers.Nodup →
      ∃ r', step e b = e.putRegion place r' ∧ r.GivenBack db.connection (tokens b) r')
    (l : List β) (hr : e.resolve db = .ok (place, r)) (hnodup : r.lock.readers.Nodup) :
    ∃ r', l.foldl step e = e.putRegion place r' ∧
      r.GivenBack db.connection (l.flatMap tokens) r' := by
  induction l generalizing e r with
  | nil =>
    exact ⟨r, (putRegion_self (getElem?_of_resolve hr)).symm, Region.givenBack_refl _ hnodup⟩
  | cons b rest ih =>
    obtain ⟨r₁, hfirst, hback⟩ := hstep e r b hr hnodup
    obtain ⟨r₂, hrest, hback'⟩ := ih (resolve_putRegion hr hback.frame.same.id) hback.nodup
    refine ⟨r₂, ?_, hback.trans hback'⟩
    rw [List.foldl_cons, hfirst, hrest, putRegion_putRegion]

theorem exists_freeQuery (query : QueryHandle) (hr : e.resolve db = .ok (place, r))
    (hnodup : r.lock.readers.Nodup) :
    ∃ r', (e.freeQuery db query).2 = e.putRegion place r' ∧ r.GivenBack db.connection [] r' := by
  rcases e.checkedOn_cases (checkQuery db query) db
      (fun r => r.freeQuery db.connection query.key) with
    ⟨err, hcall⟩ | ⟨p, s, -, hs, hcall⟩
  · exact ⟨r, (congrArg Prod.snd hcall).trans (putRegion_self (getElem?_of_resolve hr)).symm,
      Region.givenBack_refl _ hnodup⟩
  · rw [hr] at hs
    cases hs
    exact ⟨_, congrArg Prod.snd hcall, Region.givenBack_freeQuery _ _ hnodup⟩

theorem exists_endLock (token : LockToken) (hr : e.resolve db = .ok (place, r))
    (hnodup : r.lock.readers.Nodup) :
    ∃ r', (e.endLock db token token.mode).2 = e.putRegion place r' ∧
      r.GivenBack db.connection [token] r' := by
  refine ⟨_, ?_, Region.givenBack_endLock db.connection token hnodup⟩
  simp only [endLock, onRegion, hr]

/-- **What is given back through a handle** is taken from its region. -/
theorem exists_giveBack (held : Outstanding) (hr : e.resolve db = .ok (place, r))
    (hnodup : r.lock.readers.Nodup) :
    ∃ r', Connection.giveBack db held e = e.putRegion place r' ∧
      r.GivenBack db.connection held.locks r' := by
  obtain ⟨r₁, hqueries, hback⟩ := exists_foldl_givenBack
    (fun e query => (e.freeQuery db query).2) (fun _ => [])
    (fun e r query hr hnodup => exists_freeQuery query hr hnodup) held.queries hr hnodup
  obtain ⟨r₂, hlocks, hback'⟩ := exists_foldl_givenBack
    (fun e token => (e.endLock db token token.mode).2) (fun token => [token])
    (fun e r token hr hnodup => exists_endLock token hr hnodup) held.locks
    (resolve_putRegion hr hback.frame.same.id) hback.nodup
  refine ⟨r₂, ?_, ?_⟩
  · rw [Connection.giveBack, hqueries, hlocks, putRegion_putRegion]
  · have htokens : (held.queries.flatMap fun _ => []) ++
        (held.locks.flatMap fun token => [token]) = held.locks := by
      rw [List.flatMap_eq_nil_iff.2 fun _ _ => rfl, List.nil_append, List.flatMap_singleton']
    exact htokens ▸ hback.trans hback'

end Engine

/-! ## A client -/

namespace Connection

variable {conn : Connection} {c : Client} {place : Nat} {r : Region}

/-- **An open connection is closed**: what it obtained is given back, and then its attachment
ends. -/
theorem outcome_closeIn (order : List QueryHandle)
    (hr : c.engine.resolve conn.handle = .ok (place, r)) (hlocal : r.isLocal = conn.handle.isLocal)
    (hnodup : r.lock.readers.Nodup) :
    ∃ r', r.GivenBack conn.handle.connection (c.held conn.handle.connection).locks r' ∧
      (conn.closeIn order).outcome c =
        (.ok (), { c with
          engine := { c.engine.putRegion place (r'.detach conn.handle.connection) with
            attachments := c.engine.attachments.erase conn.handle.connection }
          outstanding := c.outstanding.erase conn.handle.connection }) := by
  obtain ⟨r', hengine, hback⟩ := Engine.exists_giveBack
    { c.held conn.handle.connection with queries := order } hr hnodup
  refine ⟨r', hback, ?_⟩
  have hr' := Engine.resolve_putRegion hr hback.frame.same.id
  have hlocal' : r'.isLocal = conn.handle.isLocal := hback.frame.same.isLocal.trans hlocal
  have hend : (if conn.handle.isLocal then
        (c.engine.putRegion place r').deleteLocal conn.handle
      else (c.engine.putRegion place r').detach conn.handle) =
      (.ok (), (c.engine.putRegion place r').release conn.handle.connection place r') := by
    cases hkind : conn.handle.isLocal with
    | true => simp only [Engine.deleteLocal, hr', hlocal', hkind, if_true]
    | false => simp only [Engine.detach, hr', hlocal', hkind, Bool.false_eq_true, if_false]
  have hput := c.engine.putRegion_putRegion place r' (r'.detach conn.handle.connection)
  simp only [closeIn, Action.outcome_bind, Action.outcome_ofState, Action.outcome_change, hengine,
    hend, Engine.release, hput]
  rfl

/-- **A connection is closed** in the order in which its queries were built. -/
theorem outcome_close (conn : Connection) (c : Client) :
    conn.close.outcome c =
      (conn.closeIn (c.held conn.handle.connection).queries).outcome c := rfl

end Connection

end RecordStore
