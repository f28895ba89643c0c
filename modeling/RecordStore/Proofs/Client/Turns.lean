import RecordStore.Proofs.Client.Returns
/-!
# Turns — what a deed can come to

Whatever a deed is, and whether it fails or not, one of five things happens
(`Usage.Turn`): nothing that matters here, or a change of the region of an
open connection, or a connection to a region that was there or to a new one,
or the end of a connection. A change of a region in turn does one of five
things to the queries and the lock, and the client remembers just that
(`Region.Use`).
-/

namespace RecordStore

/-! ## Calls through a connection -/

namespace Connection

variable {c : Client}

theorem outcome_openWith (settings : ConnectionSettings) (c : Client) :
    (openWith settings).outcome c =
      match settings.validate with
      | .error err => (.error err, c)
      | .ok () =>
        match c.engine.openDatabase settings.name settings.size settings.isLocal with
        | (.error err, engine) => (.error (.engine err), { c with engine })
        | (.ok db, engine) => (.ok ⟨db, settings⟩, { c with engine }) := by
  rw [openWith, Action.outcome_bind, Action.outcome_check]
  cases settings.validate with
  | error err => rfl
  | ok =>
    simp only [Action.outcome_change_bind]
    cases c.engine.openDatabase settings.name settings.size settings.isLocal with
    | mk answer engine => cases answer <;> rfl

theorem outcome_buildQuery (conn : Connection) (request : QueryRequest) (c : Client) :
    (conn.buildQuery request).outcome c =
      match request.validate with
      | .error err => (.error err, c)
      | .ok () =>
        match c.engine.buildQuery conn.handle request.template request.conditions
          request.limit with
        | (.error err, engine) => (.error (.engine err), { c with engine })
        | (.ok handle, engine) =>
          (.ok { handle }, { c with engine }.changeHeld conn.handle.connection fun held =>
            { held with queries := held.queries ++ [handle] }) := by
  rw [buildQuery, Action.outcome_bind, Action.outcome_check]
  cases request.validate with
  | error err => rfl
  | ok =>
    simp only [Action.outcome_change_bind]
    cases c.engine.buildQuery conn.handle request.template request.conditions request.limit with
    | mk answer engine => cases answer <;> rfl

theorem outcome_fetch_eq (conn : Connection) (q : Query) (c : Client) :
    (conn.fetch q).outcome c =
      if q.isExhausted then (.ok (none, q), c)
      else match c.engine.fetch conn.handle q.handle with
        | (.error err, engine) => (.error (.engine err), { c with engine })
        | (.ok row, engine) => (.ok (row, q.advanced row), { c with engine }) := by
  unfold fetch
  cases q.isExhausted with
  | true => rfl
  | false =>
    simp only [Bool.false_eq_true, if_false, Action.outcome_change_bind]
    cases c.engine.fetch conn.handle q.handle with
    | mk answer engine => cases answer <;> rfl

theorem outcome_fetch (conn : Connection) (q : Query) (c : Client) :
    ((conn.fetch q).outcome c).2 =
      if q.isExhausted then c
      else { c with engine := (c.engine.fetch conn.handle q.handle).2 } := by
  rw [outcome_fetch_eq]
  cases q.isExhausted with
  | true => rfl
  | false => rcases c.engine.fetch conn.handle q.handle with ⟨err | row, engine⟩ <;> rfl

theorem outcome_freeQuery (conn : Connection) (q : Query) (c : Client) :
    (conn.freeQuery q).outcome c =
      match c.engine.freeQuery conn.handle q.handle with
      | (.error err, engine) => (.error (.engine err), { c with engine })
      | (.ok (), engine) =>
        (.ok (), { c with engine }.changeHeld conn.handle.connection fun held =>
          { held with queries := held.queries.filter (· ≠ q.handle) }) := by
  rw [freeQuery, Action.outcome_change_bind]
  cases c.engine.freeQuery conn.handle q.handle with
  | mk answer engine => cases answer <;> rfl

/-- A request for the lock counts the token that it is granted, if it is. -/
theorem outcome_lock (conn : Connection) (kind : LockCall) (mode : LockMode) (c : Client) :
    (kind.action conn mode).outcome c =
      match c.engine.onRegion conn.handle fun r => kind.ask r mode with
      | (.error err, engine) => (.error (.engine err), { c with engine })
      | (.ok none, engine) => (.ok none, { c with engine })
      | (.ok (some token), engine) =>
        (.ok (some token), { c with engine }.changeHeld conn.handle.connection fun held =>
          { held with locks := held.locks ++ [token] }) := by
  cases kind <;>
    simp only [LockCall.action, startLock, retryLock, tryLock, Action.outcome_change_bind,
      Engine.startLock, Engine.resumeLock, Engine.tryLock, LockCall.ask] <;>
    cases c.engine.onRegion conn.handle _ with
    | mk answer engine =>
      cases answer with
      | error err => rfl
      | ok token => cases token <;> rfl

theorem outcome_endLock_eq (conn : Connection) (token : LockToken) (c : Client) :
    (conn.endLock token).outcome c =
      match c.engine.endLock conn.handle token token.mode with
      | (.error err, engine) => (.error (.engine err), { c with engine })
      | (.ok (), engine) =>
        (.ok (), { c with engine }.changeHeld conn.handle.connection fun held =>
          { held with locks := held.locks.filter (· ≠ token) }) := by
  rw [endLock, Action.outcome_change_bind]
  cases c.engine.endLock conn.handle token token.mode with
  | mk answer engine => cases answer <;> rfl

end Connection

/-- A query that passes the check is one of the attachment. -/
theorem Engine.eq_query_of_checkQuery {db : DbHandle} {query : QueryHandle}
    (h : Engine.checkQuery db query = .ok ()) : query = db.query query.key := by
  unfold Engine.checkQuery at h
  split at h
  · rename_i hstamp
    rw [DbHandle.query, ← hstamp.1, ← hstamp.2]
  · cases h

/-- What a region does when it is asked for its lock. -/
theorem LockCall.asked_ask (kind : LockCall) (r : Region) (mode : LockMode) :
    r.Asked mode (kind.ask r mode).1 (kind.ask r mode).2 := by
  cases kind with
  | start => exact r.asked_startLock mode
  | retry => exact r.asked_resumeLock mode
  | attempt => exact r.asked_tryLock mode

/-! ## A region in use -/

namespace Region

variable {r r' : Region} {db : DbHandle} {held held' : Outstanding} {tokens : List LockToken}
variable {key : SlotKey} {c : ConnectionId} {t : LockToken}

/-- **What a call through an open connection comes to**: the region after it, what is then
outstanding on the connection, and the tokens that were granted. -/
inductive Use (r : Region) (db : DbHandle) (held : Outstanding) :
    Region → Outstanding → List LockToken → Prop where
  /-- The queries stay with their owners, and the lock with its holders. -/
  | kept {r' : Region} (howner : r'.owner? = r.owner?)
      (hlock : RegionLock.SameHolders r.lock r'.lock) : Use r db held r' held []
  | built {r' : Region} {key : SlotKey} (hnew : r.owner? key = none)
      (howner : ∀ other, r'.owner? other =
        if other = key then some db.connection else r.owner? other)
      (hlock : r'.lock = r.lock) :
      Use r db held r' { held with queries := held.queries ++ [db.query key] } []
  | freed {r' : Region} {key : SlotKey} (hown : r.owner? key = some db.connection)
      (howner : ∀ other, r'.owner? other = if other = key then none else r.owner? other)
      (hlock : r'.lock = r.lock) :
      Use r db held r' { held with queries := held.queries.filter (· ≠ db.query key) } []
  | granted {mode : LockMode} {lock : RegionLock} (h : RegionLock.Grown r.lock mode lock) :
      Use r db held (r.relock lock)
        { held with locks := held.locks ++ [r.tokenOf mode r.lock.nextId] }
        [r.tokenOf mode r.lock.nextId]
  | ended (token : LockToken) :
      Use r db held (r.endLock token token.mode).2
        { held with locks := held.locks.filter (· ≠ token) } []

namespace Use

/-- **The queries of the connection** are outstanding on it, if they were. -/
theorem mem_queries_iff (h : Use r db held r' held' tokens)
    (hheld : ∀ q, q ∈ held.queries ↔ ∃ key, q = db.query key ∧ r.owner? key = some db.connection)
    (q : QueryHandle) :
    q ∈ held'.queries ↔ ∃ key, q = db.query key ∧ r'.owner? key = some db.connection := by
  cases h with
  | kept howner =>
    rw [howner]
    exact hheld q
  | @built _ key hnew howner =>
    simp only [List.mem_append, List.mem_singleton, hheld, howner]
    constructor
    · rintro (⟨other, rfl, hother⟩ | rfl)
      · refine ⟨other, rfl, ?_⟩
        split
        · rfl
        · exact hother
      · exact ⟨key, rfl, if_pos rfl⟩
    · rintro ⟨other, rfl, hother⟩
      split at hother
      · rename_i hkey
        exact .inr (congrArg db.query hkey)
      · exact .inl ⟨other, rfl, hother⟩
  | @freed _ key hown howner =>
    simp only [List.mem_filter, hheld, howner, decide_eq_true_eq]
    constructor
    · rintro ⟨⟨other, rfl, hother⟩, hne⟩
      exact ⟨other, rfl, by rw [if_neg fun heq => hne (congrArg db.query heq), hother]⟩
    · rintro ⟨other, rfl, hother⟩
      split at hother
      · cases hother
      · rename_i hne
        exact ⟨⟨other, rfl, hother⟩, fun heq => hne (congrArg QueryHandle.key heq)⟩
  | granted => exact hheld q
  | ended token =>
    rw [owner?_congr (queries_of_locked (r.endLock_snd token token.mode))]
    exact hheld q

/-- The queries of other connections stay. -/
theorem owner?_other (h : Use r db held r' held' tokens) (hc : c ≠ db.connection) :
    r'.owner? key = some c ↔ r.owner? key = some c := by
  cases h with
  | kept howner => rw [howner]
  | built hnew howner =>
    rw [howner]
    split
    · rename_i hkey
      rw [hkey, hnew]
      exact iff_of_false (fun heq => hc (Option.some.inj heq).symm) nofun
    · exact Iff.rfl
  | freed hown howner =>
    rw [howner]
    split
    · rename_i hkey
      rw [hkey, hown]
      exact iff_of_false nofun fun heq => hc (Option.some.inj heq).symm
    · exact Iff.rfl
  | granted => exact Iff.rfl
  | ended token => rw [owner?_congr (queries_of_locked (r.endLock_snd token token.mode))]

/-- **The lock and what is remembered of it** change alike: the same tokens are added, and the
same one is taken away. -/
theorem exists_ended (h : Use r db held r' held' tokens) (hid : r'.id = r.id)
    (hnodup : r.lock.readers.Nodup) :
    ∃ ended : LockToken → Prop,
      (∀ t, r'.HoldsFor t ↔ (r.HoldsFor t ∧ ¬ ended t) ∨ t ∈ tokens) ∧
        ∀ t, t ∈ held'.locks ↔ (t ∈ held.locks ∧ ¬ ended t) ∨ t ∈ tokens := by
  -- Unless a lock is given back nothing is taken away.
  have hnone : ∀ {p : LockToken → Prop} (t : LockToken),
      p t ↔ (p t ∧ ¬ False) ∨ t ∈ ([] : List LockToken) := fun t => by
    simp only [not_false_eq_true, and_true, List.not_mem_nil, or_false]
  cases h with
  | kept _ hlock =>
    exact ⟨fun _ => False, fun t => (holdsFor_same_iff hid hlock).trans (hnone t), hnone⟩
  | built _ _ hlock | freed _ _ hlock =>
    have hsame : RegionLock.SameHolders r.lock r'.lock := hlock ▸ .refl r.lock
    exact ⟨fun _ => False, fun t => (holdsFor_same_iff hid hsame).trans (hnone t), hnone⟩
  | granted h =>
    refine ⟨fun _ => False, fun t => ?_, fun t => ?_⟩
    · rw [holdsFor_granted_iff h, not_false_eq_true, and_true, List.mem_singleton]
    · simp only [not_false_eq_true, and_true, List.mem_append]
  | ended token =>
    refine ⟨fun t => t = token, fun t => ?_, fun t => ?_⟩
    · rw [holdsFor_endLock_iff hnodup]
      simp only [List.not_mem_nil, or_false, ne_eq]
    · simp only [List.mem_filter, decide_eq_true_eq, List.not_mem_nil, or_false]

/-- **A grant is numbered**, and nothing else counts. -/
theorem numbered (h : Use r db held r' held' tokens) :
    (tokens = [] ∧ r'.lock.nextId = r.lock.nextId) ∨
      ∃ mode, tokens = [r.tokenOf mode r.lock.nextId] ∧
        r'.lock.nextId = r.lock.nextId.next := by
  cases h with
  | kept _ hlock => exact .inl ⟨rfl, hlock.nextId⟩
  | built _ _ hlock | freed _ _ hlock => exact .inl ⟨rfl, congrArg RegionLock.nextId hlock⟩
  | @granted mode _ h => exact .inr ⟨mode, rfl, h.nextId⟩
  | ended token =>
    obtain ⟨lock, hlock, hnext, -⟩ := relock_endLock r token token.mode
    rw [hlock]
    exact .inl ⟨rfl, hnext⟩

theorem nodup (h : Use r db held r' held' tokens) (hnodup : r.lock.readers.Nodup) :
    r'.lock.readers.Nodup := by
  cases h with
  | kept _ hlock => exact hlock.readers ▸ hnodup
  | built _ _ hlock | freed _ _ hlock => exact hlock ▸ hnodup
  | granted h => exact h.nodup hnodup
  | ended token =>
    obtain ⟨lock, hlock, -, -, hkept⟩ := relock_endLock r token token.mode
    rw [hlock]
    exact hkept hnodup

end Use

end Region

/-! ## What becomes of a client -/

namespace Usage

variable {u : Usage} {conn : Connection} {client : Client} {place : Nat} {r r' : Region}

/-- **What a deed can come to.** -/
inductive Turn (u : Usage) : Usage → Prop where
  /-- Nothing happens to the regions, the attachments and what is outstanding. -/
  | quiet {client : Client} (hregions : client.engine.regions = u.client.engine.regions)
      (hattachments : client.engine.attachments = u.client.engine.attachments)
      (hheld : client.held = u.client.held) :
      Turn u { u with client }
  /-- The region of an open connection changes. -/
  | inside {client : Client} {granted : List (ConnectionId × LockToken)} {conn : Connection}
      {place : Nat} {r r' : Region} {held : Outstanding} {tokens : List LockToken}
      (hconn : conn ∈ u.opened) (hr : u.client.engine.resolve conn.handle = .ok (place, r))
      (hframe : Region.SameFrame r r')
      (huse : r.Use conn.handle (u.client.held conn.handle.connection) r' held tokens)
      (hengine : client.engine = u.client.engine.putRegion place r')
      (hheld : client.held = Function.update u.client.held conn.handle.connection held)
      (hgranted : granted = u.granted ++ tokens.map fun t => (conn.handle.connection, t)) :
      Turn u { u with client, granted }
  /-- A connection is opened to a region that is there. -/
  | joined {client : Client} {settings : ConnectionSettings} {place : Nat} {r : Region}
      (hr : u.client.engine.regions[place]? = some r)
      (hengine : client.engine = u.client.engine.join place r)
      (hheld : client.held = u.client.held) :
      Turn u { u with
        client
        opened := u.opened ++ [⟨⟨r.id, u.client.engine.nextConnection, r.isLocal⟩, settings⟩]
        opens := u.opens + 1 }
  /-- A connection is opened to a new region. -/
  | founded {client : Client} {settings : ConnectionSettings} {name : Option String}
      {capacity : Nat} {isLocal : Bool} (hlocal : name.isNone = isLocal)
      (hengine : client.engine = u.client.engine.found name capacity)
      (hheld : client.held = u.client.held) :
      Turn u { u with
        client
        opened := u.opened ++
          [⟨⟨u.client.engine.nextRegion, u.client.engine.nextConnection, isLocal⟩, settings⟩]
        opens := u.opens + 1 }
  /-- A connection gives back what it obtained and leaves its region. -/
  | closed {client : Client} {conn : Connection} {place : Nat} {r r' : Region}
      (hconn : conn ∈ u.opened) (hr : u.client.engine.resolve conn.handle = .ok (place, r))
      (hback : r.GivenBack conn.handle.connection
        (u.client.held conn.handle.connection).locks r')
      (hengine : client.engine =
        { u.client.engine.putRegion place (r'.detach conn.handle.connection) with
          attachments := u.client.engine.attachments.erase conn.handle.connection })
      (hheld : client.held = Function.update u.client.held conn.handle.connection {}) :
      Turn u { u with client, opened := u.opened.filter fun other => other ≠ conn }

namespace Turn

/-- A call that fails. -/
theorem refused (hengine : client.engine = u.client.engine)
    (houtstanding : client.outstanding = u.client.outstanding) : Turn u { u with client } := by
  refine .quiet (congrArg _ hengine) (congrArg _ hengine) ?_
  funext c
  rw [Client.held, houtstanding, Client.held]

/-- A region that keeps its queries with their owners and its lock with its holders. -/
theorem kept (hconn : conn ∈ u.opened) (hr : u.client.engine.resolve conn.handle = .ok (place, r))
    (hframe : Region.SameFrame r r') (howner : r'.owner? = r.owner?)
    (hlock : RegionLock.SameHolders r.lock r'.lock)
    (hengine : client.engine = u.client.engine.putRegion place r')
    (houtstanding : client.outstanding = u.client.outstanding) : Turn u { u with client } := by
  refine .inside hconn hr hframe (.kept howner hlock) hengine ?_ (List.append_nil _).symm
  rw [Function.update_eq_self]
  funext c
  rw [Client.held, houtstanding, Client.held]

/-- A change that keeps them in every region, behind a check. -/
theorem checked {α : Type} {check : Except Error Unit}
    {change : Region → Except Error α × Region} (hconn : conn ∈ u.opened)
    (hchange : ∀ r, Region.SameFrame r (change r).2 ∧ (change r).2.owner? = r.owner? ∧
      (change r).2.lock = r.lock)
    (hengine : client.engine = (u.client.engine.checkedOn check conn.handle change).2)
    (houtstanding : client.outstanding = u.client.outstanding) : Turn u { u with client } := by
  rcases u.client.engine.checkedOn_cases check conn.handle change with
    ⟨err, hcall⟩ | ⟨place, r, -, hr, hcall⟩
  · exact refused (hengine.trans (congrArg Prod.snd hcall)) houtstanding
  · obtain ⟨hframe, howner, hlock⟩ := hchange r
    exact kept hconn hr hframe howner (hlock ▸ .refl r.lock)
      (hengine.trans (congrArg Prod.snd hcall)) houtstanding

end Turn

/-! ### The deeds, one by one -/

/-- What a region does on a call that is neither about queries nor about the lock. -/
theorem serve_kept (r : Region) (db : DbHandle) (call : Call) (hlock : call.isLocking = false)
    (howner : (r.serve db call).2.owner? = r.owner?) :
    Region.SameFrame r (r.serve db call).2 ∧ (r.serve db call).2.owner? = r.owner? ∧
      (r.serve db call).2.lock = r.lock :=
  ⟨r.serve_sameFrame db call, howner, Region.serve_lock db hlock r⟩

section Deeds

variable (hconn : conn ∈ u.opened)
include hconn

theorem turn_record (op : RecordCall) : Turn u (u.does (.record conn op)) := by
  cases op with
  | create n =>
    have hchange : ∀ r : Region, _ := fun r => serve_kept r conn.handle (.create conn.handle n)
      rfl (Region.owner?_congr (r.queries_create n))
    exact @Turn.checked _ _ _ _ (u.client.engine.checkLength n)
      (fun r => reword (Attempt.map conn.handle.record) (r.create n)) hconn hchange rfl rfl
  | delete rec =>
    have hchange : ∀ r : Region, _ := fun r => serve_kept r conn.handle (.delete conn.handle rec)
      rfl (Region.owner?_congr (r.queries_delete rec.key))
    change Turn u { u with client := (if u.client.faults.refusesDeletes then _ else _ : _ × _).2 }
    split
    · exact .refused rfl rfl
    · exact @Turn.checked _ _ _ _ (Engine.checkRecord conn.handle rec)
        (fun r => r.delete rec.key) hconn hchange rfl rfl
  | set rec index value =>
    have hchange : ∀ r : Region, _ := fun r => serve_kept r conn.handle
      (.set conn.handle rec index value) rfl
      (Region.owner?_congr (r.queries_set rec.key index value))
    change Turn u { u with
      client := (if u.client.faults.failsWrite u.client.writes then _ else _ : _ × _).2 }
    split
    · exact .refused rfl rfl
    · exact @Turn.checked _ _ _ _
        ((Engine.checkRecord conn.handle rec).bind fun _ => Engine.checkValue value)
        (fun r => r.set rec.key index value) hconn hchange rfl rfl
  | first => exact .refused rfl rfl
  | next rec => exact .refused rfl rfl
  | length rec => exact .refused rfl rfl
  | get rec index => exact .refused rfl rfl

theorem turn_fetch (q : Query) : Turn u (u.does (.fetch conn q)) := by
  have hchange : ∀ r : Region, _ := fun r => serve_kept r conn.handle
    (.fetch conn.handle q.handle) rfl (r.owner?_fetch conn.handle.connection q.handle.key)
  simp only [does, carry, Connection.outcome_fetch]
  split
  · exact .refused rfl rfl
  · exact @Turn.checked _ _ _ _ (Engine.checkQuery conn.handle q.handle)
      (fun r => reword (Option.map conn.handle.record)
        (r.fetch conn.handle.connection q.handle.key)) hconn hchange rfl rfl

theorem turn_buildQuery (request : QueryRequest)
    (hcoherent : ∀ (p : Nat) r, u.client.engine.regions[p]? = some r → r.Coherent) :
    Turn u (u.does (.buildQuery conn request)) := by
  simp only [does, carry, Connection.outcome_buildQuery]
  cases request.validate with
  | error err => exact .refused rfl rfl
  | ok =>
    let db := conn.handle
    let template := request.template.map RecordHandle.key
    let call := Call.buildQuery db request.template request.conditions request.limit
    rcases u.client.engine.checkedOn_cases (Engine.checkTemplate db request.template) db
        (fun r => reword db.query
          (r.buildQuery db.connection template request.conditions request.limit)) with
      ⟨err, hcall⟩ | ⟨place, r, -, hr, hcall⟩
    · rw [Engine.buildQuery, hcall]
      exact .refused rfl rfl
    · rw [Engine.buildQuery, hcall]
      have hframe : Region.SameFrame r
          (r.buildQuery db.connection template request.conditions request.limit).2 :=
        r.serve_sameFrame db call
      have hlocking : call.isLocking = false := rfl
      have hlock : (r.buildQuery db.connection template request.conditions request.limit).2.lock =
          r.lock := Region.serve_lock db hlocking r
      cases hbuilt : r.buildQuery db.connection template request.conditions request.limit with
      | mk answer r' =>
        rw [hbuilt] at hframe hlock
        cases answer with
        | error err =>
          rw [Region.buildQuery_eq_error hbuilt]
          exact .refused (Engine.putRegion_self (Engine.getElem?_of_resolve hr)) rfl
        | ok key =>
          have howner := Region.owner?_buildQuery
            (hcoherent place r (Engine.getElem?_of_resolve hr)) hbuilt
          have huse : r.Use db (u.client.held db.connection) r' _ [] :=
            .built (howner key).1 (fun other => (howner other).2) hlock
          exact .inside hconn hr hframe huse rfl (Client.held_changeHeld _ _ _)
            (List.append_nil _).symm

theorem turn_freeQuery (q : Query) : Turn u (u.does (.freeQuery conn q)) := by
  simp only [does, carry, Connection.outcome_freeQuery]
  let db := conn.handle
  let call := Call.freeQuery db q.handle
  rcases u.client.engine.checkedOn_cases (Engine.checkQuery db q.handle) db
      (fun r => r.freeQuery db.connection q.handle.key) with
    ⟨err, hcall⟩ | ⟨place, r, hcheck, hr, hcall⟩
  · rw [Engine.freeQuery, hcall]
    exact .refused rfl rfl
  · rw [Engine.freeQuery, hcall]
    have hframe : Region.SameFrame r (r.freeQuery db.connection q.handle.key).2 :=
      r.serve_sameFrame db call
    have hlocking : call.isLocking = false := rfl
    have hlock : (r.freeQuery db.connection q.handle.key).2.lock = r.lock :=
      Region.serve_lock db hlocking r
    cases hfreed : r.freeQuery db.connection q.handle.key with
    | mk answer r' =>
      rw [hfreed] at hframe hlock
      cases answer with
      | error err =>
        rw [Region.freeQuery_eq_error hfreed]
        exact .refused (Engine.putRegion_self (Engine.getElem?_of_resolve hr)) rfl
      | ok =>
        have howner := Region.owner?_freeQuery hfreed
        have hquery : q.handle = db.query q.handle.key := Engine.eq_query_of_checkQuery hcheck
        have huse : r.Use db (u.client.held db.connection) r'
            { u.client.held db.connection with
              queries := (u.client.held db.connection).queries.filter (· ≠ q.handle) } [] := by
          rw [hquery]
          exact .freed (howner q.handle.key).1 (fun other => (howner other).2) hlock
        exact .inside hconn hr hframe huse rfl (Client.held_changeHeld _ _ _)
          (List.append_nil _).symm

theorem turn_lock (kind : LockCall) (mode : LockMode) : Turn u (u.does (.lock conn kind mode)) := by
  simp only [does, Connection.outcome_lock]
  rcases u.client.engine.onRegion_cases conn.handle (fun r => kind.ask r mode) with
    ⟨err, hcall⟩ | ⟨place, r, hr, hcall⟩
  · rw [hcall]
    exact .refused rfl rfl
  · rw [hcall]
    have hframe : ∀ lock, Region.SameFrame r (r.relock lock) := fun _ => ⟨⟨rfl, rfl, rfl⟩, rfl⟩
    have howner : ∀ lock, (r.relock lock).owner? = r.owner? := fun _ => rfl
    have hasked := kind.asked_ask r mode
    generalize (kind.ask r mode).1 = answer, (kind.ask r mode).2 = r' at hasked
    cases hasked with
    | granted h =>
      exact .inside hconn hr (hframe _) (.granted h) rfl (Client.held_changeHeld _ _ _) rfl
    | denied h => exact .kept hconn hr (hframe _) (howner _) h rfl rfl

theorem turn_endLock (token : LockToken) : Turn u (u.does (.endLock conn token)) := by
  simp only [does, carry, Connection.outcome_endLock_eq]
  rcases u.client.engine.onRegion_cases conn.handle (fun r => r.endLock token token.mode) with
    ⟨err, hcall⟩ | ⟨place, r, hr, hcall⟩
  · rw [Engine.endLock, hcall]
    exact .refused rfl rfl
  · rw [Engine.endLock, hcall]
    have hframe : Region.SameFrame r (r.endLock token token.mode).2 :=
      r.serve_sameFrame conn.handle (.endLock conn.handle token token.mode)
    cases hanswer : (r.endLock token token.mode).1 with
    | error err =>
      have howner := Region.owner?_congr
        (Region.queries_of_locked (r.endLock_snd token token.mode))
      refine .kept hconn hr hframe howner ?_ rfl rfl
      rcases Region.endLock_eq_error hanswer with hsame | ⟨-, -, -, -, hrejected⟩
      · rw [hsame]
        exact .refl r.lock
      · rw [hrejected]
        exact RegionLock.sameHolders_reject r.lock
    | ok =>
      exact .inside hconn hr hframe (.ended token) rfl (Client.held_changeHeld _ _ _)
        (List.append_nil _).symm

/-- A connection that is open, as the region's kind says, can be closed. -/
theorem turn_close (order : List QueryHandle)
    (hr : u.client.engine.resolve conn.handle = .ok (place, r))
    (hlocal : r.isLocal = conn.handle.isLocal) (hnodup : r.lock.readers.Nodup) :
    Turn u (u.does (.close conn order)) := by
  obtain ⟨r', hback, houtcome⟩ := Connection.outcome_closeIn order hr hlocal hnodup
  simp only [does, houtcome]
  exact .closed hconn hr hback rfl (Client.held_erase _ _ _)

end Deeds

theorem turn_openWith (settings : ConnectionSettings) : Turn u (u.does (.openWith settings)) := by
  simp only [does, Connection.outcome_openWith]
  cases settings.validate with
  | error err => exact .refused rfl rfl
  | ok =>
    rcases u.client.engine.openDatabase_cases settings.name settings.size settings.isLocal with
      ⟨err, h⟩ | ⟨place, r, -, hreg, h⟩ | ⟨-, -, h⟩
    · simp only [h]
      exact .refused rfl rfl
    · simp only [h]
      exact .joined (Engine.registered?_eq_some hreg) rfl rfl
    · simp only [h]
      refine .founded ?_ rfl rfl
      cases hlocal : settings.isLocal <;> rfl

theorem turn_deleteDatabase (name : Option String) : Turn u (u.does (.deleteDatabase name)) := by
  have hkept : ∀ e : Engine, (e.deleteDatabase name).2.regions = e.regions ∧
      (e.deleteDatabase name).2.attachments = e.attachments := by
    intro e
    simp only [Engine.deleteDatabase]
    split <;> exact ⟨rfl, rfl⟩
  exact .quiet (hkept u.client.engine).1 (hkept u.client.engine).2 rfl

end Usage

end RecordStore
