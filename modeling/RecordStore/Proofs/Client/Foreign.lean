import RecordStore.Proofs.Client.Tracking
/-!
# Foreign queries — a query at a connection that did not build it

A query is stamped with the connection that built it, and whatever is done
with it afterwards leaves the stamp alone (`WithQuery.stamped`). The engine
refuses it through every other connection. The client does not ask the
engine once the query is exhausted, so that from then on nobody looks at the
stamp, and a fetch through any connection ends as one through its own does
(`foreign_query_passes_exhausted`). Nothing changes either way.
-/

namespace RecordStore

namespace Engine

variable {e e' : Engine} {db : DbHandle} {name : Option String} {size : Nat} {isLocal : Bool}
variable {query : QueryHandle}

/-- A connection that is opened is the next one. -/
theorem connection_of_openDatabase (h : (e.openDatabase name size isLocal).1 = .ok db) :
    db.connection = e.nextConnection := by
  have hanswer : (e.perform (.openDatabase name size isLocal)).1 = .ok (.database db) := by
    simp only [perform, reword, h]
    rfl
  have hup := e.upkeep_perform (.openDatabase name size isLocal)
  generalize (e.perform (.openDatabase name size isLocal)).1 = answer,
    (e.perform (.openDatabase name size isLocal)).2 = e' at hanswer hup
  subst hanswer
  cases hup with
  | same _ hreply => cases hreply
  | inside hkind => cases hkind
  | joined => rfl
  | founded => rfl

/-- **A query is stamped** with the connection through which it is built. -/
theorem connection_of_buildQuery {template : Option RecordHandle} {conditions : List Condition}
    {limit : Nat} (h : (e.buildQuery db template conditions limit).1 = .ok query) :
    query.connection = db.connection := by
  unfold buildQuery at h
  rcases e.checkedOn_cases (checkTemplate db template) db _ with
    ⟨err, hrefused⟩ | ⟨place, r, -, -, hbuilt⟩
  · rw [hrefused] at h
    cases h
  · rw [hbuilt] at h
    simp only [reword] at h
    cases hkey : (r.buildQuery db.connection (template.map RecordHandle.key) conditions limit).1
    all_goals
      rw [hkey] at h
      cases h
    rfl

/-- A query of another connection is refused before the engine looks for it. -/
theorem checkQuery_foreign (h : query.connection ≠ db.connection) :
    checkQuery db query = .error (.badQuery .foreignQuery) :=
  if_neg fun hstamp => h hstamp.2

end Engine

namespace Connection

variable {c : Client} {conn : Connection} {q : Query} {request : QueryRequest}

/-- The query after a fetch through the connection; one that fails leaves it as it was. -/
def fetched (conn : Connection) (q : Query) (c : Client) : Query :=
  match ((conn.fetch q).outcome c).1 with
  | .ok (_, q) => q
  | .error _ => q

/-- **A fetch leaves the stamp of a query alone**, whatever comes of it. -/
theorem handle_fetched (conn : Connection) (q : Query) (c : Client) :
    (conn.fetched q c).handle = q.handle := by
  have hadvanced : ∀ row, (q.advanced row).handle = q.handle := fun row => by cases row <;> rfl
  unfold fetched
  rw [outcome_fetch_eq]
  cases q.isExhausted with
  | true => rfl
  | false =>
    rcases c.engine.fetch conn.handle q.handle with ⟨err | row, engine⟩
    · rfl
    · exact hadvanced row

theorem connection_of_buildQuery (h : ((conn.buildQuery request).outcome c).1 = .ok q) :
    q.handle.connection = conn.handle.connection := by
  rw [outcome_buildQuery] at h
  cases hvalid : request.validate with
  | error err =>
    rw [hvalid] at h
    cases h
  | ok =>
    rcases hbuilt : c.engine.buildQuery conn.handle request.template request.conditions
      request.limit with ⟨err | handle, engine⟩
    · simp only [hvalid, hbuilt, reduceCtorEq] at h
    · simp only [hvalid, hbuilt, Except.ok.injEq] at h
      rw [← h]
      exact Engine.connection_of_buildQuery (congrArg Prod.fst hbuilt)

/-- **A query of another connection that is not exhausted** is refused. -/
theorem outcome_fetch_foreign (h : q.handle.connection ≠ conn.handle.connection)
    (hmore : q.isExhausted = false) :
    (conn.fetch q).outcome c = (.error (.engine (.badQuery .foreignQuery)), c) := by
  have hrefused : c.engine.fetch conn.handle q.handle =
      (.error (.badQuery .foreignQuery), c.engine) := by
    simp only [Engine.fetch, Engine.checkedOn, Engine.checkQuery_foreign h]
  rw [outcome_fetch_eq, hmore, hrefused]
  rfl

/-- A query of another connection is not freed. -/
theorem outcome_freeQuery_foreign (h : q.handle.connection ≠ conn.handle.connection) :
    (conn.freeQuery q).outcome c = (.error (.engine (.badQuery .foreignQuery)), c) := by
  have hrefused : c.engine.freeQuery conn.handle q.handle =
      (.error (.badQuery .foreignQuery), c.engine) := by
    simp only [Engine.freeQuery, Engine.checkedOn, Engine.checkQuery_foreign h]
  rw [outcome_freeQuery, hrefused]

end Connection

namespace Usage

variable {u : Usage} {settings : EngineSettings} {faults : FaultPlan} {a b : Connection}
variable {q : Query}

/-! ## Open connections are told apart -/

/-- What a deed makes of the open connections: some are closed, or one more is open. -/
theorem opened_does (u : Usage) (deed : Deed) :
    ((u.does deed).opens = u.opens ∧ (u.does deed).opened ⊆ u.opened) ∨
      ∃ conn, (u.does deed).opens = u.opens + 1 ∧ (u.does deed).opened = u.opened ++ [conn] ∧
        conn.handle.connection = u.client.engine.nextConnection := by
  cases deed with
  | openWith settings =>
    simp only [does, Connection.outcome_openWith]
    cases settings.validate with
    | error err => exact .inl ⟨rfl, List.Subset.refl _⟩
    | ok =>
      rcases hopen : u.client.engine.openDatabase settings.name settings.size settings.isLocal
        with ⟨err | db, engine⟩
      · exact .inl ⟨rfl, List.Subset.refl _⟩
      · refine .inr ⟨⟨db, settings⟩, rfl, rfl, ?_⟩
        exact Engine.connection_of_openDatabase (congrArg Prod.fst hopen)
  | close conn order => exact .inl ⟨rfl, List.filter_subset_self _⟩
  | lock conn kind mode =>
    simp only [does]
    split <;> exact .inl ⟨rfl, List.Subset.refl _⟩
  | _ => exact .inl ⟨rfl, List.Subset.refl _⟩

/-- **The open connections** are among those opened so far, and no two have one identifier. -/
structure ToldApart (u : Usage) : Prop where
  issued : ∀ conn ∈ u.opened, ∃ i < u.opens, conn.handle.connection = ConnectionId.nth i
  distinct : ∀ a ∈ u.opened, ∀ b ∈ u.opened,
    a.handle.connection = b.handle.connection → a = b

theorem ToldApart.does (h : ToldApart u) {deed : Deed}
    (hnext : u.client.engine.nextConnection = ConnectionId.nth u.opens)
    (hopens : (u.does deed).opens < 2 ^ 64) : ToldApart (u.does deed) := by
  rcases u.opened_does deed with ⟨hsame, hsub⟩ | ⟨conn, hmore, hopened, hconn⟩
  · refine ⟨fun other hother => ?_, fun a ha b hb => h.distinct a (hsub ha) b (hsub hb)⟩
    rw [hsame]
    exact h.issued other (hsub hother)
  · rw [hnext] at hconn
    rw [hmore] at hopens
    -- The number of the new connection is that of none before.
    have hnew : ∀ other ∈ u.opened, other.handle.connection ≠ conn.handle.connection := by
      intro other hother heq
      obtain ⟨i, hi, hid⟩ := h.issued other hother
      rw [hid, hconn] at heq
      have hi' := ConnectionId.nth_inj (by omega) (by omega) heq
      omega
    constructor
    · rw [hopened, hmore]
      intro other hother
      rcases List.mem_append.1 hother with hother | hother
      · obtain ⟨i, hi, hid⟩ := h.issued other hother
        exact ⟨i, by omega, hid⟩
      · rw [List.mem_singleton.1 hother]
        exact ⟨u.opens, by omega, hconn⟩
    · rw [hopened]
      intro a ha b hb heq
      rcases List.mem_append.1 ha with ha | ha <;> rcases List.mem_append.1 hb with hb | hb
      · exact h.distinct a ha b hb heq
      · rw [List.mem_singleton.1 hb] at heq
        exact absurd heq (hnew a ha)
      · rw [List.mem_singleton.1 ha] at heq
        exact absurd heq.symm (hnew b hb)
      · rw [List.mem_singleton.1 ha, List.mem_singleton.1 hb]

/-- Openings are not forgotten. -/
theorem opens_le (u : Usage) (deed : Deed) : u.opens ≤ (u.does deed).opens := by
  rcases u.opened_does deed with ⟨hsame, -⟩ | ⟨conn, hmore, -⟩ <;> omega

/-- **Open connections are told apart**, as long as their numbers last. -/
theorem Reachable.toldApart (h : Reachable settings faults u) (hopens : u.opens < 2 ^ 64) :
    ToldApart u := by
  induction h with
  | start => exact ⟨by simp [Usage.start], by simp [Usage.start]⟩
  | @does u deed hreachable hallowed ih =>
    have hbefore : u.opens < 2 ^ 64 := Nat.lt_of_le_of_lt (u.opens_le deed) hopens
    exact (ih hbefore).does (hreachable.sound hbefore).attached.nextConnection hopens

/-! ## A query and what is done with it -/

/-- **A client and a query that was built through a connection**, after any deeds, and any
fetches of the query through whichever connections. -/
inductive WithQuery (settings : EngineSettings) (faults : FaultPlan) (a : Connection) :
    Usage → Query → Prop where
  | built {u : Usage} {request : QueryRequest} {q : Query} (h : Reachable settings faults u)
      (ha : a ∈ u.opened) (hbuilt : ((a.buildQuery request).outcome u.client).1 = .ok q) :
      WithQuery settings faults a (u.does (.buildQuery a request)) q
  | does {u : Usage} {q : Query} {deed : Deed} (h : WithQuery settings faults a u q)
      (hallowed : u.Allows deed) : WithQuery settings faults a (u.does deed) q
  | fetched {u : Usage} {q : Query} {conn : Connection} (h : WithQuery settings faults a u q)
      (hconn : conn ∈ u.opened) :
      WithQuery settings faults a (u.does (.fetch conn q)) (conn.fetched q u.client)

namespace WithQuery

theorem reachable (h : WithQuery settings faults a u q) : Reachable settings faults u := by
  induction h with
  | built h ha _ => exact h.does ha
  | does _ hallowed ih => exact ih.does hallowed
  | fetched _ hconn ih => exact ih.does hconn

/-- **A query keeps the stamp** of the connection that built it. -/
theorem stamped (h : WithQuery settings faults a u q) :
    q.handle.connection = a.handle.connection := by
  induction h with
  | built _ _ hbuilt => exact Connection.connection_of_buildQuery hbuilt
  | does _ _ ih => exact ih
  | @fetched u q conn _ _ ih => rw [conn.handle_fetched, ih]

end WithQuery

/-- **A query is of no use at another connection, but is refused there only until it is
exhausted.** However a query was fetched from since it was built through one connection, and
whatever else happened, another open connection does not free it. A fetch through that connection
is refused for the handle, as long as no fetch has found the rows to have run out. After that it
ends like a fetch through the query's own connection. Either way the query stays as it is, and so
do the client and all regions. -/
theorem foreign_query_passes_exhausted (h : WithQuery settings faults a u q)
    (hopens : u.opens < 2 ^ 64) (ha : a ∈ u.opened) (hb : b ∈ u.opened) (hne : b ≠ a) :
    let refusal := ClientError.engine (.badQuery .foreignQuery)
    refusal.code = .invalidHandle ∧
      (b.freeQuery q).outcome u.client = (.error refusal, u.client) ∧
      (q.isExhausted = false → (b.fetch q).outcome u.client = (.error refusal, u.client)) ∧
      (q.isExhausted = true → (b.fetch q).outcome u.client = (.ok (none, q), u.client)) ∧
      b.fetched q u.client = q ∧ u.does (.fetch b q) = u := by
  intro refusal
  have htold := h.reachable.toldApart hopens
  have hforeign : q.handle.connection ≠ b.handle.connection := by
    rw [h.stamped]
    exact fun heq => hne (htold.distinct a ha b hb heq).symm
  have hrefused : q.isExhausted = false →
      (b.fetch q).outcome u.client = (.error refusal, u.client) :=
    Connection.outcome_fetch_foreign hforeign
  have hpasses : q.isExhausted = true →
      (b.fetch q).outcome u.client = (.ok (none, q), u.client) := fun hspent => by
    rw [Connection.outcome_fetch_eq, if_pos hspent]
  refine ⟨rfl, Connection.outcome_freeQuery_foreign hforeign, hrefused, hpasses, ?_, ?_⟩
  · unfold Connection.fetched
    cases hspent : q.isExhausted with
    | false => rw [hrefused hspent]
    | true => rw [hpasses hspent]
  · have hclient : ((b.fetch q).outcome u.client).2 = u.client := by
      cases hspent : q.isExhausted with
      | false => rw [hrefused hspent]
      | true => rw [hpasses hspent]
    simp only [does, carry, hclient]

/-- The first of two connections to one region. -/
def firstOfTwo : Connection := ⟨Engine.firstShared, .ofShared "shared" 0⟩

/-- The second one. -/
def secondOfTwo : Connection := ⟨Engine.secondShared, .ofShared "shared" 0⟩

/-- Both are open. -/
def twoOpened : Usage :=
  ((start {} {}).does (.openWith firstOfTwo.settings)).does (.openWith secondOfTwo.settings)

/-- The query that the first one builds over the empty region. -/
def firstQuery : Query := { handle := firstOfTwo.handle.query ⟨0, 0⟩ }

/-- The query is refused through the second connection while it is new, and passes there once it
was fetched from. -/
theorem foreign_query_passes_exhausted_shared :
    let built := twoOpened.does (.buildQuery firstOfTwo {})
    let fetched := built.does (.fetch firstOfTwo firstQuery)
    let spent := firstOfTwo.fetched firstQuery built.client
    spent.isExhausted = true ∧
      ((secondOfTwo.fetch firstQuery).outcome built.client).1 =
        .error (.engine (.badQuery .foreignQuery)) ∧
      ((secondOfTwo.fetch spent).outcome fetched.client).1 = .ok (none, spent) ∧
      fetched.does (.fetch secondOfTwo spent) = fetched := by
  intro built fetched spent
  have hreachable : Reachable {} {} twoOpened := .does (.does .start trivial) trivial
  have hbuilt : WithQuery {} {} firstOfTwo built firstQuery :=
    .built hreachable List.mem_cons_self rfl
  have hfirst : firstOfTwo ∈ built.opened := List.mem_cons_self
  have hsecond : secondOfTwo ∈ built.opened := List.mem_cons_of_mem _ List.mem_cons_self
  have hspent : spent.isExhausted = true := rfl
  obtain ⟨-, -, hrefused, -⟩ :=
    foreign_query_passes_exhausted hbuilt (by decide) hfirst hsecond (by decide)
  obtain ⟨-, -, -, hpasses, -, hkept⟩ :=
    foreign_query_passes_exhausted (hbuilt.fetched hfirst) (by decide) hfirst hsecond (by decide)
  exact ⟨hspent, congrArg Prod.fst (hrefused rfl), congrArg Prod.fst (hpasses hspent), hkept⟩

/-- A query that is exhausted is not bound to the connection that built it. -/
theorem exhausted_query_not_bound :
    let built := twoOpened.does (.buildQuery firstOfTwo {})
    let spent : Query := { firstQuery with isExhausted := true }
    firstOfTwo.handle.connection ≠ secondOfTwo.handle.connection ∧
      ((firstOfTwo.buildQuery {}).outcome twoOpened.client).1 = .ok firstQuery ∧
      ((firstOfTwo.fetch firstQuery).outcome built.client).1 = .ok (none, spent) ∧
      ((secondOfTwo.fetch spent).outcome (built.does (.fetch firstOfTwo firstQuery)).client).1 =
        .ok (none, spent) :=
  ⟨by decide, rfl, rfl, rfl⟩

end Usage

end RecordStore
