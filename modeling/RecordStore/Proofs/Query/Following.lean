import RecordStore.Proofs.Query.Building
import RecordStore.Proofs.Query.Fetching
/-!
# Following — a query from its building to its end

What a client returns of a query is what the engine returns, although the
client no longer asks once the rows have run out; and the client counts it
(`Connection.fetches_eq`). With the rows that the engine prefetched this
says for every built query what all later fetches return
(`fetches_follow_rows`).
-/

namespace RecordStore

namespace Query

/-- The query after fetches have given records or found none. -/
def after (q : Query) (rows : List (Option RecordHandle)) : Query := rows.foldl advanced q

/-- **A query counts the records it has given, and knows whether it has found none.** -/
theorem after_eq {α : Type} [DecidableEq α] (q : Query) (record : α → RecordHandle)
    (rows : List (Option α)) :
    q.after (rows.map (Option.map record)) = { q with
      fetched := q.fetched + (rows.filterMap id).length
      isExhausted := q.isExhausted || decide (none ∈ rows) } := by
  induction rows generalizing q with
  | nil => simp [after]
  | cons row rows ih =>
    have hstep : q.after ((row :: rows).map (Option.map record)) =
      (q.advanced (row.map record)).after (rows.map (Option.map record)) := rfl
    rw [hstep, ih]
    cases row with
    | none => simp [advanced]
    | some key =>
      simp [advanced]
      omega

end Query

namespace Client

/-- The client after another call has reached its engine. -/
def hear (c : Client) (call : Call) : Client := { c with engine := (c.engine.perform call).2 }

end Client

namespace Connection

variable {conn : Connection} {c : Client} {q : Query} {key : SlotKey} {cursor : Cursor}
variable {place : Nat}

/-- The answers of a client to the fetches from a query, in their order, and the query after
them. A fetch that fails leaves the query as it is. -/
def fetches (conn : Connection) (c : Client) (q : Query) :
    List Later → List (Except ClientError (Option RecordHandle)) × Query
  | [] => ([], q)
  | .other call :: later => conn.fetches (c.hear call) q later
  | .fetch :: later =>
    match (conn.fetch q).outcome c with
    | (.error err, c) => (conn.fetches c q later).map (.error err :: ·) id
    | (.ok (row, q), c) => (conn.fetches c q later).map (.ok row :: ·) id

/-- Before the rows have run out, a client gives what the engine gives. -/
theorem fetch_asked (h : c.engine.Offers place conn.handle key cursor)
    (hq : q.handle = conn.handle.query key) (hmore : q.isExhausted = false) :
    let row := (Cursor.fromLive (c.engine.isLive place) cursor.remaining).head?.map
      conn.handle.record
    (conn.fetch q).outcome c =
      (.ok (row, q.advanced row), c.hear (.fetch conn.handle q.handle)) := by
  intro row
  have hanswer : (c.engine.perform (.fetch conn.handle q.handle)).1 = .ok (.recordOrEnd row) := by
    rw [hq]
    exact h.fetch.1
  have hreword : c.engine.perform (.fetch conn.handle q.handle) =
    reword .recordOrEnd (c.engine.fetch conn.handle q.handle) := rfl
  simp only [fetch, hmore, Bool.false_eq_true, if_false, Action.outcome_bind,
    Action.outcome_change, Client.hear]
  rw [hreword] at hanswer ⊢
  generalize c.engine.fetch conn.handle q.handle = fetched at hanswer ⊢
  obtain ⟨answer, e⟩ := fetched
  cases answer with
  | error err => cases hanswer
  | ok found =>
    cases hanswer
    rfl

/-- **A client gives what the engine gives**, and goes on as if it had asked, also when it has
not. -/
theorem fetch_eq (h : c.engine.Offers place conn.handle key cursor)
    (hq : q.handle = conn.handle.query key)
    (hend : q.isExhausted = true → cursor.remaining = []) :
    let row := (Cursor.fromLive (c.engine.isLive place) cursor.remaining).head?.map
      conn.handle.record
    (conn.fetch q).outcome c =
      (.ok (row, q.advanced row), c.hear (.fetch conn.handle q.handle)) := by
  cases hflag : q.isExhausted with
  | false => exact fetch_asked h hq hflag
  | true =>
    -- The client did not ask, but the engine would have found nothing and stayed as it is.
    have hsame : c.hear (.fetch conn.handle q.handle) = c := by
      rw [hq, Client.hear, h.fetch_of_end (hend hflag)]
    have hquery : q.advanced none = q := by
      obtain ⟨handle, fetched, flag⟩ := q
      cases hflag
      rfl
    rw [hend hflag, hsame]
    simp only [fetch, hflag, if_true, Cursor.fromLive, List.dropWhile_nil, List.head?_nil,
      Option.map_none, hquery]
    rfl

/-- The query knows that nothing is left, if it does. -/
theorem remaining_of_exhausted {isLive : SlotKey → Bool} (record : SlotKey → RecordHandle)
    (hend : q.isExhausted = true → cursor.remaining = [])
    (h : (q.advanced ((Cursor.fromLive isLive cursor.remaining).head?.map
      record)).isExhausted = true) :
    (cursor.advance isLive).2.remaining = [] := by
  rw [Cursor.remaining_advance]
  cases hrow : (Cursor.fromLive isLive cursor.remaining).head? with
  | none => rw [Cursor.fromLive_eq_nil hrow, List.tail_nil]
  | some row =>
    -- A query that gives a row was not exhausted before, nor is it now.
    rw [hrow] at h
    rw [hend h]
    rfl

/-- **A client gives what the cursor of the query yields**, and counts it. -/
theorem fetches_eq (h : c.engine.Offers place conn.handle key cursor)
    (hq : q.handle = conn.handle.query key)
    (hend : q.isExhausted = true → cursor.remaining = []) (later : List Later)
    (hlater : Engine.Undisturbed conn.handle q.handle c.engine later) :
    let rows := (Cursor.yields cursor.remaining
      ((Engine.fetches conn.handle q.handle c.engine later).map fun f =>
        f.before.isLive place)).map (Option.map conn.handle.record)
    conn.fetches c q later = (rows.map .ok, q.after rows) := by
  induction later generalizing c q cursor with
  | nil => rfl
  | cons step later ih =>
    cases step with
    | other call => exact ih (c := c.hear call) (h.other (hq ▸ hlater.1)) hq hend hlater.2
    | fetch =>
      have hoffers : (c.hear (.fetch conn.handle q.handle)).engine.Offers place conn.handle key
          (cursor.advance (c.engine.isLive place)).2 := by
        rw [hq]
        exact h.fetch.2
      have hhandle (row : Option RecordHandle) : (q.advanced row).handle = q.handle := by
        cases row <;> rfl
      have hrest := ih hoffers ((hhandle _).trans hq)
        (remaining_of_exhausted conn.handle.record hend) (by rw [hhandle]; exact hlater)
      rw [hhandle, Cursor.remaining_advance] at hrest
      intro rows
      simp only [fetches, fetch_eq h hq hend, hrest]
      rfl

end Connection

namespace Engine

variable {e' : Engine} {db : DbHandle} {place : Nat} {r : Region} {q : QueryHandle}
variable {template : Option RecordHandle} {conditions : List Condition} {limit : Nat}

/-- A query that was built is offered, with rows that are all different. -/
theorem offers_of_built {e : Engine} (he : ∀ (p : Nat) r, e.regions[p]? = some r → r.Coherent)
    (h : e.resolve db = .ok (place, r))
    (hbuilt : e.perform (.buildQuery db template conditions limit) = (.ok (.query q), e')) :
    ∃ key r' cursor, q = db.query key ∧ e'.resolve db = .ok (place, r') ∧
      r'.queries.get? key = some cursor ∧ cursor.passed = 0 ∧ cursor.rows.Nodup ∧
      e'.Offers place db key cursor := by
  have hc := he place r (getElem?_of_resolve h)
  obtain ⟨key, r', cursor, hreply, hresolve, hget, hconnection, hpassed, hrows⟩ :=
    rows_of_perform hc h (congrArg Prod.fst hbuilt)
  cases hreply
  have hafter := coherent_perform he _ place r' (getElem?_of_resolve hresolve)
  rw [hbuilt] at hresolve
  refine ⟨key, r', cursor, rfl, hresolve, hget, hpassed, ?_, r', hresolve, hafter, hget,
    hconnection⟩
  rw [hrows]
  refine (cut_sublist _ _).nodup ?_
  exact (List.filter_sublist.map _).nodup hc.listing_nodup

/-- **The fetches from a query return exactly its rows that are live when they are passed**, in
their order, each at most once, and then nothing for ever, whatever other calls come in
between. Each record that is returned can be used at that moment. Only the creation and deletion
of records, of all calls, change what is live. A client gives the same, counts the records it
has given, and knows whether it has found none. -/
theorem fetches_follow_rows {settings : EngineSettings} {calls : List Call}
    (h : ((start settings).run calls).resolve db = .ok (place, r))
    (hbuilt : ((start settings).run calls).perform (.buildQuery db template conditions limit) =
      (.ok (.query q), e'))
    (later : List Later) (hlater : Undisturbed db q e' later) :
    ∃ r' cursor, e'.resolve db = .ok (place, r') ∧ r'.queries.get? q.key = some cursor ∧
      cursor.passed = 0 ∧
      (let moments := (fetches db q e' later).map fun f => f.before.isLive place
      let returned := Cursor.yields cursor.rows moments
      Cursor.Exact cursor.rows moments returned ∧
      (fetches db q e' later).map Fetch.answer =
        returned.map (fun row => .ok (.recordOrEnd (row.map db.record))) ∧
      (∀ f ∈ fetches db q e' later, ∀ rec, f.answer = .ok (.recordOrEnd (some rec)) →
        ∃ n, (f.after.perform (.length db rec)).1 = .ok (.length n)) ∧
      ∀ (c : Client) (conn : Connection), c.engine = e' → conn.handle = db →
        conn.fetches c { handle := q } later =
          (returned.map fun row => .ok (row.map db.record),
            { handle := q, fetched := (returned.filterMap id).length,
              isExhausted := decide (none ∈ returned) })) ∧
      ∀ (e : Engine) (call : Call), (∀ d length, call ≠ .create d length) →
        (∀ d rec, call ≠ .delete d rec) → (e.perform call).2.isLive place = e.isLive place := by
  obtain ⟨key, r', cursor, rfl, hresolve, hget, hpassed, hnodup, hoffers⟩ :=
    offers_of_built (fun _ _ => coherent_run) h hbuilt
  have hremaining : cursor.remaining = cursor.rows := by
    rw [Cursor.remaining, hpassed, List.drop_zero]
  have hanswers := hoffers.fetches_eq later hlater
  rw [hremaining] at hanswers
  refine ⟨r', cursor, hresolve, hget, hpassed, ⟨Cursor.exact_yields hnodup _, hanswers,
    hoffers.length_fetches later hlater, ?_⟩, fun e call => isLive_perform⟩
  rintro c conn rfl rfl
  rw [Connection.fetches_eq hoffers rfl (by simp) later hlater, Query.after_eq, hremaining,
    List.map_map]
  simp only [Nat.zero_add, Bool.false_or]
  rfl

/-- What happens while three rows are fetched: the second record is deleted, and its slot is
filled again, before its turn comes. -/
def refilledSlot : List Later :=
  [.fetch, .other (.delete firstLocal (firstLocal.record ⟨1, 0⟩)), .other (.create firstLocal 1),
    .fetch, .fetch, .fetch]

/-- The second row is passed over, and the record that fills its slot does not come. -/
theorem fetches_follow_rows_refilled :
    ∃ e', ((start {}).run threeRecords).perform (.buildQuery firstLocal none [] 0) =
        (.ok (.query (firstLocal.query ⟨0, 0⟩)), e') ∧
      (fetches firstLocal (firstLocal.query ⟨0, 0⟩) e' refilledSlot).map Fetch.answer =
        [.ok (.recordOrEnd (some (firstLocal.record ⟨0, 0⟩))),
          .ok (.recordOrEnd (some (firstLocal.record ⟨2, 0⟩))),
          .ok (.recordOrEnd none), .ok (.recordOrEnd none)] := by
  obtain ⟨r, hr⟩ : ∃ r, ((start {}).run threeRecords).resolve firstLocal = .ok (0, r) := ⟨_, rfl⟩
  obtain ⟨e', hbuilt, r', hr', hget, hlater, hreturned⟩ : ∃ e',
      ((start {}).run threeRecords).perform (.buildQuery firstLocal none [] 0) =
        (.ok (.query (firstLocal.query ⟨0, 0⟩)), e') ∧
      ∃ r', e'.resolve firstLocal = .ok (0, r') ∧
        (r'.queries.get? ⟨0, 0⟩).map Cursor.rows = some [⟨0, 0⟩, ⟨1, 0⟩, ⟨2, 0⟩] ∧
        Undisturbed firstLocal (firstLocal.query ⟨0, 0⟩) e' refilledSlot ∧
        Cursor.yields [⟨0, 0⟩, ⟨1, 0⟩, ⟨2, 0⟩]
          ((fetches firstLocal (firstLocal.query ⟨0, 0⟩) e' refilledSlot).map fun f =>
            f.before.isLive 0) = [some ⟨0, 0⟩, some ⟨2, 0⟩, none, none] :=
    ⟨_, rfl, _, rfl, by decide, ⟨trivial, trivial, trivial⟩, by decide⟩
  obtain ⟨s, cursor, hs, hcursor, -, ⟨-, hanswers, -, -⟩, -⟩ :=
    fetches_follow_rows hr hbuilt refilledSlot hlater
  rw [hr'] at hs
  cases hs
  rw [show (firstLocal.query ⟨0, 0⟩).key = ⟨0, 0⟩ from rfl] at hcursor
  rw [hcursor, Option.map_some, Option.some.injEq] at hget
  rw [hget, hreturned] at hanswers
  exact ⟨e', hbuilt, hanswers⟩

end Engine

end RecordStore
