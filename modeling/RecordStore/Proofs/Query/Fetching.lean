import RecordStore.Proofs.Client.Actions
import RecordStore.Proofs.Query.Cursor
import RecordStore.Proofs.Query.Isolation
import RecordStore.Proofs.Query.Prefetch
/-!
# Fetching — what a query returns, whatever else happens

After a query was built, fetches from it and other calls come in any order.
The fetches return what the cursor yields by what is live at the moment of
each (`Offers.fetches_eq`), and each record that is returned can be used at
that moment (`Offers.length_fetches`).
-/

namespace RecordStore

/-- What can happen after a query was built: a fetch from it, or another call. -/
inductive Later where
  | fetch
  | other (call : Call)

/-- A fetch from a query: the engine before it, the answer, and the engine after it. -/
structure Fetch where
  before : Engine
  answer : Except Error Reply
  after : Engine

namespace Engine

variable {e e' : Engine} {db : DbHandle} {place : Nat} {key : SlotKey} {cursor : Cursor}
variable {call : Call} {r : Region}

/-! ## One fetch -/

/-- A region fetches what its cursor says. -/
theorem Offers.perform_fetch (h : e.Offers place db key cursor) :
    ∃ r, e.resolve db = .ok (place, r) ∧ r.queries.get? key = some cursor ∧
      e.perform (.fetch db (db.query key)) =
        (.ok (.recordOrEnd ((cursor.advance (e.isLive place)).1.map db.record)),
          e.putRegion place { r with
            queries := r.queries.replace key (cursor.advance (e.isLive place)).2 }) := by
  obtain ⟨r, hresolve, -, hget, hconnection⟩ := h
  have hcheck : e.precheck (.fetch db (db.query key)) = .ok () := if_pos ⟨rfl, rfl⟩
  have hquery : r.query db.connection key = .ok cursor :=
    Region.query_eq_ok_iff.2 ⟨hget, hconnection⟩
  refine ⟨r, hresolve, hget, ?_⟩
  rw [perform_of_resolve rfl rfl hcheck hresolve, isLive_eq (getElem?_of_resolve hresolve)]
  simp only [Region.serve, Region.fetch, DbHandle.query, hquery]
  rfl

/-- **A fetch returns what the cursor yields, and leaves the rest to be fetched.** -/
theorem Offers.fetch (h : e.Offers place db key cursor) :
    (e.perform (.fetch db (db.query key))).1 =
        .ok (.recordOrEnd ((Cursor.fromLive (e.isLive place) cursor.remaining).head?.map
          db.record)) ∧
      (e.perform (.fetch db (db.query key))).2.Offers place db key
        (cursor.advance (e.isLive place)).2 := by
  obtain ⟨r, hresolve, hget, hperform⟩ := h.perform_fetch
  obtain ⟨r', hresolve', hcoherent, -, hconnection⟩ := h
  rw [hresolve] at hresolve'
  cases hresolve'
  rw [hperform, ← Cursor.advance_fst]
  refine ⟨rfl, _, resolve_putRegion hresolve rfl, ?_, ?_, hconnection⟩
  · exact hcoherent.congr rfl rfl rfl (hcoherent.queries.replace _ _)
  · exact (SlotTable.get?_replace hget).trans (if_pos rfl)

/-- **Past the end** a fetch finds nothing and changes nothing at all. -/
theorem Offers.fetch_of_end (h : e.Offers place db key cursor) (hend : cursor.remaining = []) :
    e.perform (.fetch db (db.query key)) = (.ok (.recordOrEnd none), e) := by
  obtain ⟨r, hresolve, hget, hperform⟩ := h.perform_fetch
  rw [hperform, Cursor.advance_of_remaining_nil hend]
  refine Prod.ext rfl ?_
  simp only [SlotTable.replace_self hget]
  exact putRegion_self (getElem?_of_resolve hresolve)

/-- A live record can be asked for its length. -/
theorem perform_length {rec : Record} {row : SlotKey} (hresolve : e.resolve db = .ok (place, r))
    (hrec : r.records.get? row = some rec) :
    (e.perform (.length db (db.record row))).1 = .ok (.length rec.fields.size) := by
  have hcheck : e.precheck (.length db (db.record row)) = .ok () := if_pos ⟨rfl, rfl⟩
  rw [perform_of_resolve rfl rfl hcheck hresolve]
  simp only [Region.serve, Region.length, Region.record, DbHandle.record, hrec]
  rfl

/-- **A record that is returned can be used at that moment.** -/
theorem Offers.length_fetched (h : e.Offers place db key cursor) {rec : RecordHandle}
    (hrec : (e.perform (.fetch db (db.query key))).1 = .ok (.recordOrEnd (some rec))) :
    ∃ n, ((e.perform (.fetch db (db.query key))).2.perform (.length db rec)).1 =
      .ok (.length n) := by
  obtain ⟨r, hresolve, -, hperform⟩ := h.perform_fetch
  rw [h.fetch.1, Except.ok.injEq, Reply.recordOrEnd.injEq, Option.map_eq_some_iff] at hrec
  obtain ⟨row, hrow, rfl⟩ := hrec
  have hlive := Cursor.isLive_of_head hrow
  rw [isLive_eq (getElem?_of_resolve hresolve), SlotTable.contains] at hlive
  obtain ⟨found, hfound⟩ := Option.isSome_iff_exists.1 hlive
  rw [hperform]
  exact ⟨_, perform_length (resolve_putRegion hresolve rfl) hfound⟩

/-! ## A series of fetches -/

/-- The engine after what happens. -/
def follow (e : Engine) (db : DbHandle) (q : QueryHandle) : Later → Engine
  | .fetch => (e.perform (.fetch db q)).2
  | .other call => (e.perform call).2

/-- All other calls leave the query alone. -/
def Undisturbed (db : DbHandle) (q : QueryHandle) (e : Engine) : List Later → Prop
  | [] => True
  | .fetch :: later => Undisturbed db q (e.follow db q .fetch) later
  | .other call :: later => call.Spares e q ∧ Undisturbed db q (e.follow db q (.other call)) later

/-- The fetches among what happens, in their order. -/
def fetches (db : DbHandle) (q : QueryHandle) (e : Engine) : List Later → List Fetch
  | [] => []
  | .fetch :: later =>
    ⟨e, (e.perform (.fetch db q)).1, (e.perform (.fetch db q)).2⟩ ::
      fetches db q (e.follow db q .fetch) later
  | .other call :: later => fetches db q (e.follow db q (.other call)) later

/-- **The fetches from a query return what its cursor yields**, by what is live at the moment
of each. -/
theorem Offers.fetches_eq (h : e.Offers place db key cursor) (later : List Later)
    (hlater : Undisturbed db (db.query key) e later) :
    (fetches db (db.query key) e later).map Fetch.answer =
      (Cursor.yields cursor.remaining ((fetches db (db.query key) e later).map fun f =>
        f.before.isLive place)).map fun row => .ok (.recordOrEnd (row.map db.record)) := by
  induction later generalizing e cursor with
  | nil => rfl
  | cons step later ih =>
    cases step with
    | fetch =>
      -- The first fetch takes one row, and the other fetches yield what remains.
      obtain ⟨hanswer, hoffers⟩ := h.fetch
      have hrest := ih hoffers hlater
      rw [Cursor.remaining_advance] at hrest
      simp only [fetches, List.map_cons, Cursor.yields, hanswer]
      exact congrArg _ hrest
    | other call => exact ih (h.other hlater.1) hlater.2

/-- **Each record that is returned can be used at that moment.** -/
theorem Offers.length_fetches (h : e.Offers place db key cursor) (later : List Later)
    (hlater : Undisturbed db (db.query key) e later) :
    ∀ f ∈ fetches db (db.query key) e later, ∀ rec, f.answer = .ok (.recordOrEnd (some rec)) →
      ∃ n, (f.after.perform (.length db rec)).1 = .ok (.length n) := by
  induction later generalizing e cursor with
  | nil => simp [fetches]
  | cons step later ih =>
    cases step with
    | fetch =>
      intro f hf rec hrec
      rcases List.mem_cons.1 hf with rfl | hf
      · exact h.length_fetched hrec
      · exact ih h.fetch.2 hlater f hf rec hrec
    | other call => exact ih (h.other hlater.1) hlater.2

end Engine

end RecordStore
