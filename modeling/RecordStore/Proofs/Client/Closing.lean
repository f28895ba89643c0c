import RecordStore.Proofs.Client.Tracking
/-!
# Closing — a connection leaves nothing behind

When a connection is closed, what is outstanding on it is given back, in
whichever order, and its attachment ends. Since nothing that it obtained is
missing there, nothing of it stays in the engine; and since nothing else is
there that still counts, nobody else notices (`closing_gives_back`).
-/

namespace RecordStore

namespace Usage

variable {u : Usage} {settings : EngineSettings} {faults : FaultPlan} {t : LockToken}
variable {a b : ConnectionId}

/-- A token is granted through one connection. -/
theorem LocksTracked.connection_eq (h : LocksTracked u) (ha : (a, t) ∈ u.granted)
    (hb : (b, t) ∈ u.granted) : a = b :=
  congrArg Prod.fst (List.inj_on_of_nodup_map h.numbered.distinct ha hb rfl)

/-- **A connection is closed and gone**, and all else is as it was. The region at the place of
the connection is `r` before and `r'` after it. -/
structure Closes (u : Usage) (conn : Connection) (u' : Usage) (place : Nat) (r r' : Region) :
    Prop where
  resolved : u.client.engine.resolve conn.handle = .ok (place, r)
  region : u'.client.engine.regions[place]? = some r'
  /-- No query that it built is live. -/
  queries_gone : ∀ key cursor, r'.queries.get? key = some cursor →
    cursor.connection ≠ conn.handle.connection
  /-- No lock that was granted through it is held, in whichever region. -/
  locks_gone : ∀ t, (conn.handle.connection, t) ∈ u.granted →
    ∀ p, ¬ u'.client.engine.HeldAt p t
  detached : u'.client.engine.attachments.find? conn.handle.connection = none
  attached : r'.attached + 1 = r.attached
  forgotten : u'.client.held conn.handle.connection = {}
  identity : Region.SameIdentity r r'
  records : Region.SameRecords r r'
  /-- The queries of others are live as they were, with their cursors. -/
  queries_kept : ∀ key cursor, cursor.connection ≠ conn.handle.connection →
    (r'.queries.get? key = some cursor ↔ r.queries.get? key = some cursor)
  /-- The locks that were granted through others are held as they were. -/
  locks_kept : ∀ c t, c ≠ conn.handle.connection → (c, t) ∈ u.granted →
    ∀ p, u'.client.engine.HeldAt p t ↔ u.client.engine.HeldAt p t
  /-- Those who wait are not let in by the closing itself. -/
  waiting : r'.lock.waitingWriters = r.lock.waitingWriters
  regions_kept : ∀ p, p ≠ place → u'.client.engine.regions[p]? = u.client.engine.regions[p]?
  attachments_kept : ∀ c, c ≠ conn.handle.connection →
    u'.client.engine.attachments.find? c = u.client.engine.attachments.find? c
  named : u'.client.engine.named = u.client.engine.named

/-- **The closing of a connection**, in whichever order its queries are freed. -/
theorem Reachable.closes {conn : Connection} {order : List QueryHandle}
    (h : Reachable settings faults u) (hopens : u.opens < 2 ^ 64)
    (hgrants : u.granted.length < 2 ^ 64) (hallowed : u.Allows (.close conn order)) :
    ((conn.closeIn order).outcome u.client).1 = .ok () ∧
      ∃ place r r', Closes u conn (u.does (.close conn order)) place r r' := by
  have hconn := hallowed.1
  have hbefore := h.tracked hopens hgrants
  have hafter := (h.does hallowed).tracked hopens hgrants
  have hsound := h.sound hopens
  obtain ⟨place, r, hr, hlocal⟩ := hbefore.opened.standsFor conn hconn
  have hget := Engine.getElem?_of_resolve hr
  obtain ⟨r', hback, houtcome⟩ := Connection.outcome_closeIn order hr hlocal
    (hbefore.locks.nodup place r hget)
  refine ⟨by rw [houtcome], place, r, r'.detach conn.handle.connection, ?_⟩
  have hclosed : u.does (.close conn order) = { u with
      client := ((conn.closeIn order).outcome u.client).2
      opened := u.opened.filter fun other => other ≠ conn } := rfl
  rw [houtcome] at hclosed
  rw [hclosed] at hafter ⊢
  have hpos := hsound.attached.attached_pos hr
  have hattached := hback.frame.attached
  exact {
    resolved := hr
    region := (Engine.getElem?_putRegion hget place).trans (if_pos rfl)
    queries_gone := fun key cursor hcursor => (hback.get?_detach_iff.1 hcursor).2
    locks_gone := fun t hgranted p hheld => by
      -- Whatever is held was granted through a connection that is still open.
      obtain ⟨other, hother, hmem⟩ := hafter.locks.held p t hheld
      obtain ⟨hopen, hne⟩ := List.mem_filter.1 hother
      have hsame := hbefore.locks.connection_eq
        (hafter.locks.granted other hother t hmem).1 hgranted
      exact of_decide_eq_true hne (hbefore.opened.distinct other hopen conn hconn hsame)
    detached := Directory.find?_erase_self _ _
    attached := by
      show r'.attached - 1 + 1 = r.attached
      omega
    forgotten := (congrFun (Client.held_erase u.client _ conn.handle.connection) _).trans
      (Function.update_self _ _ _)
    identity := hback.frame.same.trans (.detach r' conn.handle.connection)
    records := hback.records.trans ⟨rfl, rfl, rfl, rfl⟩
    queries_kept := fun key cursor hother =>
      hback.get?_detach_iff.trans (and_iff_left hother)
    locks_kept := fun c t hc hgranted p => by
      have hmem : t ∉ (u.client.held conn.handle.connection).locks := fun hmem =>
        hc (hbefore.locks.connection_eq hgranted (hbefore.locks.granted conn hconn t hmem).1)
      have hput : (u.client.engine.putRegion place
          (r'.detach conn.handle.connection)).HeldAt p t ↔ _ := Engine.heldAt_putRegion hget
      refine hput.trans ?_
      by_cases hp : p = place
      · have hkept : (r'.detach conn.handle.connection).HoldsFor t ↔ r.HoldsFor t :=
          (hback.holdsFor_iff t).trans (and_iff_left hmem)
        simp only [hp, Engine.heldAt_iff hget, hkept, true_and, ne_eq, not_true, false_and,
          or_false]
      · simp only [hp, false_and, ne_eq, not_false_eq_true, true_and, false_or]
    waiting := hback.waitingWriters
    regions_kept := fun p hp => (Engine.getElem?_putRegion hget p).trans (if_neg hp)
    attachments_kept := fun c hc => (Directory.find?_erase _ _ _).trans (if_neg (Ne.symm hc))
    named := rfl }

/-- What is in use after the program has closed a connection. -/
def closed (u : Usage) (conn : Connection) : Usage :=
  { u with
    client := (conn.close.outcome u.client).2
    opened := u.opened.filter fun other => other ≠ conn }

/-- The program frees the queries of a connection in one of the orders that are allowed. -/
theorem closed_eq_does (u : Usage) (conn : Connection) :
    u.closed conn =
      u.does (.close conn (u.client.held conn.handle.connection).queries) := rfl

/-- **A connection gives back all that it obtained, and nothing else.** Whatever was done with a
client, and however much of it failed or was left undone, each live query that was built through
an open connection and each lock that is held and was granted through it is outstanding on it. So
when it is closed, in whichever order its queries are freed, none of them is left, its attachment
is gone, and all else is as it was. The order of the program is one of them, and to drop a
connection does the same. -/
theorem closing_gives_back (h : Reachable settings faults u) (hopens : u.opens < 2 ^ 64)
    (hgrants : u.granted.length < 2 ^ 64) {conn : Connection} (hconn : conn ∈ u.opened) :
    (∀ (p : Nat) (r : Region) key (cursor : Cursor), u.client.engine.regions[p]? = some r →
        r.queries.get? key = some cursor → cursor.connection = conn.handle.connection →
        conn.handle.query key ∈ (u.client.held conn.handle.connection).queries) ∧
      (∀ p t, u.client.engine.HeldAt p t → (conn.handle.connection, t) ∈ u.granted →
        t ∈ (u.client.held conn.handle.connection).locks) ∧
      (∀ order, order.Perm (u.client.held conn.handle.connection).queries →
        ((conn.closeIn order).outcome u.client).1 = .ok () ∧
          ∃ place r r', Closes u conn (u.does (.close conn order)) place r r') ∧
      (conn.close.outcome u.client).1 = .ok () ∧
      conn.close.regardless.outcome u.client = conn.close.outcome u.client ∧
      ∃ place r r', Closes u conn (u.closed conn) place r r' := by
  have htracked := h.tracked hopens hgrants
  obtain ⟨hok, hclosed⟩ := h.closes hopens hgrants ⟨hconn, List.Perm.refl _⟩
  rw [← Connection.outcome_close] at hok
  rw [← closed_eq_does] at hclosed
  refine ⟨fun p r key cursor hr hcursor hown => ?_, fun p t hheld hgranted => ?_,
    fun order horder => h.closes hopens hgrants ⟨hconn, horder⟩, hok, Prod.ext hok.symm rfl,
    hclosed⟩
  · refine (htracked.queries conn hconn _).2 ⟨p, key, rfl, ?_⟩
    rw [Engine.ownerAt_eq hr]
    exact Region.owner?_eq_some_iff.2 ⟨cursor, hcursor, hown⟩
  · obtain ⟨other, hother, hmem⟩ := htracked.locks.held p t hheld
    have hsame := htracked.locks.connection_eq
      (htracked.locks.granted other hother t hmem).1 hgranted
    rwa [hsame] at hmem

/-- Two connections to one region: the first one builds a query and leaves it, and its lock is
given back through the second one, which holds another. -/
def borrowed : Usage :=
  let first : Connection := ⟨Engine.firstShared, .ofShared "shared" 0⟩
  let second : Connection := ⟨Engine.secondShared, .ofShared "shared" 0⟩
  let opened := ((start {} {}).does (.openWith first.settings)).does (.openWith second.settings)
  let locked := ((opened.does (.buildQuery first {})).does (.lock first .start .shared)).does
    (.lock second .start .shared)
  locked.does (.endLock second ⟨⟨1⟩, ⟨1⟩, .shared⟩)

/-- The first connection is closed with a query and with a token that is spent. -/
theorem closing_gives_back_borrowed :
    let first : Connection := ⟨Engine.firstShared, .ofShared "shared" 0⟩
    (borrowed.client.held ⟨1⟩).queries = [first.handle.query ⟨0, 0⟩] ∧
      (borrowed.client.held ⟨1⟩).locks = [⟨⟨1⟩, ⟨1⟩, .shared⟩] ∧
      (first.close.outcome borrowed.client).1 = .ok () ∧
      ∃ place r r', Closes borrowed first (borrowed.closed first) place r r' := by
  intro first
  have hqueries : (borrowed.client.held ⟨1⟩).queries = [first.handle.query ⟨0, 0⟩] := rfl
  have hreachable : Reachable {} {} borrowed := by
    unfold borrowed
    refine .does (.does (.does (.does (.does (.does .start trivial) trivial) ?_) ?_) ?_) ?_
    · exact List.mem_cons_self
    · exact List.mem_cons_self
    · exact List.mem_cons_of_mem _ List.mem_cons_self
    · exact List.mem_cons_of_mem _ List.mem_cons_self
  have hopened : first ∈ borrowed.opened := List.mem_cons_self
  obtain ⟨-, -, -, hok, -, hcloses⟩ :=
    closing_gives_back hreachable (by decide) (by decide) hopened
  exact ⟨hqueries, rfl, hok, hcloses⟩

end Usage

end RecordStore
