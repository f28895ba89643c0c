import RecordStore.Proofs.Query.Building
import RecordStore.Proofs.Records.Vanishing
import RecordStore.Proofs.Records.Walks
/-!
# Traversal — visiting records while they come and go

Between two visits of a traversal any calls of any connections may come, as
long as none of them ends the attachment that the traversal goes through
(`Call.Leaves`). Each visit does what `Traversal.Step` says, and the
history between two visits tells which records are still there, so the
visits are a walk (`walk_visits`).
-/

namespace RecordStore

namespace Listing

/-- What follows a record stands right behind it. -/
theorem after_eq_head? {l : List LiveRecord} {key : SlotKey} {x : LiveRecord}
    (h : lookup key l = some x) :
    ∃ earlier later, l = earlier ++ x :: later ∧ after key l = later.head? := by
  induction l with
  | nil => cases h
  | cons y l ih =>
    by_cases hy : y.key = key
    · have hx : y = x := by simpa [lookup, hy] using h
      subst hx
      exact ⟨[], l, rfl, if_pos hy⟩
    · have hrest : lookup key l = some x := by simpa [lookup, hy] using h
      obtain ⟨earlier, later, rfl, hafter⟩ := ih hrest
      exact ⟨y :: earlier, later, rfl, (if_neg hy).trans hafter⟩

end Listing

namespace Traversal

/-- The record that a traversal met last was obtained through the handle. -/
def IsOf (db : DbHandle) : Traversal → Prop
  | .after rec => Engine.checkRecord db rec = .ok ()
  | _ => True

theorem Step.isOf {db : DbHandle} {live : List SlotKey} {t t' : Traversal}
    {met : Option (Except Error RecordHandle)} (h : Step db live t met t') : t'.IsOf db := by
  cases h with
  | begun => exact if_pos ⟨rfl, rfl⟩
  | moved => exact if_pos ⟨rfl, rfl⟩
  | empty => exact trivial
  | last => exact trivial
  | lost => exact trivial
  | ended => exact trivial

end Traversal

namespace Engine

variable {e : Engine} {db : DbHandle} {place : Nat} {r : Region} {call : Call} {c : ConnectionId}
variable {calls later : List Call} {gaps : List (List Call)} {past : List Effect}
variable {t : Traversal}

/-! ## The attachment stays -/

/-- All calls of a run leave an attachment alone. -/
def LeftAlone (c : ConnectionId) (e : Engine) : List Call → Prop
  | [] => True
  | call :: calls => call.Leaves e c ∧ LeftAlone c (e.perform call).2 calls

theorem leftAlone_append :
    LeftAlone c e (calls ++ later) ↔ LeftAlone c e calls ∧ LeftAlone c (e.run calls) later := by
  induction calls generalizing e with
  | nil => simp [LeftAlone, run_nil]
  | cons call calls ih => simp [LeftAlone, ih, run_cons, and_assoc]

theorem find?_run_of_leftAlone (h : LeftAlone c e calls) :
    (e.run calls).attachments.find? c = e.attachments.find? c := by
  induction calls generalizing e with
  | nil => rfl
  | cons call calls ih =>
    rw [run_cons, ih h.2, find?_perform_of_leaves h.1]

/-- **A handle goes on to stand for its region** while its attachment is left alone. -/
theorem resolve_of_leftAlone (hr : e.resolve db = .ok (place, r))
    (h : LeftAlone db.connection e calls) :
    ∃ r', (e.run calls).resolve db = .ok (place, r') := by
  obtain ⟨hplace, hget, hid⟩ := resolve_eq_ok_iff.1 hr
  obtain ⟨r', hget', hsame⟩ := same_run calls hget
  have hkept := (find?_run_of_leftAlone h).trans hplace
  exact ⟨r', resolve_eq_ok_iff.2 ⟨hkept, hget', hsame.id.trans hid⟩⟩

/-! ## One visit -/

/-- The first visit asks for the oldest record. -/
theorem first_eq_head? (hr : e.resolve db = .ok (place, r)) (hc : r.Coherent) :
    e.first db = .ok ((e.liveKeys place).head?.map db.record) := by
  rw [liveKeys, listingAt_eq (getElem?_of_resolve hr), List.head?_map, ← hc.first_eq]
  simp only [first, askRegion, hr]
  rfl

/-- A later one asks for the record behind the one that was met last. -/
theorem next_eq_lookup {rec : RecordHandle} (hr : e.resolve db = .ok (place, r))
    (hc : r.Coherent) (hrec : checkRecord db rec = .ok ()) :
    e.next db rec = match Listing.lookup rec.key r.listing with
      | none => .error (.badRecord .recordGone)
      | some _ => .ok ((Listing.after rec.key r.listing).map fun x => db.record x.key) := by
  simp only [next, hrec, askRegion, hr, Except.bind, hc.next_eq]
  cases Listing.lookup rec.key r.listing with
  | none => rfl
  | some x => simp only [Except.map, Option.map_map, Function.comp_def]

/-- **A visit does what a traversal has to do** where these keys are live. -/
theorem step_next (hr : e.resolve db = .ok (place, r)) (hc : r.Coherent) (ht : t.IsOf db) :
    Traversal.Step db (e.liveKeys place) t (t.next e db).1 (t.next e db).2 := by
  cases t with
  | start =>
    simp only [Traversal.next, first_eq_head? hr hc]
    cases e.liveKeys place with
    | nil => exact .empty rfl
    | cons key later => exact .begun rfl
  | after rec =>
    simp only [Traversal.next, next_eq_lookup hr hc ht, liveKeys,
      listingAt_eq (getElem?_of_resolve hr)]
    cases hrec : Listing.lookup rec.key r.listing with
    | none =>
      have hgone := Listing.lookup_eq_none_iff.1 hrec
      refine .lost fun hmem => ?_
      obtain ⟨x, hx, hkey⟩ := List.mem_map.1 hmem
      exact hgone x hx hkey
    | some x =>
      obtain ⟨earlier, later, hl, hafter⟩ := Listing.after_eq_head? hrec
      have hx : x.key = rec.key := (Listing.mem_of_lookup hrec).2
      rw [hafter, hl, List.map_append, List.map_cons, hx]
      cases later with
      | nil => exact .last rfl
      | cons y later => exact .moved rfl
  | ended => exact .ended

/-! ## The visits -/

/-- **The visits of a traversal**, each after the calls of one gap. -/
def visits (place : Nat) (db : DbHandle) (past : List Effect) (e : Engine) (t : Traversal) :
    List (List Call) → List Traversal.Visit
  | [] => []
  | calls :: gaps =>
    let past' := past ++ history place e calls
    let e' := e.run calls
    ⟨past', e'.liveKeys place, (t.next e' db).1⟩ ::
      visits place db past' e' (t.next e' db).2 gaps

/-- Each visit comes after some of the calls. -/
theorem mem_visits {v : Traversal.Visit} (hv : v ∈ visits place db past e t gaps) :
    ∃ calls later, gaps.flatten = calls ++ later ∧ v.past = past ++ history place e calls ∧
      v.live = (e.run calls).liveKeys place := by
  induction gaps generalizing past e t with
  | nil => cases hv
  | cons calls gaps ih =>
    rcases List.mem_cons.1 hv with rfl | hv
    · exact ⟨calls, gaps.flatten, List.flatten_cons, rfl, rfl⟩
    · obtain ⟨more, later, hsplit, hpast, hlive⟩ := ih hv
      refine ⟨calls ++ more, later, ?_, ?_, ?_⟩
      · rw [List.flatten_cons, hsplit, List.append_assoc]
      · rw [hpast, history_append, List.append_assoc]
      · rw [hlive, run_append]

/-- **The visits are a walk**, whatever is created and deleted in between. -/
theorem walk_visits (h : Chronicle e place past) (hr : e.resolve db = .ok (place, r))
    (hleft : LeftAlone db.connection e gaps.flatten)
    (hfew : (history place e gaps.flatten).countP Effect.isDeletion < 2 ^ 32)
    (ht : t.IsOf db) : Traversal.Walk db t (visits place db past e t gaps) := by
  induction gaps generalizing past e r t with
  | nil => exact .done t
  | cons calls gaps ih =>
    rw [List.flatten_cons, leftAlone_append] at hleft
    rw [List.flatten_cons, history_append, List.countP_append] at hfew
    have hhere := h.run calls
    obtain ⟨r', hr'⟩ := resolve_of_leftAlone hr hleft.1
    have hstep := step_next hr' (hhere.coherent place r' (getElem?_of_resolve hr')) ht
    refine .visit hstep hhere.inOrder (fun w hw => ?_)
      (ih hhere hr' hleft.2 (by omega) hstep.isOf)
    obtain ⟨more, later, hsplit, hpast, hlive⟩ := mem_visits hw
    have hmore : (history place (e.run calls) more).countP Effect.isDeletion < 2 ^ 32 := by
      rw [hsplit, history_append, List.countP_append] at hfew
      omega
    refine ⟨_, hpast, fun key hkey => ⟨?_, fun hstays => ?_⟩⟩
    · rw [hlive]
      exact hhere.mem_liveKeys_run_iff hkey hmore
    · rw [hpast]
      exact hhere.born_run hkey (hlive ▸ hstays) hmore

/-- **A traversal meets the records in the order of their creation**, whatever calls of any
connections come between its visits, as long as its attachment stays and there are fewer than 2^32
deletions: each record is live when it is met, and none is met twice; when the traversal ends
without a failure it has met all that were live all the time; it fails exactly where the record met
last has been deleted, also if its slot is filled again; and then it has ended. While nothing is
created or deleted it meets all live records, and then nothing. -/
theorem traversal_follows_births {settings : EngineSettings} {before : List Call}
    (hr : ((start settings).run before).resolve db = .ok (place, r)) (gaps : List (List Call))
    (hleft : LeftAlone db.connection ((start settings).run before) gaps.flatten)
    (hfew : (history place ((start settings).run before) gaps.flatten).countP
      Effect.isDeletion < 2 ^ 32) :
    let e := (start settings).run before
    let tour := visits place db (history place (start settings) before) e .start gaps
    Traversal.Exact db tour ∧
      ((∀ eff ∈ history place e gaps.flatten, eff.isCreation = false ∧ eff.isDeletion = false) →
        ∀ (i : Nat) v, tour[i]? = some v →
          v.met = (e.liveKeys place)[i]?.map fun key => .ok (db.record key)) := by
  intro e tour
  have h : Chronicle e place (history place (start settings) before) :=
    (Chronicle.start settings place).run before
  have hwalk : Traversal.Walk db .start tour := walk_visits h hr hleft hfew trivial
  refine ⟨hwalk.exact, fun hquiet i v hv => ?_⟩
  have hsame : ∀ w ∈ tour, w.live = e.liveKeys place := by
    intro w hw
    obtain ⟨calls, later, hsplit, -, hlive⟩ := mem_visits hw
    rw [hlive, h.liveKeys_run]
    refine Effect.foldl_keysAfter fun eff heff => hquiet eff ?_
    rw [hsplit, history_append]
    exact List.mem_append_left _ heff
  exact hwalk.met_eq hsame h.inOrder.nodup rfl hv

/-- What happens between the visits of three records: the second one is deleted before its turn
and its slot is filled again; then the one in that slot is deleted when it has just been met, and
again the slot is filled. -/
def refilledBetween : List (List Call) :=
  [[], [.delete firstLocal (firstLocal.record ⟨1, 0⟩), .create firstLocal 1], [],
    [.delete firstLocal (firstLocal.record ⟨1, 1⟩), .create firstLocal 1], []]

/-- The record that fills the slot first comes last, and the one that fills it then does not
come. -/
theorem traversal_follows_births_refilled :
    let e := (start {}).run threeRecords
    let tour := visits 0 firstLocal (history 0 (start {}) threeRecords) e .start refilledBetween
    tour.map Traversal.Visit.met =
        [some (.ok (firstLocal.record ⟨0, 0⟩)), some (.ok (firstLocal.record ⟨2, 0⟩)),
          some (.ok (firstLocal.record ⟨1, 1⟩)), some (.error (.badRecord .recordGone)), none] ∧
      Traversal.Exact firstLocal tour := by
  obtain ⟨r, hr⟩ : ∃ r, ((start {}).run threeRecords).resolve firstLocal = .ok (0, r) := ⟨_, rfl⟩
  have hleft : LeftAlone firstLocal.connection ((start {}).run threeRecords)
      refilledBetween.flatten := ⟨trivial, trivial, trivial, trivial, trivial⟩
  have hfew : (history 0 ((start {}).run threeRecords) refilledBetween.flatten).countP
      Effect.isDeletion < 2 ^ 32 := by decide
  exact ⟨rfl, (traversal_follows_births hr refilledBetween hleft hfew).1⟩

end Engine

end RecordStore
