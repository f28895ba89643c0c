import Mathlib.Algebra.Order.Ring.Int
import Mathlib.Data.List.Induction
import RecordStore.Proofs.Client.Fields
import RecordStore.Proofs.Engine.Tokens
import RecordStore.Proofs.Records.History
import RecordStore.Proofs.Sections.Serial
/-!
# Counting — no update is lost

A body that reads an integer and writes one more raises it by one if it
succeeds, and leaves it if it fails (`alone_increment`). Since writers are
serial, the integer rises by as many as succeeded, whoever they were and in
whichever order their calls came (`sections_are_serial`).
-/

namespace RecordStore

/-! ## A region -/

namespace Region

variable {r r' : Region} {key : SlotKey} {index : Nat} {v : Int32}

theorem HoldsInt.relock (h : r.HoldsInt key index v) (lock : RegionLock) :
    (r.relock lock).HoldsInt key index v := h

end Region

/-! ## A body that counts -/

namespace Connection

variable {conn : Connection} {c : Client} {place : Nat} {r r' : Region} {key : SlotKey}
variable {index : Nat} {v : Int32}

/-- A request that is let in leaves the region as it was, but for its lock. -/
theorem exists_letIn (hr : c.engine.resolve conn.handle = .ok (place, r))
    (hgrant : r.lock.canGrant .exclusive = true) :
    ∃ token entered lock, (conn.startLock .exclusive).outcome c = (.ok (some token), entered) ∧
      entered.faults = c.faults ∧ entered.writes = c.writes ∧
      entered.engine = c.engine.putRegion place (r.relock lock) ∧
      (r.relock lock).HoldsFor token := by
  have hstart := outcome_startLock hr
  simp only [hgrant, if_true] at hstart
  exact ⟨_, _, (r.lock.grant .exclusive).2, hstart, rfl, rfl, rfl, rfl,
    r.lock.isHeld_grant_self .exclusive⟩

/-- Giving back a lock that is held changes the region's lock and nothing else of it. -/
theorem outcome_endLock {token : LockToken} (hr : c.engine.resolve conn.handle = .ok (place, r))
    (hheld : r.HoldsFor token) :
    ∃ lock c', (conn.endLock token).outcome c = (.ok (), c') ∧ c'.faults = c.faults ∧
      c'.engine = c.engine.putRegion place (r.relock lock) := by
  obtain ⟨counts, hend⟩ := hheld.endLock
  have hcall : c.engine.endLock conn.handle token token.mode =
      (.ok (), c.engine.putRegion place
        (r.relock { r.lock.drop token.id token.mode with counts })) := by
    simp only [Engine.endLock, Engine.onRegion, hr, hend]
  rw [endLock, Action.outcome_bind, Action.outcome_change, hcall]
  exact ⟨_, _, rfl, rfl, rfl⟩

/-- **A body that counts**, carried out at once on an integer: the write fails as the plan has
it, or one more is written. -/
theorem outcome_increment {α : Type} (result : Int32 → α)
    (hr : c.engine.resolve conn.handle = .ok (place, r)) (hget : r.HoldsInt key index v)
    (hset : r.set key index (.int (v + 1)) = (.ok (), r')) :
    ((Body.increment (conn.handle.record key) index result).action conn).outcome c =
      if c.faults.failsWrite c.writes then
        (.error (.engine (c.faults.failure c.writes)), { c with writes := c.writes + 1 })
      else
        (.ok (result v),
          { c with writes := c.writes + 1, engine := c.engine.putRegion place r' }) := by
  have hread : ((RecordCall.get (conn.handle.record key) index).action conn).outcome c =
      (.ok (some (.int v)), c) := by
    rw [RecordCall.action, outcome_get hr, hget]
    rfl
  have hwrite := outcome_set hr hset
  rw [Body.increment, Body.outcome_action_call, hread]
  change ((((conn.set (conn.handle.record key) index (.int (v + 1))).outcome c).1.map
    fun _ => result v), ((conn.set (conn.handle.record key) index (.int (v + 1))).outcome c).2) = _
  rw [hwrite]
  split <;> rfl

/-- The same under the lock. -/
theorem outcome_underLock_increment {α : Type} {token : LockToken} (result : Int32 → α)
    (hr : c.engine.resolve conn.handle = .ok (place, r)) (hheld : r.HoldsFor token)
    (hget : r.HoldsInt key index v) :
    let body := (Body.increment (conn.handle.record key) index result).action conn
    ∃ r' c', ((conn.underLock token body).outcome c).2 = c' ∧ c'.faults = c.faults ∧
      c'.engine = c.engine.putRegion place r' ∧ r'.id = r.id ∧
      ((((conn.underLock token body).outcome c).1 = .ok (result v) ∧
          r'.HoldsInt key index (v + 1)) ∨
        (∃ err, ((conn.underLock token body).outcome c).1 = .error err) ∧
          r'.HoldsInt key index v ∧ c.faults.failsWrite c.writes = true) := by
  intro body
  obtain ⟨written, hset, hwritten, hid, hlock⟩ := hget.set (v + 1)
  have hbody := outcome_increment result hr hget hset
  rw [outcome_underLock, hbody]
  split
  · rename_i hfails
    -- The write failed, and the lock is given back all the same.
    obtain ⟨lock, c', hend, hfaults, hengine⟩ :=
      outcome_endLock (c := { c with writes := c.writes + 1 }) hr hheld
    exact ⟨r.relock lock, c', congrArg Prod.snd hend, hfaults, hengine, rfl,
      .inr ⟨⟨_, rfl⟩, hget.relock lock, hfails⟩⟩
  · have hr' : (c.engine.putRegion place written).resolve conn.handle = .ok (place, written) :=
      Engine.resolve_putRegion hr hid
    have hheld' : written.HoldsFor token := ⟨hid.trans hheld.1, by rw [hlock]; exact hheld.2⟩
    obtain ⟨lock, c', hend, hfaults, hengine⟩ := outcome_endLock (c := { c with
      writes := c.writes + 1, engine := c.engine.putRegion place written }) hr' hheld'
    refine ⟨written.relock lock, c', congrArg Prod.snd hend, hfaults, ?_, hid, .inl ⟨?_, ?_⟩⟩
    · rw [hengine]
      simp only [Engine.putRegion, Array.setIfInBounds_setIfInBounds]
    · exact congrArg (fun ended => ended.1.map fun _ => result v) hend
    · exact hwritten.relock lock

end Connection

/-! ## Bodies that count -/

/-- The body succeeded. -/
def Report.succeeded {ι α : Type} (report : Report ι α) : Bool :=
  match report.result with
  | .ok (some _) => true
  | _ => false

namespace Writers

variable {ι α : Type} {c : Client} {conn : Connection} {place : Nat} {r : Region} {key : SlotKey}
variable {index : Nat} {v : Int32}

/-- **A body that counts, under the lock and by itself**, raises the integer by one if it
succeeds, and leaves it if it fails or is kept out. It fails only as the plan has it. -/
theorem alone_increment (i : ι) (result : Int32 → α)
    (hr : c.engine.resolve conn.handle = .ok (place, r)) (hget : r.HoldsInt key index v) :
    let done := alone conn c i (.increment (conn.handle.record key) index result)
    ∃ r', done.2.engine = c.engine.putRegion place r' ∧ r'.id = r.id ∧
      done.2.faults = c.faults ∧
      r'.HoldsInt key index (if done.1.succeeded then v + 1 else v) ∧
      (done.1.succeeded = false →
        done.1.result = .ok none ∨ c.faults.failsWrite c.writes = true) := by
  intro done
  cases hgrant : r.lock.canGrant .exclusive with
  | false =>
    have hstart := Connection.outcome_startLock hr
    simp only [hgrant, Bool.false_eq_true, if_false] at hstart
    have hdone : done = _ := alone_of_keptOut hstart i _
    rw [hdone]
    exact ⟨_, rfl, rfl, rfl, hget.relock _, fun _ => .inl rfl⟩
  | true =>
    obtain ⟨token, entered, lock, hstart, hfaults₁, hwrites₁, hengine₁, hheld⟩ :=
      Connection.exists_letIn hr hgrant
    have hr₁ : entered.engine.resolve conn.handle = .ok (place, r.relock lock) := by
      rw [hengine₁]
      exact Engine.resolve_putRegion hr rfl
    obtain ⟨r', c', hc', hfaults, hengine, hid, hcases⟩ :=
      Connection.outcome_underLock_increment result hr₁ hheld (hget.relock lock)
    have hdone : done = _ := alone_of_letIn hstart i _
    rw [hdone, hc']
    refine ⟨r', ?_, hid, hfaults.trans hfaults₁, ?_⟩
    · rw [hengine, hengine₁]
      simp only [Engine.putRegion, Array.setIfInBounds_setIfInBounds]
    · rcases hcases with ⟨hok, hraised⟩ | ⟨⟨err, herr⟩, hsame, hfails⟩
      · rw [hok]
        exact ⟨hraised, fun hfailed => Bool.noConfusion hfailed⟩
      · rw [herr, ← hfaults₁, ← hwrites₁]
        exact ⟨hsame, fun _ => .inr hfails⟩

/-- How many bodies succeeded. -/
def successes (reports : List (Report ι α)) : Nat := reports.countP Report.succeeded

/-- A body that counts an integer field, through a connection. -/
def Counts (conn : Connection) (key : SlotKey) (index : Nat) (body : Body α) : Prop :=
  ∃ result, body = .increment (conn.handle.record key) index result

theorem successes_append (reports : List (Report ι α)) (report : Report ι α) :
    successes (reports ++ [report]) = successes reports + if report.succeeded then 1 else 0 := by
  rw [successes, List.countP_append, List.countP_singleton]
  rfl

/-- What bodies that count come to: the integer has risen by as many as succeeded, and the
others were kept out, unless writes fail by plan. -/
structure Raised (c₀ : Client) (conn : ι → Connection) (place : Nat) (key : SlotKey)
    (index : Nat) (v : Int32) (done : List (Report ι α) × Client) : Prop where
  attached : ∀ i, done.2.engine.AttachedTo (conn i).handle place
  faults : done.2.faults = c₀.faults
  holds : ∃ r, done.2.engine.regions[place]? = some r ∧
    r.HoldsInt key index (v + Int32.ofNat (successes done.1))
  ended : (∀ n, c₀.faults.failsWrite n = false) →
    ∀ report ∈ done.1, report.succeeded = false → report.result = .ok none

/-- One more body that counts. -/
theorem Raised.alone {c₀ : Client} {conn : ι → Connection} {done : List (Report ι α) × Client}
    (h : Raised c₀ conn place key index v done) (i : ι) (result : Int32 → α) :
    let next := alone (conn i) done.2 i (.increment ((conn i).handle.record key) index result)
    Raised c₀ conn place key index v (done.1 ++ [next.1], next.2) := by
  intro next
  obtain ⟨r, hr⟩ := h.attached i
  have hat := Engine.getElem?_of_resolve hr
  obtain ⟨r₁, hr₁, hget⟩ := h.holds
  obtain rfl : r = r₁ := Option.some.inj (hat.symm.trans hr₁)
  obtain ⟨r', hengine, hid, hfaults, hget', hended⟩ := alone_increment i result hr hget
  constructor
  · intro j
    simp only [next, hengine]
    exact (h.attached j).putRegion hat hid
  · exact hfaults.trans h.faults
  · refine ⟨r', ?_, ?_⟩
    · simp only [next, hengine, Engine.getElem?_putRegion hat, if_true]
    · rw [successes_append]
      cases hok : next.1.succeeded with
      | true =>
        rw [if_pos hok, Int32.add_assoc] at hget'
        rw [if_pos rfl, Int32.ofNat_add]
        exact hget'
      | false =>
        rwa [hok] at hget'
  · intro hnever report hreport hfailed
    rcases List.mem_append.1 hreport with hreport | hreport
    · exact h.ended hnever report hreport hfailed
    · rw [List.mem_singleton.1 hreport] at hfailed ⊢
      refine (hended hfailed).resolve_right ?_
      rw [h.faults, hnever]
      exact Bool.false_ne_true

/-- **Bodies that count, one after the other**, raise the integer by as many as succeeded. -/
theorem raised_inTurn {c₀ : Client} {conn : ι → Connection}
    (ha : ∀ i, c₀.engine.AttachedTo (conn i).handle place)
    (hr : c₀.engine.regions[place]? = some r) (hget : r.HoldsInt key index v)
    (jobs : List (ι × Body α))
    (hjobs : ∀ i body, (i, body) ∈ jobs → Counts (conn i) key index body) :
    Raised c₀ conn place key index v (inTurn conn c₀ jobs) := by
  induction jobs using List.reverseRecOn with
  | nil =>
    have hzero : v + Int32.ofNat 0 = v := Int32.add_zero v
    exact ⟨ha, rfl, ⟨r, hr, hzero.symm ▸ hget⟩, nofun⟩
  | append_singleton jobs job ih =>
    obtain ⟨i, body⟩ := job
    obtain ⟨result, rfl⟩ := hjobs i body (List.mem_append_right _ (List.mem_singleton_self _))
    rw [inTurn_append]
    exact (ih fun i body hjob => hjobs i body (List.mem_append_left _ hjob)).alone i result

theorem length_inTurn (conn : ι → Connection) (c : Client) (jobs : List (ι × Body α)) :
    (inTurn conn c jobs).1.length = jobs.length := by
  induction jobs using List.reverseRecOn with
  | nil => rfl
  | append_singleton jobs job ih =>
    rw [inTurn_append, List.length_append, List.length_append, ih]
    rfl

/-! ## All writers -/

variable [DecidableEq ι]

theorem mem_todo_of_granted {w : Writers ι α} {todo : ι → List (Body α)} {i : ι} {body : Body α}
    (horder : ∀ j, w.grantedTo j ++ (w.writers j).pending = todo j)
    (h : (i, body) ∈ w.granted) : body ∈ todo i := by
  rw [← horder i]
  refine List.mem_append_left _ (List.mem_map.2 ⟨(i, body), ?_, rfl⟩)
  exact List.mem_filter.2 ⟨h, decide_eq_true rfl⟩

/-- Within the range of integers a sum is what it should be. -/
theorem toInt_add_ofNat {v : Int32} {k : Nat} (h : v.toInt + k < 2 ^ 31) :
    (v + Int32.ofNat k).toInt = v.toInt + k := by
  have hleast := v.le_toInt
  have hsize : Int32.size = 2 ^ 32 := rfl
  rw [Int32.toInt_add, Int32.toInt_ofNat', hsize, Int.add_bmod_bmod, Int.bmod_eq_of_le] <;> omega

/-- **No update is lost** where nobody is inside: the integer has risen by as many as
succeeded, and these are all, unless writes fail by plan. -/
theorem Sound.increments {client : Client} {todo : ι → List (Body α)} {w : Writers ι α}
    (h : Sound client todo place w) (hout : ∀ i, ¬ (w.writers i).IsInside)
    (hattached : ∀ i, client.engine.AttachedTo (w.conn i).handle place)
    (hr : client.engine.regions[place]? = some r) (hget : r.HoldsInt key index v)
    (hcounts : ∀ i, ∀ body ∈ todo i, Counts (w.conn i) key index body)
    (hbound : v.toInt + successes w.reports < 2 ^ 31) :
    ∃ r' v', w.client.engine.regions[place]? = some r' ∧ r'.HoldsInt key index v' ∧
      v'.toInt = v.toInt + successes w.reports ∧
      ((∀ n, client.faults.failsWrite n = false) →
        successes w.reports = w.granted.length) := by
  obtain ⟨hreports, halike⟩ := h.inTurn.of_nobody hout
  obtain ⟨-, -, ⟨r₁, hr₁, hget₁⟩, hsucceed⟩ := raised_inTurn hattached hr hget w.granted
    fun i body hjob => hcounts i body (mem_todo_of_granted h.order hjob)
  rw [← hreports] at hget₁ hsucceed
  obtain ⟨r', hr', hsame⟩ := halike.engine.exists_region hr₁
  refine ⟨r', _, hr', ?_, toInt_add_ofNat hbound, fun hnever => ?_⟩
  · -- The two differ in the lock only.
    have hunawaited := hget₁.relock r₁.lock.unawaited
    change r₁.unawaited.HoldsInt key index _ at hunawaited
    rw [← hsame] at hunawaited
    exact hunawaited
  · -- A body that was reported was let in, and then nothing could make it fail.
    have hall : ∀ report ∈ w.reports, report.succeeded = true := by
      intro report hreport
      by_contra hfailed
      exact h.ended report hreport (hsucceed hnever report hreport (by simpa using hfailed))
    rw [successes, List.countP_eq_length.2 hall, hreports, length_inTurn]

/-- The records of a region are the same whoever waits for its lock. -/
theorem listingAt_alike {e e' : Engine} (h : e.Alike e') (place : Nat) :
    e.listingAt place = e'.listingAt place := by
  have hlisting : ∀ e : Engine, e.unawaited.listingAt place = e.listingAt place := by
    intro e
    simp only [Engine.listingAt, Engine.unawaited, Array.getElem?_map]
    cases e.regions[place]? <;> rfl
  rw [← hlisting e, ← hlisting e', h]

/-- **Sections under the exclusive lock are serial.** Any number of writers, all attached to one
region, carry out their bodies under its exclusive lock; their calls come in any order that the
lock permits. The lock is granted to each writer for its bodies in their order, and to one
writer at a time. The reports, and what a body under way has seen, are those of the bodies
carried out one after the other in the order of the grants; and so are the records of the
region, and all else but who waits, whenever nobody is inside.

In particular no update is lost. If all bodies read an integer field and write one more, the
field has risen by as many as succeeded, and these are all, unless writes fail by plan. -/
theorem sections_are_serial {client : Client} {conn : ι → Connection} {place : Nat}
    (hattached : ∀ i, client.engine.AttachedTo (conn i).handle place)
    (todo : ι → List (Body α)) (schedule : List ι) :
    let w := (start client conn todo).after schedule
    let serial := inTurn conn client w.granted
    (∀ i, w.grantedTo i ++ (w.writers i).pending = todo i) ∧
      (∀ i j, (w.writers i).IsInside → (w.writers j).IsInside → i = j) ∧
      (∀ i todo token rest seen, w.writers i = ⟨todo, .inside token rest seen⟩ →
        ∃ report, serial.1 = w.reports ++ [report] ∧ report.who = i ∧ seen <+: report.seen) ∧
      ((∀ i, ¬ (w.writers i).IsInside) →
        w.reports = serial.1 ∧ w.client.Alike serial.2 ∧
          w.client.engine.listingAt place = serial.2.engine.listingAt place ∧
          ∀ r key index v, client.engine.regions[place]? = some r → r.HoldsInt key index v →
            (∀ i, ∀ body ∈ todo i, Counts (conn i) key index body) →
            v.toInt + successes w.reports < 2 ^ 31 →
            ∃ r' v', w.client.engine.regions[place]? = some r' ∧ r'.HoldsInt key index v' ∧
              v'.toInt = v.toInt + successes w.reports ∧
              ((∀ n, client.faults.failsWrite n = false) →
                successes w.reports = w.granted.length)) := by
  intro w serial
  have hsound : Sound client todo place w := (sound_start todo hattached).after schedule
  have hconn : w.conn = conn := after_conn (start client conn todo) schedule hattached
  have hserial : serial = inTurn w.conn client w.granted := by rw [hconn]
  refine ⟨hsound.order, fun i j => hsound.inTurn.eq_of_isInside, ?_, ?_⟩
  · intro i todo token rest seen hwriter
    rw [hserial]
    exact hsound.inTurn.exists_report hwriter
  · intro hout
    obtain ⟨hreports, halike⟩ := hsound.inTurn.of_nobody hout
    rw [hserial]
    refine ⟨hreports, halike, listingAt_alike halike.engine place, ?_⟩
    intro r key index v hr hget hcounts hbound
    rw [← hconn] at hattached hcounts
    exact hsound.increments hout hattached hr hget hcounts hbound

/-- A client of an engine whose shared region has a record with a zero. -/
def zeroed : Client where
  engine := (Engine.start {}).run (Engine.twoShared ++
    [.create Engine.firstShared 1,
      .set Engine.firstShared (Engine.firstShared.record ⟨0, 0⟩) 0 (.int 0)])

/-- Two connections to the region. -/
def bothShared (second : Bool) : Connection :=
  ⟨if second then Engine.secondShared else Engine.firstShared, {}⟩

/-- Each of the two is to count once, and gives the number it has read. -/
def countOnce (second : Bool) : List (Body Int32) :=
  [.increment ((bothShared second).handle.record ⟨0, 0⟩) 0 id]

/-- The second one asks for the lock while the first one is inside. -/
def overlapping : List Bool := [false, true, false, true, false, false, true, true, true, true]

/-- Although their calls overlap, the two count to two. -/
theorem sections_are_serial_overlapping :
    let w := (start zeroed bothShared countOnce).after overlapping
    (w.reports.map Report.who = [false, true]) ∧
      ∃ r v, w.client.engine.regions[0]? = some r ∧ r.HoldsInt ⟨0, 0⟩ 0 v ∧ v.toInt = 2 := by
  intro w
  have hattached : ∀ second, zeroed.engine.AttachedTo (bothShared second).handle 0 := by
    intro second
    cases second <;> exact ⟨_, rfl⟩
  obtain ⟨-, -, -, hdone⟩ := sections_are_serial hattached countOnce overlapping
  have hout : ∀ second, ¬ (w.writers second).IsInside := by
    have hidle : ∀ second, (w.writers second).stage = .idle := by
      intro second
      cases second <;> rfl
    rintro second ⟨token, rest, seen, hinside⟩
    rw [hidle second] at hinside
    cases hinside
  obtain ⟨-, -, -, hcount⟩ := hdone hout
  obtain ⟨r₀, hr₀, hget₀⟩ : ∃ r, zeroed.engine.regions[0]? = some r ∧ r.HoldsInt ⟨0, 0⟩ 0 0 :=
    ⟨_, rfl, rfl⟩
  have hcounts : ∀ second, ∀ body ∈ countOnce second,
      Counts (bothShared second) ⟨0, 0⟩ 0 body := by
    intro second body hbody
    exact ⟨id, List.mem_singleton.1 hbody⟩
  have hsuccesses : successes w.reports = 2 := rfl
  obtain ⟨r, v, hr, hget, hv, -⟩ := hcount r₀ ⟨0, 0⟩ 0 0 hr₀ hget₀ hcounts (by decide)
  exact ⟨rfl, r, v, hr, hget, by rw [hv, hsuccesses]; rfl⟩

end Writers

end RecordStore
