import Mathlib.Data.Set.Insert
import RecordStore.Proofs.Client.Tracking
import RecordStore.Proofs.Sections.Serial
/-!
# Holdings — the locks of a client, and what a deed does to them

A lock is recorded twice: the region holds it for its token, and the client
counts the token among what is outstanding on a connection. Both change by
the same events, each a lock that was taken or one that was given back, and
a deed gives rise to just the events that it answers for
(`Usage.holdings_does`). Giving one token back commutes with every event of
another (`Holdings.after_ended_comm`).
-/

namespace RecordStore

/-! ## Locks and events -/

/-- The tokens for which locks are held in some region, and those that are outstanding on each
connection. -/
@[ext]
structure Holdings where
  held : Set LockToken
  tracked : ConnectionId → List LockToken

/-- What can happen to a lock, through which connection. -/
inductive TokenEvent where
  | taken (connection : ConnectionId) (token : LockToken)
  | ended (connection : ConnectionId) (token : LockToken)
  deriving DecidableEq, Repr

/-- The token of the lock. -/
def TokenEvent.token : TokenEvent → LockToken
  | taken _ token | ended _ token => token

/-- The tokens that were given out by the events. -/
def handedOut (events : List TokenEvent) : Set LockToken :=
  {t | ∃ connection, TokenEvent.taken connection t ∈ events}

@[simp] theorem handedOut_nil : handedOut [] = ∅ :=
  Set.eq_empty_of_forall_notMem fun _ ⟨_, hmem⟩ => List.not_mem_nil hmem

/-- A token that no event is about was not handed out. -/
theorem not_mem_handedOut {events : List TokenEvent} {t : LockToken}
    (hother : ∀ e ∈ events, e.token ≠ t) : t ∉ handedOut events :=
  fun ⟨_, hmem⟩ => hother _ hmem rfl

namespace Holdings

variable {l : Holdings} {e : TokenEvent} {events : List TokenEvent} {c : ConnectionId}
variable {t : LockToken}

/-- The locks after an event. A token that is given back through another connection than it was
taken through stays outstanding there. -/
def after (l : Holdings) : TokenEvent → Holdings
  | .taken c t => ⟨insert t l.held, Function.update l.tracked c (l.tracked c ++ [t])⟩
  | .ended c t => ⟨l.held \ {t}, Function.update l.tracked c ((l.tracked c).filter (· ≠ t))⟩

/-- The locks after events in their order. -/
def afterAll (l : Holdings) (events : List TokenEvent) : Holdings := events.foldl after l

@[simp] theorem afterAll_nil (l : Holdings) : l.afterAll [] = l := rfl

@[simp] theorem afterAll_cons (l : Holdings) (e : TokenEvent) (events : List TokenEvent) :
    l.afterAll (e :: events) = (l.after e).afterAll events := rfl

@[simp] theorem afterAll_append (l : Holdings) (events events' : List TokenEvent) :
    l.afterAll (events ++ events') = (l.afterAll events).afterAll events' :=
  List.foldl_append

/-- The events of others do not change what is held for a token. -/
theorem mem_held_afterAll_iff (hother : ∀ e ∈ events, e.token ≠ t) :
    t ∈ (l.afterAll events).held ↔ t ∈ l.held := by
  induction events generalizing l with
  | nil => exact Iff.rfl
  | cons e rest ih =>
    have hne : t ≠ e.token := (hother e List.mem_cons_self).symm
    refine (ih fun e he => hother e (List.mem_cons_of_mem _ he)).trans ?_
    cases e with
    | taken c s => exact or_iff_right hne
    | ended c s => exact and_iff_left hne

/-- Nor whether it is outstanding. -/
theorem mem_tracked_afterAll_iff (hother : ∀ e ∈ events, e.token ≠ t) :
    t ∈ (l.afterAll events).tracked c ↔ t ∈ l.tracked c := by
  induction events generalizing l with
  | nil => exact Iff.rfl
  | cons e rest ih =>
    have hne : t ≠ e.token := (hother e List.mem_cons_self).symm
    refine (ih fun e he => hother e (List.mem_cons_of_mem _ he)).trans ?_
    cases e with
    | taken c' s =>
      simp only [after, Function.update_apply]
      split
      · rename_i hc
        rw [hc]
        exact List.mem_append.trans (or_iff_left fun h => hne (List.mem_singleton.1 h))
      · exact Iff.rfl
    | ended c' s =>
      simp only [after, Function.update_apply]
      split
      · rename_i hc
        rw [hc]
        exact List.mem_filter.trans (and_iff_left (decide_eq_true hne))
      · exact Iff.rfl

/-! ### Giving back -/

/-- **A token is given back** before or after what happens to another one. -/
theorem after_ended_comm (l : Holdings) (c : ConnectionId) (hne : e.token ≠ t) :
    (l.after e).after (.ended c t) = (l.after (.ended c t)).after e := by
  cases e with
  | taken c' s =>
    refine Holdings.ext (Set.insert_sdiff_singleton_comm hne _).symm ?_
    have hkept : [s].filter (· ≠ t) = [s] := List.filter_cons_of_pos (decide_eq_true hne)
    by_cases hc : c = c'
    · subst hc
      simp only [after, Function.update_self, Function.update_idem, List.filter_append, hkept]
    · simp only [after, Function.update_of_ne hc, Function.update_of_ne (Ne.symm hc),
        Function.update_comm hc]
  | ended c' s =>
    refine Holdings.ext (sdiff_right_comm _ _ _) ?_
    by_cases hc : c = c'
    · subst hc
      simp only [after, Function.update_self, Function.update_idem, List.filter_filter,
        Bool.and_comm]
    · simp only [after, Function.update_of_ne hc, Function.update_of_ne (Ne.symm hc),
        Function.update_comm hc]

theorem afterAll_ended_comm (l : Holdings) (c : ConnectionId)
    (hother : ∀ e ∈ events, e.token ≠ t) :
    (l.afterAll events).after (.ended c t) = (l.after (.ended c t)).afterAll events := by
  induction events generalizing l with
  | nil => rfl
  | cons e rest ih =>
    rw [afterAll_cons, ih _ fun e he => hother e (List.mem_cons_of_mem _ he),
      after_ended_comm l c (hother e List.mem_cons_self), afterAll_cons]

/-- A new token that is given back at once leaves nothing. -/
theorem taken_ended (hheld : t ∉ l.held) (htracked : t ∉ l.tracked c) :
    (l.after (.taken c t)).after (.ended c t) = l := by
  have hkept : (l.tracked c).filter (· ≠ t) = l.tracked c :=
    List.filter_eq_self.2 fun s hs => decide_eq_true fun heq => htracked (heq ▸ hs)
  have hgone : [t].filter (· ≠ t) = [] :=
    List.filter_cons_of_neg fun h => of_decide_eq_true h rfl
  refine Holdings.ext (Set.insert_sdiff_self_of_notMem hheld) ?_
  simp only [after, Function.update_self, Function.update_idem, List.filter_append, hkept, hgone,
    List.append_nil, Function.update_eq_self]

/-- **A new token that is given back later** leaves what the events of others in between make of
the locks. -/
theorem taken_afterAll_ended (hheld : t ∉ l.held) (htracked : t ∉ l.tracked c)
    (hother : ∀ e ∈ events, e.token ≠ t) :
    ((l.after (.taken c t)).afterAll events).after (.ended c t) = l.afterAll events := by
  rw [afterAll_ended_comm _ c hother, taken_ended hheld htracked]

/-- Tokens that are given back through one connection. -/
theorem afterAll_ended (l : Holdings) (c : ConnectionId) (tokens : List LockToken) :
    l.afterAll (tokens.map (.ended c)) =
      ⟨l.held \ {t | t ∈ tokens},
        Function.update l.tracked c ((l.tracked c).filter (· ∉ tokens))⟩ := by
  induction tokens generalizing l with
  | nil =>
    have hkept : (l.tracked c).filter (· ∉ ([] : List LockToken)) = l.tracked c :=
      List.filter_eq_self.2 fun s _ => decide_eq_true List.not_mem_nil
    refine Holdings.ext ?_ ?_
    · simp only [List.map_nil, afterAll_nil, List.not_mem_nil, Set.ofPred_false, Set.sdiff_empty]
    · simp only [List.map_nil, afterAll_nil, hkept, Function.update_eq_self]
  | cons token rest ih =>
    rw [List.map_cons, afterAll_cons, ih]
    refine Holdings.ext ?_ ?_
    · ext s
      simp only [after, Set.mem_sdiff, Set.mem_singleton_iff, Set.mem_ofPred_eq, List.mem_cons,
        not_or, and_assoc]
    · simp only [after, Function.update_self, Function.update_idem, List.filter_filter,
        List.mem_cons, not_or, Bool.decide_and, Bool.and_comm, ne_eq]

end Holdings

namespace Client

/-- The locks of a client. -/
def holdings (c : Client) : Holdings where
  held := {t | ∃ p, c.engine.HeldAt p t}
  tracked connection := (c.held connection).locks

end Client

/-! ## Actions that leave the locks alone -/

namespace Engine

variable {e e' : Engine} {p : Nat} {t : LockToken}

/-- A region that keeps its lock with its holders. -/
theorem heldAt_putRegion_same {place : Nat} {r r' : Region} (hr : e.regions[place]? = some r)
    (hid : r'.id = r.id) (hlock : RegionLock.SameHolders r.lock r'.lock) :
    (e.putRegion place r').HeldAt p t ↔ e.HeldAt p t := by
  rw [heldAt_putRegion hr, Region.holdsFor_same_iff hid hlock]
  by_cases hp : p = place
  · simp only [hp, heldAt_iff hr, true_and, ne_eq, not_true, false_and, or_false]
  · simp only [hp, false_and, ne_eq, not_false_eq_true, true_and, false_or]

/-- What is held anywhere is held at one place or at another. -/
theorem exists_heldAt_putRegion {place : Nat} {r : Region} (hr : e.regions[place]? = some r)
    (r' : Region) : (∃ p, (e.putRegion place r').HeldAt p t) ↔
      r'.HoldsFor t ∨ ∃ p, p ≠ place ∧ e.HeldAt p t := by
  simp only [heldAt_putRegion hr, exists_or, exists_eq_left]

theorem exists_heldAt {place : Nat} {r : Region} (hr : e.regions[place]? = some r) :
    (∃ p, e.HeldAt p t) ↔ r.HoldsFor t ∨ ∃ p, p ≠ place ∧ e.HeldAt p t := by
  have hput := exists_heldAt_putRegion hr r (t := t)
  rwa [putRegion_self hr] at hput

/-- A region that lets go of some tokens, which nobody else holds. -/
theorem exists_heldAt_released {place : Nat} {r r' : Region} {kept : Prop}
    (hr : e.regions[place]? = some r) (hholds : r'.HoldsFor t ↔ r.HoldsFor t ∧ kept)
    (hother : ∀ p, p ≠ place → e.HeldAt p t → kept) :
    (∃ p, (e.putRegion place r').HeldAt p t) ↔ (∃ p, e.HeldAt p t) ∧ kept := by
  have hkept : (∃ p, p ≠ place ∧ e.HeldAt p t) → kept := fun ⟨p, hp, hheld⟩ => hother p hp hheld
  rw [exists_heldAt_putRegion hr, exists_heldAt hr, hholds, or_and_right,
    and_iff_left_of_imp hkept]

theorem SameLocks.heldAt_iff (h : e.SameLocks e') : e'.HeldAt p t ↔ e.HeldAt p t := by
  rcases h with rfl | ⟨place, r, r', hr, hid, hlock, rfl⟩
  · exact Iff.rfl
  · exact heldAt_putRegion_same hr hid (hlock ▸ .refl r.lock)

/-- A database that is opened has the locks that it had, and a new one has none. -/
theorem heldAt_openDatabase (e : Engine) (asked : Option String) (size : Nat) (isLocal : Bool) :
    (e.openDatabase asked size isLocal).2.HeldAt p t ↔ e.HeldAt p t := by
  rcases e.openDatabase_cases asked size isLocal with ⟨err, h⟩ | ⟨place, r, -, hreg, h⟩ | ⟨-, -, h⟩
  · rw [h]
  · rw [h]
    exact heldAt_putRegion_same (registered?_eq_some hreg) rfl (.refl r.lock)
  · rw [h]
    constructor
    · rintro ⟨r, hr, hholds⟩
      rcases found_cases hr with ⟨-, rfl⟩ | ⟨-, hr⟩
      · obtain ⟨-, hheld⟩ := hholds
        cases hmode : t.mode <;>
          simp [hmode, Region.fresh, Region.attach, RegionLock.isHeld] at hheld
      · exact ⟨r, hr, hholds⟩
    · rintro ⟨r, hr, hholds⟩
      exact ⟨r, getElem?_found_of_lt hr, hholds⟩

end Engine

namespace Action

variable {α β : Type}

/-- The action leaves the locks as they are, whatever comes of it. -/
def KeepsLocks (action : Action α) : Prop := ∀ c, (action.outcome c).2.holdings = c.holdings

theorem KeepsLocks.bind {action : Action α} {next : α → Action β} (h : KeepsLocks action)
    (hnext : ∀ a, KeepsLocks (next a)) : KeepsLocks (action >>= next) := by
  intro c
  have hfirst := h c
  rw [outcome_bind]
  generalize action.outcome c = outcome at hfirst ⊢
  obtain ⟨err | a, c'⟩ := outcome
  · exact hfirst
  · exact (hnext a c').trans hfirst

theorem keepsLocks_pure (a : α) : KeepsLocks (pure a) := fun _ => rfl

theorem keepsLocks_check (a : Except ClientError α) : KeepsLocks (check a) := fun _ => rfl

/-- A client whose engine holds what it held. -/
theorem holdings_engine {e : Engine} (c : Client)
    (h : ∀ p t, e.HeldAt p t ↔ c.engine.HeldAt p t) :
    ({ c with engine := e } : Client).holdings = c.holdings :=
  Holdings.ext (Set.ext fun t => exists_congr fun p => h p t) rfl

theorem keepsLocks_change {call : Engine → Except Error α × Engine}
    (h : ∀ (e : Engine) p t, (call e).2.HeldAt p t ↔ e.HeldAt p t) : KeepsLocks (change call) :=
  fun c => holdings_engine c (h c.engine)

/-- A call on a region that leaves its lock alone. -/
theorem keepsLocks_checkedOn {db : DbHandle} {check : Engine → Except Error Unit}
    {f : Region → Except Error α × Region}
    (h : ∀ r, (f r).2.id = r.id ∧ (f r).2.lock = r.lock) :
    KeepsLocks (change fun e => e.checkedOn (check e) db f) :=
  keepsLocks_change fun _ _ _ => (Engine.sameLocks_checkedOn _ h).heldAt_iff

/-- A change of what is outstanding, except for locks. -/
theorem keepsLocks_track (conn : Connection) {f : Outstanding → Outstanding}
    (h : ∀ held, (f held).locks = held.locks) : KeepsLocks (conn.track f) := by
  refine fun c => Holdings.ext rfl (funext fun connection => ?_)
  change ((c.changeHeld conn.handle.connection f).held connection).locks = _
  rw [Client.held_changeHeld, Function.update_apply]
  split
  · rename_i hsame
    rw [h, hsame]
    rfl
  · rfl

end Action

namespace Connection

variable (conn : Connection)

theorem keepsLocks_openWith (settings : ConnectionSettings) :
    Action.KeepsLocks (openWith settings) :=
  (Action.keepsLocks_check _).bind fun _ =>
    (Action.keepsLocks_change fun e _ _ => e.heldAt_openDatabase _ _ _).bind fun _ =>
      Action.keepsLocks_pure _

theorem keepsLocks_deleteDatabase (name : Option String) :
    Action.KeepsLocks (deleteDatabase name) := by
  refine Action.keepsLocks_change fun e p t => ?_
  simp only [Engine.deleteDatabase]
  split <;> exact Iff.rfl

theorem keepsLocks_record (op : RecordCall) : Action.KeepsLocks (op.action conn) := by
  intro c
  have htracked : ((op.action conn).outcome c).2.outstanding = c.outstanding := by
    cases op with
    | delete rec =>
      change (if c.faults.refusesDeletes then _ else _ : _ × Client).2.outstanding = _
      split <;> rfl
    | set rec index value =>
      change (if c.faults.failsWrite c.writes then _ else _ : _ × Client).2.outstanding = _
      split <;> rfl
    | _ => rfl
  refine Holdings.ext (Set.ext fun t => exists_congr fun p => ?_) (funext fun connection => ?_)
  · exact (op.sameLocks conn c).heldAt_iff
  · simp only [Client.holdings, Client.held, htracked]

theorem keepsLocks_buildQuery (request : QueryRequest) :
    Action.KeepsLocks (conn.buildQuery request) := by
  have hcall : Action.KeepsLocks (.change fun e => e.buildQuery conn.handle request.template
      request.conditions request.limit) :=
    Action.keepsLocks_checkedOn (Region.serve_unlocking conn.handle
      (.buildQuery conn.handle request.template request.conditions request.limit) rfl)
  refine (Action.keepsLocks_check _).bind fun _ => hcall.bind fun handle => ?_
  have htrack : Action.KeepsLocks (conn.track fun held =>
      { held with queries := held.queries ++ [handle] }) :=
    Action.keepsLocks_track conn fun _ => rfl
  exact htrack.bind fun _ => Action.keepsLocks_pure _

theorem keepsLocks_fetch (q : Query) : Action.KeepsLocks (conn.fetch q) := by
  have hcall : Action.KeepsLocks (.change fun e => e.fetch conn.handle q.handle) :=
    Action.keepsLocks_checkedOn
      (Region.serve_unlocking conn.handle (.fetch conn.handle q.handle) rfl)
  unfold fetch
  split
  · exact Action.keepsLocks_pure _
  · exact hcall.bind fun _ => Action.keepsLocks_pure _

theorem keepsLocks_freeQuery (q : Query) : Action.KeepsLocks (conn.freeQuery q) := by
  have hcall : Action.KeepsLocks (.change fun e => e.freeQuery conn.handle q.handle) :=
    Action.keepsLocks_checkedOn
      (Region.serve_unlocking conn.handle (.freeQuery conn.handle q.handle) rfl)
  exact hcall.bind fun _ => Action.keepsLocks_track conn fun _ => rfl

end Connection

/-! ## Deeds as actions -/

/-- The token that a request for the lock is granted, if it is. -/
def LockCall.granted? (kind : LockCall) (conn : Connection) (mode : LockMode) (c : Client) :
    Option LockToken :=
  match ((kind.action conn mode).outcome c).1 with
  | .ok answer => answer
  | .error _ => none

theorem LockCall.granted?_eq_some_iff {kind : LockCall} {conn : Connection} {mode : LockMode}
    {c : Client} {token : LockToken} :
    kind.granted? conn mode c = some token ↔
      ((kind.action conn mode).outcome c).1 = .ok (some token) := by
  unfold granted?
  split
  · rename_i answer hanswer
    rw [hanswer, Except.ok.injEq]
  · rename_i err hanswer
    rw [hanswer]
    exact iff_of_false (fun h => by cases h) (fun h => by cases h)

namespace Deed

/-- What a deed gives when it succeeds. -/
@[reducible] def Answer : Deed → Type
  | openWith _ => Connection
  | stats _ => RegionStats
  | record _ op => op.Answer
  | buildQuery _ _ => Query
  | fetch _ _ => Option RecordHandle × Query
  | lock _ _ _ => Option LockToken
  | close _ _ | deleteDatabase _ | freeQuery _ _ | endLock _ _ => Unit

/-- The deed as what the client does. -/
def action : (deed : Deed) → Action deed.Answer
  | openWith settings => Connection.openWith settings
  | close conn order => conn.closeIn order
  | deleteDatabase name => Connection.deleteDatabase name
  | stats conn => conn.stats
  | record conn op => op.action conn
  | buildQuery conn request => conn.buildQuery request
  | fetch conn q => conn.fetch q
  | freeQuery conn q => conn.freeQuery q
  | lock conn kind mode => kind.action conn mode
  | endLock conn token => conn.endLock token

/-- What a deed does to locks, as its answer says. A connection that is closed gives back what is
outstanding on it. -/
def lockEvents (c : Client) : Deed → List TokenEvent
  | lock conn kind mode =>
    (kind.granted? conn mode c).toList.map (.taken conn.handle.connection)
  | endLock conn token =>
    match ((conn.endLock token).outcome c).1 with
    | .ok () => [.ended conn.handle.connection token]
    | .error _ => []
  | close conn _ =>
    (c.held conn.handle.connection).locks.map (.ended conn.handle.connection)
  | _ => []

end Deed

namespace Usage

variable {u : Usage} {conn : Connection} {settings : EngineSettings} {faults : FaultPlan}

/-- The client after a deed is the one after its action. -/
theorem client_does (u : Usage) (deed : Deed) :
    (u.does deed).client = (deed.action.outcome u.client).2 := by
  cases deed with
  | openWith settings =>
    simp only [does, Deed.action]
    generalize (Connection.openWith settings).outcome u.client = opened
    obtain ⟨err | conn, client⟩ := opened <;> rfl
  | lock conn kind mode =>
    simp only [does, Deed.action]
    generalize (kind.action conn mode).outcome u.client = asked
    obtain ⟨err | (_ | token), client⟩ := asked <;> rfl
  | _ => rfl

/-- A token that is granted is put down, with its connection. -/
theorem granted_does_lock {kind : LockCall} {mode : LockMode} {token : LockToken}
    (h : kind.granted? conn mode u.client = some token) :
    (u.does (.lock conn kind mode)).granted = u.granted ++ [(conn.handle.connection, token)] := by
  rw [LockCall.granted?_eq_some_iff] at h
  simp only [does]
  generalize (kind.action conn mode).outcome u.client = asked at h ⊢
  obtain ⟨answer, client⟩ := asked
  subst h
  rfl

/-- A request for a lock takes it, if it is granted. -/
theorem holdings_lock (conn : Connection) (kind : LockCall) (mode : LockMode) (c : Client) :
    ((kind.action conn mode).outcome c).2.holdings =
      c.holdings.afterAll ((Deed.lock conn kind mode).lockEvents c) := by
  simp only [Deed.lockEvents, LockCall.granted?, Connection.outcome_lock]
  rcases c.engine.onRegion_cases conn.handle (fun r => kind.ask r mode) with
    ⟨err, hcall⟩ | ⟨place, r, hr, hcall⟩
  · rw [hcall]
    rfl
  · rw [hcall]
    have hget := Engine.getElem?_of_resolve hr
    have hasked := kind.asked_ask r mode
    generalize (kind.ask r mode).1 = answer, (kind.ask r mode).2 = r' at hasked
    cases hasked with
    | @granted lock h =>
      refine Holdings.ext (Set.ext fun t => ?_) (funext fun connection => ?_)
      · change (∃ p, (c.engine.putRegion place (r.relock lock)).HeldAt p t) ↔
          t = _ ∨ ∃ p, c.engine.HeldAt p t
        rw [Engine.exists_heldAt_putRegion hget, Engine.exists_heldAt hget,
          Region.holdsFor_granted_iff h, or_right_comm, or_comm]
      · simp only [Client.holdings, Client.held_changeHeld, Function.update_apply,
          Option.toList_some, List.map_cons, List.map_nil, Holdings.afterAll_cons,
          Holdings.afterAll_nil, Holdings.after]
        split <;> rfl
    | denied h =>
      exact Action.holdings_engine c fun p t => Engine.heldAt_putRegion_same hget rfl h

section Tracked

variable (htracked : Tracked u) (hsound : Engine.Sound u.client.engine u.opens)
variable (hopens : u.opens < 2 ^ 64)
include htracked hsound hopens

/-- A lock that is given back is held nowhere. If that fails, it stays as it is. -/
theorem holdings_endLock (conn : Connection) (token : LockToken) :
    ((conn.endLock token).outcome u.client).2.holdings =
      u.client.holdings.afterAll ((Deed.endLock conn token).lockEvents u.client) := by
  simp only [Deed.lockEvents, Connection.outcome_endLock_eq, Engine.endLock]
  rcases u.client.engine.onRegion_cases conn.handle (fun r => r.endLock token token.mode) with
    ⟨err, hcall⟩ | ⟨place, r, hr, hcall⟩
  · rw [hcall]
    rfl
  · rw [hcall]
    have hget := Engine.getElem?_of_resolve hr
    cases hanswer : (r.endLock token token.mode).1 with
    | error err =>
      rcases Region.endLock_eq_error hanswer with hsame | ⟨-, -, -, -, hrejected⟩
      · simp only [hsame, Engine.putRegion_self hget]
        rfl
      · rw [hrejected]
        exact Action.holdings_engine u.client fun p t =>
          Engine.heldAt_putRegion_same hget rfl (RegionLock.sameHolders_reject r.lock)
    | ok =>
      have hregion : token.region = r.id := by
        by_contra hne
        rw [Region.endLock_eq, if_pos hne] at hanswer
        cases hanswer
      have hnodup := htracked.locks.nodup place r hget
      refine Holdings.ext (Set.ext fun t => ?_) (funext fun connection => ?_)
      · change (∃ p, (u.client.engine.putRegion place _).HeldAt p t) ↔
          (∃ p, u.client.engine.HeldAt p t) ∧ t ≠ token
        refine Engine.exists_heldAt_released hget (Region.holdsFor_endLock_iff hnodup) ?_
        -- The token names the region at the place, and no other one.
        rintro p hp ⟨s, hs, hid, -⟩ rfl
        have hsize := hsound.attached.size_le
        exact hp (hsound.registered.place_eq (by omega) hs hget (hid.trans hregion))
      · simp only [Client.holdings, Client.held_changeHeld, Function.update_apply,
          Holdings.afterAll_cons, Holdings.afterAll_nil, Holdings.after]
        split <;> rfl

/-- A connection that is closed gives back what is outstanding on it. -/
theorem holdings_close (hconn : conn ∈ u.opened) (order : List QueryHandle) :
    ((conn.closeIn order).outcome u.client).2.holdings =
      u.client.holdings.afterAll ((Deed.close conn order).lockEvents u.client) := by
  obtain ⟨place, r, hr, hlocal⟩ := htracked.opened.standsFor conn hconn
  have hget := Engine.getElem?_of_resolve hr
  obtain ⟨r', hback, houtcome⟩ := Connection.outcome_closeIn order hr hlocal
    (htracked.locks.nodup place r hget)
  rw [houtcome, Deed.lockEvents, Holdings.afterAll_ended]
  refine Holdings.ext (Set.ext fun t => ?_) ?_
  · change (∃ p, (u.client.engine.putRegion place
        (r'.detach conn.handle.connection)).HeldAt p t) ↔
      (∃ p, u.client.engine.HeldAt p t) ∧ t ∉ (u.client.held conn.handle.connection).locks
    exact Engine.exists_heldAt_released hget (hback.holdsFor_iff t) fun p hp hheld =>
      htracked.locks.not_mem_of_ne hsound hopens hconn hr hp hheld
  · funext connection
    have hgone : (u.client.held conn.handle.connection).locks.filter
        (· ∉ (u.client.held conn.handle.connection).locks) = [] :=
      List.filter_eq_nil_iff.2 fun t ht h => of_decide_eq_true h ht
    simp only [Client.holdings, Client.held_erase, Function.update_apply, hgone]
    split <;> rfl

/-- **A deed does to the locks what it answers for**, and nothing else. -/
theorem holdings_does {deed : Deed} (hallowed : u.Allows deed) :
    (u.does deed).client.holdings =
      u.client.holdings.afterAll (deed.lockEvents u.client) := by
  rw [client_does]
  cases deed with
  | openWith settings => exact Connection.keepsLocks_openWith settings u.client
  | close conn order => exact holdings_close htracked hsound hopens hallowed.1 order
  | deleteDatabase name => exact Connection.keepsLocks_deleteDatabase name u.client
  | stats conn => rfl
  | record conn op => exact conn.keepsLocks_record op u.client
  | buildQuery conn request => exact conn.keepsLocks_buildQuery request u.client
  | fetch conn q => exact conn.keepsLocks_fetch q u.client
  | freeQuery conn q => exact conn.keepsLocks_freeQuery q u.client
  | lock conn kind mode => exact holdings_lock conn kind mode u.client
  | endLock conn token => exact holdings_endLock htracked hsound hopens conn token

end Tracked

end Usage

end RecordStore
