import RecordStore.Proofs.Engine.Locking
import RecordStore.Proofs.Sections.Body
/-!
# Waiting — that others wait makes no difference

Whoever waits for the lock of a region is counted in the lock, and in
nothing else. Two engines, or clients, are `Alike` if they differ in these
counts only. What is done under an exclusive lock answers the same in
clients that are alike and leaves them alike (`Action.Like`), and a request
that is let in after a wait is let in as a new one would have been
(`like_retryLock`).
-/

namespace RecordStore

/-! ## Locks -/

namespace RegionLock

/-- The lock without what it knows of those who wait. -/
def unawaited (l : RegionLock) : RegionLock :=
  { l with waitingWriters := 0, counts := { l.counts with waits := 0 } }

variable (l : RegionLock) (id : LockId) (mode : LockMode)

theorem release_unawaited :
    l.unawaited.release id mode = ((l.release id mode).1, (l.release id mode).2.unawaited) := by
  have hheld : l.unawaited.isHeld id mode = l.isHeld id mode := by cases mode <;> rfl
  simp only [release, hheld]
  cases l.isHeld id mode with
  | true => cases mode <;> rfl
  | false => rfl

end RegionLock

/-! ## Regions -/

namespace Region

variable {α : Type} {r r' : Region}

/-- The region without what its lock knows of those who wait. -/
def unawaited (r : Region) : Region := r.relock r.lock.unawaited

@[simp] theorem unawaited_id (r : Region) : r.unawaited.id = r.id := rfl

/-- Two changes of a region that answer the same and leave the same, whoever waits for the
lock. -/
def Like (f g : Region → Except Error α × Region) : Prop :=
  ∀ r r', r.unawaited = r'.unawaited →
    (f r).1 = (g r').1 ∧ (f r).2.unawaited = (g r').2.unawaited

/-- Two changes are alike if both come to what one of them does where nobody waits. -/
theorem like_of_unawaited {f g : Region → Except Error α × Region}
    (hf : ∀ r, (f r).1 = (g r.unawaited).1 ∧ (f r).2.unawaited = (g r.unawaited).2.unawaited)
    (hg : ∀ r, (g r).1 = (g r.unawaited).1 ∧ (g r).2.unawaited = (g r.unawaited).2.unawaited) :
    Like f g := by
  intro r r' h
  rw [(hf r).1, (hf r).2, (hg r').1, (hg r').2, h]
  exact ⟨rfl, rfl⟩

/-- A change that does not look at who waits. -/
theorem like_of_commutes {f : Region → Except Error α × Region}
    (h : ∀ r, f r.unawaited = ((f r).1, (f r).2.unawaited)) : Like f f := by
  have hf : ∀ r, (f r).1 = (f r.unawaited).1 ∧
      (f r).2.unawaited = (f r.unawaited).2.unawaited := fun r => by rw [h r]; exact ⟨rfl, rfl⟩
  exact like_of_unawaited hf hf

/-- A change that is the same under any lock is the same whoever waits. -/
theorem LockBlind.like {f : Region → Except Error α × Region} (h : LockBlind f) : Like f f := by
  refine like_of_commutes fun r => ?_
  have hlock : (f r).2.lock = r.lock := congrArg (fun result => result.2.lock) (h r r.lock)
  rw [unawaited, h, unawaited, hlock]

theorem startLock_unawaited (r : Region) :
    (r.startLock .exclusive).1 = (r.unawaited.startLock .exclusive).1 ∧
      (r.startLock .exclusive).2.unawaited = (r.unawaited.startLock .exclusive).2.unawaited := by
  have hgrant : r.unawaited.lock.canGrant .exclusive = r.lock.canGrant .exclusive := rfl
  simp only [startLock_eq, hgrant]
  cases r.lock.canGrant .exclusive <;> exact ⟨rfl, rfl⟩

theorem like_startLock :
    Like (fun r => r.startLock .exclusive) (fun r => r.startLock .exclusive) :=
  like_of_unawaited startLock_unawaited startLock_unawaited

/-- **A request that waited** is let in as a new one would be; and if it is not, it waits as a
new one would. -/
theorem like_resumeLock :
    Like (fun r => r.resumeLock .exclusive) (fun r => r.startLock .exclusive) := by
  refine like_of_unawaited (fun r => ?_) startLock_unawaited
  have hgrant : r.unawaited.lock.canGrant .exclusive = r.lock.canGrant .exclusive := rfl
  simp only [resumeLock_eq, startLock_eq, hgrant]
  cases r.lock.canGrant .exclusive <;> exact ⟨rfl, rfl⟩

theorem like_endLock (token : LockToken) (mode : LockMode) :
    Like (fun r => r.endLock token mode) (fun r => r.endLock token mode) := by
  refine like_of_commutes fun r => ?_
  have hrelease : r.unawaited.lock.release token.id mode = _ :=
    r.lock.release_unawaited token.id mode
  simp only [endLock_eq, unawaited_id, hrelease]
  by_cases hregion : token.region ≠ r.id
  · simp only [if_pos hregion]
  · by_cases hmode : token.mode ≠ mode
    · simp only [if_neg hregion, if_pos hmode]
    · simp only [if_neg hregion, if_neg hmode]
      rfl

end Region

/-! ## Engines -/

namespace Engine

variable {α : Type} {e e' : Engine} {db : DbHandle} {place : Nat} {r : Region}

/-- The engine without what the locks of its regions know of those who wait. -/
def unawaited (e : Engine) : Engine := { e with regions := e.regions.map Region.unawaited }

/-- The engines differ only in who waits. -/
def Alike (e e' : Engine) : Prop := e.unawaited = e'.unawaited

theorem putRegion_unawaited (e : Engine) (place : Nat) (r : Region) :
    (e.putRegion place r).unawaited = e.unawaited.putRegion place r.unawaited := by
  simp only [unawaited, putRegion, Array.map_setIfInBounds]

theorem regionAt?_unawaited (e : Engine) (place : Nat) :
    e.unawaited.regionAt? place =
      (e.regionAt? place).map fun found => (found.1, found.2.unawaited) := by
  simp only [regionAt?, unawaited, Array.getElem?_map, Option.map_map]
  rfl

theorem resolve_unawaited (e : Engine) (db : DbHandle) :
    e.unawaited.resolve db = (e.resolve db).map fun found => (found.1, found.2.unawaited) := by
  have hattached : e.unawaited.attachment? db.connection =
      (e.attachment? db.connection).map fun found => (found.1, found.2.unawaited) := by
    simp only [attachment?, Option.map_bind]
    exact congrArg _ (funext e.regionAt?_unawaited)
  simp only [resolve, hattached]
  cases e.attachment? db.connection with
  | none => rfl
  | some found =>
    change (if found.2.id = db.region then _ else _) = Except.map _ (if _ then _ else _)
    by_cases hid : found.2.id = db.region
    · rw [if_pos hid, if_pos hid]
      rfl
    · rw [if_neg hid, if_neg hid]
      rfl

/-- A handle stands for regions at the same place, alike, or is refused alike. -/
theorem Alike.resolve (h : e.Alike e') (db : DbHandle) :
    (∃ err, e.resolve db = .error err ∧ e'.resolve db = .error err) ∨
      ∃ place r r', e.resolve db = .ok (place, r) ∧ e'.resolve db = .ok (place, r') ∧
        r.unawaited = r'.unawaited := by
  have hresolve := congrArg (fun e => e.resolve db) h
  simp only [resolve_unawaited] at hresolve
  cases hr : e.resolve db with
  | error err =>
    rw [hr] at hresolve
    cases hr' : e'.resolve db with
    | error err' =>
      rw [hr'] at hresolve
      exact .inl ⟨err, rfl, hresolve.symm⟩
    | ok found' => rw [hr'] at hresolve; cases hresolve
  | ok found =>
    rw [hr] at hresolve
    cases hr' : e'.resolve db with
    | error err' => rw [hr'] at hresolve; cases hresolve
    | ok found' =>
      rw [hr'] at hresolve
      simp only [Except.map, Except.ok.injEq, Prod.mk.injEq] at hresolve
      exact .inr ⟨found.1, found.2, found'.2, rfl, by rw [hresolve.1], hresolve.2⟩

/-- Changes of a region that are alike are alike as calls. -/
theorem Alike.onRegion {f g : Region → Except Error α × Region} (h : e.Alike e')
    (hfg : Region.Like f g) (db : DbHandle) :
    (e.onRegion db f).1 = (e'.onRegion db g).1 ∧
      (e.onRegion db f).2.Alike (e'.onRegion db g).2 := by
  rcases h.resolve db with ⟨err, hr, hr'⟩ | ⟨place, r, r', hr, hr', hsame⟩
  · simp only [Engine.onRegion, hr, hr']
    exact ⟨trivial, h⟩
  · obtain ⟨hanswer, hregion⟩ := hfg r r' hsame
    simp only [Engine.onRegion, hr, hr']
    refine ⟨hanswer, ?_⟩
    have hengine : e.unawaited = e'.unawaited := h
    simp only [Alike, putRegion_unawaited, hregion, hengine]

theorem Alike.checkedOn {f : Region → Except Error α × Region} (h : e.Alike e')
    (hf : Region.LockBlind f) (check : Except Error Unit) (db : DbHandle) :
    (e.checkedOn check db f).1 = (e'.checkedOn check db f).1 ∧
      (e.checkedOn check db f).2.Alike (e'.checkedOn check db f).2 := by
  cases check with
  | error err => exact ⟨rfl, h⟩
  | ok => exact h.onRegion hf.like db

/-- A question that is not about the lock has the same answer whoever waits. -/
theorem Alike.askRegion {ask : Region → Except Error α} (h : e.Alike e')
    (hask : ∀ r lock, ask (Region.relock r lock) = ask r) (db : DbHandle) :
    e.askRegion db ask = e'.askRegion db ask := by
  rcases h.resolve db with ⟨err, hr, hr'⟩ | ⟨place, r, r', hr, hr', hsame⟩
  · simp only [Engine.askRegion, hr, hr']
  · simp only [Engine.askRegion, hr, hr', Except.bind]
    exact (hask r _).symm.trans ((congrArg ask hsame).trans (hask r' _))

theorem Alike.settings (h : e.Alike e') : e.settings = e'.settings := congrArg (·.settings) h

end Engine

/-! ## Clients -/

namespace Client

/-- The clients differ only in who waits. -/
structure Alike (c c' : Client) : Prop where
  engine : c.engine.Alike c'.engine
  faults : c.faults = c'.faults
  writes : c.writes = c'.writes
  outstanding : c.outstanding = c'.outstanding

variable {c c' c'' : Client}

theorem Alike.refl (c : Client) : c.Alike c := ⟨rfl, rfl, rfl, rfl⟩

theorem Alike.symm (h : c.Alike c') : c'.Alike c :=
  ⟨h.engine.symm, h.faults.symm, h.writes.symm, h.outstanding.symm⟩

theorem Alike.trans (h : c.Alike c') (h' : c'.Alike c'') : c.Alike c'' :=
  ⟨h.engine.trans h'.engine, h.faults.trans h'.faults, h.writes.trans h'.writes,
    h.outstanding.trans h'.outstanding⟩

end Client

namespace Action

variable {α β : Type}

/-- The actions have the same result in clients that are alike, and leave them alike. -/
def Like (a b : Action α) : Prop :=
  ∀ c c', c.Alike c' →
    (a.outcome c).1 = (b.outcome c').1 ∧ (a.outcome c).2.Alike (b.outcome c').2

theorem Like.bind {a b : Action α} {next next' : α → Action β} (h : Like a b)
    (hnext : ∀ x, Like (next x) (next' x)) : Like (a >>= next) (b >>= next') := by
  intro c c' halike
  obtain ⟨hresult, hafter⟩ := h c c' halike
  rw [outcome_bind, outcome_bind]
  generalize a.outcome c = left at hresult hafter
  generalize b.outcome c' = right at hresult hafter
  obtain ⟨result, c₁⟩ := left
  obtain ⟨result', c₁'⟩ := right
  obtain rfl : result = result' := hresult
  cases result with
  | error err => exact ⟨rfl, hafter⟩
  | ok x => exact hnext x c₁ c₁' hafter

theorem like_pure (x : α) : Like (pure x) (pure x) := fun _ _ h => ⟨rfl, h⟩

theorem like_change {f g : Engine → Except Error α × Engine}
    (h : ∀ e e', e.Alike e' → (f e).1 = (g e').1 ∧ (f e).2.Alike (g e').2) :
    Like (change f) (change g) := by
  intro c c' halike
  obtain ⟨hanswer, hengine⟩ := h c.engine c'.engine halike.engine
  rw [outcome_change, outcome_change, hanswer]
  exact ⟨rfl, hengine, halike.faults, halike.writes, halike.outstanding⟩

theorem like_ask {f : Engine → Except Error α} (h : ∀ e e', e.Alike e' → f e = f e') :
    Like (ask f) (ask f) := by
  intro c c' halike
  have hanswer := h c.engine c'.engine halike.engine
  exact ⟨congrArg (fun a => a.mapError ClientError.engine) hanswer, halike⟩

/-- An action that is done unless a plan lets it fail. -/
theorem like_unless {fails : Client → Bool} {err : Client → ClientError}
    (prepare : Client → Client) {action : Action α}
    (hfails : ∀ c c', c.Alike c' → fails c = fails c' ∧ err c = err c')
    (hprepare : ∀ c c', c.Alike c' → (prepare c).Alike (prepare c')) (h : Like action action) :
    let guarded : Action α := ofState fun c =>
      if fails c then (.error (err c), prepare c) else action.outcome (prepare c)
    Like guarded guarded := by
  intro guarded c c' halike
  change (if fails c then _ else _ : Except ClientError α × Client).1 =
    (if fails c' then _ else _ : Except ClientError α × Client).1 ∧
      (if fails c then _ else _ : Except ClientError α × Client).2.Alike
        (if fails c' then _ else _ : Except ClientError α × Client).2
  rw [← (hfails c c' halike).1, ← (hfails c c' halike).2]
  cases fails c with
  | true => exact ⟨rfl, hprepare c c' halike⟩
  | false => exact h _ _ (hprepare c c' halike)

end Action

namespace Connection

variable {β : Type} (conn : Connection)

theorem like_track (f : Outstanding → Outstanding) :
    Action.Like (conn.track f) (conn.track f) := by
  intro c c' h
  refine ⟨rfl, h.engine, h.faults, h.writes, ?_⟩
  change c.outstanding.insert _ (f (c.held _)) = c'.outstanding.insert _ (f (c'.held _))
  rw [Client.held, Client.held, h.outstanding]

theorem like_trackToken (token : Option LockToken) :
    Action.Like (conn.trackToken token) (conn.trackToken token) := by
  cases token with
  | none => exact Action.like_pure ()
  | some token => exact conn.like_track _

/-- Lets a request that waits for the lock look again. -/
def retryLock (mode : LockMode) : Action (Option LockToken) := do
  let token ← Action.change fun e => e.resumeLock conn.handle mode
  conn.trackToken token
  return token

/-! ## The exclusive lock -/

theorem like_startLock : Action.Like (conn.startLock .exclusive) (conn.startLock .exclusive) :=
  (Action.like_change fun _ _ h => h.onRegion Region.like_startLock conn.handle).bind fun token =>
    (conn.like_trackToken token).bind fun _ => Action.like_pure token

/-- **A request that waited** comes to what a new one would come to. -/
theorem like_retryLock : Action.Like (conn.retryLock .exclusive) (conn.startLock .exclusive) :=
  (Action.like_change fun _ _ h => h.onRegion Region.like_resumeLock conn.handle).bind fun token =>
    (conn.like_trackToken token).bind fun _ => Action.like_pure token

theorem like_endLock (token : LockToken) :
    Action.Like (conn.endLock token) (conn.endLock token) :=
  (Action.like_change fun _ _ h => h.onRegion (Region.like_endLock token _) conn.handle).bind
    fun _ => conn.like_track _

theorem outcome_underLock (token : LockToken) (body : Action β) (c : Client) :
    (conn.underLock token body).outcome c =
      ((body.outcome c).1.bind fun b =>
          ((conn.endLock token).outcome (body.outcome c).2).1.map fun _ => b,
        ((conn.endLock token).outcome (body.outcome c).2).2) := rfl

theorem like_underLock (token : LockToken) {body : Action β} (h : Action.Like body body) :
    Action.Like (conn.underLock token body) (conn.underLock token body) := by
  intro c c' halike
  obtain ⟨hresult, hafter⟩ := h c c' halike
  obtain ⟨hreleased, hend⟩ := conn.like_endLock token _ _ hafter
  rw [outcome_underLock, outcome_underLock, hresult, hreleased]
  exact ⟨rfl, hend⟩

end Connection

/-! ## What is done under the lock -/

/-- **A call on records** does the same whoever waits. -/
theorem RecordCall.like_action (conn : Connection) (op : RecordCall) :
    Action.Like (op.action conn) (op.action conn) := by
  cases op with
  | create n =>
    refine Action.like_change fun e e' h => ?_
    simp only [Engine.create, Engine.checkLength, h.settings]
    exact h.checkedOn ((Region.lockBlind_create n).reword _) _ _
  | first => exact Action.like_ask fun _ _ h => h.askRegion (fun _ _ => rfl) _
  | next rec =>
    refine Action.like_ask fun _ _ h => congrArg _ (funext fun _ => ?_)
    exact h.askRegion (fun _ _ => rfl) _
  | delete rec =>
    refine Action.like_unless id (fun _ _ h => ⟨by rw [h.faults], rfl⟩) (fun _ _ h => h) ?_
    exact Action.like_change fun _ _ h => h.checkedOn (Region.lockBlind_delete rec.key) _ _
  | length rec =>
    refine Action.like_ask fun _ _ h => congrArg _ (funext fun _ => ?_)
    exact h.askRegion (fun _ _ => rfl) _
  | set rec index value =>
    refine Action.like_unless (fun c => { c with writes := c.writes + 1 })
      (fun _ _ h => ⟨by rw [h.faults, h.writes], by rw [h.faults, h.writes]⟩)
      (fun _ _ h => ⟨h.engine, h.faults, congrArg (· + 1) h.writes, h.outstanding⟩) ?_
    exact Action.like_change fun _ _ h => h.checkedOn (Region.lockBlind_set rec.key index value) _ _
  | get rec index =>
    refine Action.like_ask fun _ _ h => congrArg _ (funext fun _ => ?_)
    exact h.askRegion (fun _ _ => rfl) _

end RecordStore
