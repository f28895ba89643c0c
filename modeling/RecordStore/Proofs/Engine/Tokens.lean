import RecordStore.Proofs.Engine.Locking
/-!
# Tokens — who can give a lock back

The token of a lock names the region, the grant and the mode, but not the
connection that the lock was granted to. The lock stays held until the
token itself is given back (`HeldAt.run`), and until then it can be given
back through any connection to the region, whether or not the one that it
was granted to is still attached (`token_ends_through_any_handle`).
-/

namespace RecordStore

namespace RegionLock

variable {l : RegionLock} {id other : LockId} {mode held : LockMode}

/-! ## What keeps a lock held -/

/-- A lock that is held does not go away when another request is granted. -/
theorem isHeld_grant (hheld : l.isHeld id held = true) (h : l.canGrant mode = true) :
    (l.grant mode).2.isHeld id held = true := by
  cases mode with
  | exclusive =>
    -- An exclusive grant needs a free lock.
    obtain ⟨hwriter, hreaders⟩ := canGrant_exclusive_iff.1 h
    cases held <;> simp [isHeld, hwriter, hreaders] at hheld
  | shared =>
    obtain ⟨hwriter, -⟩ := canGrant_shared_iff.1 h
    cases held with
    | exclusive => simp [isHeld, hwriter] at hheld
    | shared =>
      simp only [isHeld, List.contains_iff_mem] at hheld
      simp only [isHeld, grant, hold, List.contains_iff_mem]
      exact List.mem_insert_of_mem hheld

theorem isHeld_letIn (hheld : l.isHeld id held = true) (h : l.canGrant mode = true) :
    (l.letIn mode).isHeld id held = true := by
  have hgrant := isHeld_grant hheld h
  cases mode <;> cases held <;> exact hgrant

theorem isHeld_acquire (hheld : l.isHeld id held = true) :
    (l.acquire mode).2.isHeld id held = true := by
  simp only [acquire, tryAcquire]
  cases h : l.canGrant mode with
  | true => exact isHeld_grant hheld h
  | false =>
    cases held <;> exact hheld

/-- The release of another lock leaves a lock held. -/
theorem isHeld_release (hheld : l.isHeld id held = true) (hother : ¬ (other = id ∧ mode = held)) :
    (l.release other mode).2.isHeld id held = true := by
  simp only [release]
  cases hreleased : l.isHeld other mode with
  | false => cases held <;> exact hheld
  | true =>
    simp only [if_true]
    cases mode <;> cases held
    case shared.shared =>
      simp only [isHeld, List.contains_iff_mem] at hheld
      simp only [isHeld, drop, List.contains_iff_mem]
      exact (List.mem_erase_of_ne fun heq => hother ⟨heq.symm, rfl⟩).2 hheld
    case shared.exclusive => exact hheld
    case exclusive.shared => exact hheld
    case exclusive.exclusive =>
      -- There is one writer, so that both identifiers are his.
      simp only [isHeld, beq_iff_eq] at hheld hreleased
      exact absurd ⟨Option.some.inj (hreleased.symm.trans hheld), rfl⟩ hother

/-- A new holder holds the lock. -/
theorem isHeld_grant_self (l : RegionLock) (mode : LockMode) :
    (l.grant mode).2.isHeld l.nextId mode = true := by
  cases mode with
  | shared =>
    simp only [isHeld, grant, hold, List.contains_iff_mem]
    exact List.mem_insert_self
  | exclusive => simp [isHeld, grant, hold]

theorem isHeld_letIn_self (l : RegionLock) (mode : LockMode) :
    (l.letIn mode).isHeld l.nextId mode = true :=
  isHeld_grant_self _ mode

end RegionLock

namespace Region

variable {r : Region} {db : DbHandle} {call : Call} {token : LockToken} {mode : LockMode}

/-- The region holds its lock for a token. -/
def HoldsFor (r : Region) (token : LockToken) : Prop :=
  r.id = token.region ∧ r.lock.isHeld token.id token.mode = true

/-- A lock is given back only under the identifier and in the mode that its token names. -/
theorem isHeld_endLock (h : r.HoldsFor token) {t : LockToken}
    (hother : ¬ (t = token ∧ mode = token.mode)) :
    (r.endLock t mode).2.lock.isHeld token.id token.mode = true := by
  rw [endLock_eq]
  split
  · exact h.2
  · rename_i hregion
    split
    · exact h.2
    · rename_i hmode
      -- The token fits the region and the mode, so that it differs in its identifier.
      refine RegionLock.isHeld_release h.2 fun heq => hother ⟨?_, heq.2⟩
      obtain ⟨tregion, tid, tmode⟩ := t
      simp only [ne_eq, Decidable.not_not] at hregion hmode heq
      rw [hregion, hmode, h.1, heq.1, heq.2]

/-- **A lock stays held** until its token is given back. -/
theorem HoldsFor.serve (h : r.HoldsFor token) (hcall : ∀ d, call ≠ .endLock d token token.mode) :
    (r.serve db call).2.HoldsFor token := by
  refine ⟨(r.serve_id db call).trans h.1, ?_⟩
  cases hlocking : call.isLocking with
  | false =>
    rw [serve_lock db hlocking]
    exact h.2
  | true =>
    cases call <;> simp only [Call.isLocking, Bool.false_eq_true] at hlocking
    case startLock d mode => exact RegionLock.isHeld_acquire h.2
    case resumeLock d mode =>
      simp only [Region.serve, reword, resumeLock_eq]
      split
      · rename_i hgrant
        exact RegionLock.isHeld_letIn h.2 hgrant
      · exact h.2
    case tryLock d mode =>
      simp only [Region.serve, reword, tryLock_eq]
      split
      · rename_i hgrant
        exact RegionLock.isHeld_grant h.2 hgrant
      · exact h.2
    case endLock d t mode =>
      refine isHeld_endLock h ?_
      rintro ⟨rfl, rfl⟩
      exact hcall d rfl

/-- A token that a region gives out stands for its lock as the grant left it. -/
theorem holdsFor_of_grant {lock : RegionLock} {other : Region}
    {served : Except Error (Option LockToken) × Region}
    (hserved : served =
      if r.lock.canGrant mode then
        (.ok (some (r.tokenOf mode r.lock.nextId)), r.relock lock)
      else (.ok none, other))
    (hlock : lock.isHeld r.lock.nextId mode = true)
    (h : served.1.map Reply.token = .ok (.token (some token))) : served.2.HoldsFor token := by
  rw [hserved] at h ⊢
  split at h
  · rename_i hgrant
    cases h
    rw [if_pos hgrant]
    exact ⟨rfl, hlock⟩
  · cases h

/-- A region that gives out a token holds its lock for it. -/
theorem holdsFor_of_granted (h : (r.serve db call).1 = .ok (.token (some token))) :
    (r.serve db call).2.HoldsFor token := by
  -- An answer in other words is a token only where it is put so.
  have hwords : ∀ {α : Type} {f : α → Reply} {answer : Except Error α},
      (∀ a, f a ≠ .token (some token)) → answer.map f ≠ .ok (.token (some token)) := by
    intro α f answer hf heq
    cases answer with
    | error err => cases heq
    | ok a => exact hf a (Except.ok.inj heq)
  cases call with
  | startLock d mode =>
    exact holdsFor_of_grant (r.startLock_eq mode) (r.lock.isHeld_grant_self mode) h
  | resumeLock d mode =>
    exact holdsFor_of_grant (r.resumeLock_eq mode) (r.lock.isHeld_letIn_self mode) h
  | tryLock d mode =>
    exact holdsFor_of_grant (r.tryLock_eq mode) (r.lock.isHeld_grant_self mode) h
  | create | next | delete | length | set | get | buildQuery | fetch | freeQuery | endLock =>
    exact absurd h (hwords nofun)
  | _ => cases h

/-- **The token ends the lock** that it was given out for. -/
theorem HoldsFor.endLock (h : r.HoldsFor token) :
    ∃ counts, r.endLock token token.mode =
      (.ok (), r.relock { r.lock.drop token.id token.mode with counts }) := by
  refine ⟨{ r.lock.counts with releases := r.lock.counts.releases + 1 }, ?_⟩
  rw [endLock_eq, if_neg (not_not.2 h.1.symm), if_neg (not_not.2 rfl)]
  simp only [RegionLock.release, h.2, if_true]

end Region

namespace Engine

variable {e e' : Engine} {call grant : Call} {db a b : DbHandle} {place : Nat} {r r₀ : Region}
variable {token : LockToken}

/-! ## What becomes of a region -/

/-- **A region after a call**: it is what it was, or one connection more or fewer is attached
to it, or it served the call. -/
theorem exists_region_of_perform (call : Call) (h : e.regions[place]? = some r) :
    ∃ r', (e.perform call).2.regions[place]? = some r' ∧
      (r' = r ∨ r' = r.attach ∨ (∃ connection, r' = r.detach connection) ∨
        ∃ db, r' = (r.serve db call).2) := by
  have hout := e.outcome_perform call
  generalize (e.perform call).1 = answer, (e.perform call).2 = e' at hout ⊢
  -- Where a region was put back at a place, only the one there is another.
  have hput : ∀ {p r₀ r₁}, e.regions[p]? = some r₀ →
      ∃ r', (e.putRegion p r₁).regions[place]? = some r' ∧ (r' = r ∨ r = r₀ ∧ r' = r₁) := by
    intro p r₀ r₁ hr₀
    rw [getElem?_putRegion hr₀]
    split
    · rename_i hp
      rw [hp, hr₀, Option.some.injEq] at h
      exact ⟨r₁, rfl, .inr ⟨h.symm, rfl⟩⟩
    · exact ⟨r, h, .inl rfl⟩
  cases hout with
  | refused err => exact ⟨r, h, .inl rfl⟩
  | aside _ hregions => exact ⟨r, hregions ▸ h, .inl rfl⟩
  | joined _ hr hregions =>
    obtain ⟨r', hr', hcases⟩ := hput hr
    refine ⟨r', hregions ▸ hr', hcases.imp_right ?_⟩
    rintro ⟨rfl, rfl⟩
    exact .inl rfl
  | founded i name capacity _ hregions =>
    have hlt := (Array.getElem?_eq_some_iff.1 h).1
    exact ⟨r, by rw [hregions, Array.getElem?_push, if_neg (Nat.ne_of_lt hlt), h], .inl rfl⟩
  | released _ _ hr =>
    obtain ⟨r', hr', hcases⟩ := hput (getElem?_of_resolve hr)
    refine ⟨r', hr', hcases.imp_right ?_⟩
    rintro ⟨rfl, rfl⟩
    exact .inr (.inl ⟨_, rfl⟩)
  | served _ _ _ hr =>
    obtain ⟨r', hr', hcases⟩ := hput (getElem?_of_resolve hr)
    refine ⟨r', hr', hcases.imp_right ?_⟩
    rintro ⟨rfl, rfl⟩
    exact .inr (.inr ⟨_, rfl⟩)

/-! ## A lock from its grant to its release -/

/-- The region at a place holds its lock for a token. -/
def HeldAt (e : Engine) (place : Nat) (token : LockToken) : Prop :=
  ∃ r, e.regions[place]? = some r ∧ r.HoldsFor token

theorem HeldAt.perform (h : e.HeldAt place token)
    (hcall : ∀ d, call ≠ .endLock d token token.mode) :
    (e.perform call).2.HeldAt place token := by
  obtain ⟨r, hr, hheld⟩ := h
  obtain ⟨r', hr', hcases⟩ := exists_region_of_perform call hr
  refine ⟨r', hr', ?_⟩
  rcases hcases with rfl | rfl | ⟨_, rfl⟩ | ⟨db, rfl⟩
  · exact hheld
  · exact hheld
  · exact hheld
  · exact hheld.serve hcall

/-- **A lock stays held in a run** that does not give its token back. -/
theorem HeldAt.run {calls : List Call} (h : e.HeldAt place token)
    (hcalls : ∀ d, .endLock d token token.mode ∉ calls) : (e.run calls).HeldAt place token := by
  induction calls generalizing e with
  | nil => exact h
  | cons call calls ih =>
    rw [run_cons]
    refine ih (h.perform fun d heq => hcalls d ?_) fun d hd => hcalls d (List.mem_cons_of_mem _ hd)
    rw [heq]
    exact List.mem_cons_self

/-- The lock is held for a token that a call gave out, in the region of the call. -/
theorem heldAt_of_granted (ha : grant.handle? = some a) (hr : e.resolve a = .ok (place, r))
    (h : (e.perform grant).1 = .ok (.token (some token))) :
    (e.perform grant).2.HeldAt place token := by
  have hout := e.outcome_perform grant
  generalize (e.perform grant).1 = answer, (e.perform grant).2 = e' at h hout ⊢
  cases hout with
  | refused err => cases h
  | aside hhandle => rw [ha] at hhandle; cases hhandle
  | joined => cases h
  | founded => cases h
  | released => cases h
  | @served db p r₁ hhandle hends hcheck hr₁ =>
    rw [ha, Option.some.injEq] at hhandle
    subst hhandle
    rw [hr, Except.ok.injEq, Prod.mk.injEq] at hr₁
    obtain ⟨rfl, rfl⟩ := hr₁
    refine ⟨_, ?_, Region.holdsFor_of_granted h⟩
    rw [getElem?_putRegion (getElem?_of_resolve hr), if_pos rfl]

/-- **A token ends its lock through any connection to the region.** However long ago the lock
was granted, and whether or not the connection that it was granted to is still attached: as
long as the token has not been given back the lock is held, and any handle `b` that stands for
the region can give it back. -/
theorem token_ends_through_any_handle (ha : grant.handle? = some a)
    (hr₀ : e.resolve a = .ok (place, r₀))
    (hgrant : (e.perform grant).1 = .ok (.token (some token))) {later : List Call}
    (hlater : ∀ d, .endLock d token token.mode ∉ later) :
    let e' := (e.perform grant).2.run later
    ∀ b r, e'.resolve b = .ok (place, r) →
      r.lock.isHeld token.id token.mode = true ∧
        ∃ counts, e'.perform (.endLock b token token.mode) =
          (.ok .done, e'.putRegion place
            (r.relock { r.lock.drop token.id token.mode with counts })) := by
  intro e' b r hb
  obtain ⟨r', hr', hheld⟩ := (heldAt_of_granted ha hr₀ hgrant).run hlater
  rw [getElem?_of_resolve hb, Option.some.injEq] at hr'
  subst hr'
  obtain ⟨counts, hend⟩ := hheld.endLock
  refine ⟨hheld.2, counts, ?_⟩
  have hhandle : (Call.endLock b token token.mode).handle? = some b := rfl
  rw [perform_of_resolve hhandle rfl rfl hb]
  simp only [Region.serve, reword, hend]
  rfl

/-- The handle of the first connection to a shared region. -/
def firstShared : DbHandle := ⟨⟨1⟩, ⟨1⟩, false⟩

/-- The handle of the second connection to the same region. -/
def secondShared : DbHandle := ⟨⟨1⟩, ⟨2⟩, false⟩

/-- A run in which both are opened. -/
def twoShared : List Call :=
  [.openDatabase (some "shared") 0 false, .openDatabase (some "shared") 0 false]

/-- The token of the first grant on that region. -/
def firstToken : LockToken := ⟨⟨1⟩, ⟨1⟩, .exclusive⟩

/-- Although the connection that was granted the lock is detached, its token ends the lock
through the other one. -/
theorem token_ends_through_any_handle_detached :
    let e := (start {}).run twoShared
    let detached := (e.perform (.startLock firstShared .exclusive)).2.run [.detach firstShared]
    (detached.perform (.endLock firstShared firstToken .exclusive)).1 =
        .error (.badDatabase .notAttached) ∧
      (detached.perform (.endLock secondShared firstToken .exclusive)).1 = .ok .done := by
  intro e detached
  obtain ⟨r₀, hr₀⟩ : ∃ r₀, e.resolve firstShared = .ok (0, r₀) := ⟨_, rfl⟩
  obtain ⟨r, hr⟩ : ∃ r, detached.resolve secondShared = .ok (0, r) := ⟨_, rfl⟩
  have hhandle : (Call.startLock firstShared .exclusive).handle? = some firstShared := rfl
  have hgrant : (e.perform (.startLock firstShared .exclusive)).1 =
      .ok (.token (some firstToken)) := rfl
  have hlater : ∀ d, .endLock d firstToken firstToken.mode ∉ [Call.detach firstShared] := by simp
  obtain ⟨-, counts, hend⟩ :=
    token_ends_through_any_handle hhandle hr₀ hgrant hlater secondShared r hr
  exact ⟨rfl, congrArg Prod.fst hend⟩

/-- A connection gives back the exclusive lock of another one, and takes it for itself while
the other one still counts on it. -/
theorem token_not_bound_to_connection :
    let e := (start {}).run twoShared
    let locked := (e.perform (.startLock firstShared .exclusive)).2
    let freed := (locked.perform (.endLock secondShared firstToken .exclusive)).2
    (e.perform (.startLock firstShared .exclusive)).1 = .ok (.token (some firstToken)) ∧
      (locked.perform (.tryLock secondShared .exclusive)).1 = .ok (.token none) ∧
      (locked.perform (.endLock secondShared firstToken .exclusive)).1 = .ok .done ∧
      (freed.perform (.tryLock secondShared .exclusive)).1 =
        .ok (.token (some ⟨⟨1⟩, ⟨2⟩, .exclusive⟩)) :=
  ⟨rfl, rfl, rfl, rfl⟩

end Engine

end RecordStore
