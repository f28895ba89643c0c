import RecordStore.Proofs.Lock.Exclusion
import RecordStore.Proofs.Lock.Ledger
import RecordStore.Proofs.Records.History
/-!
# Releasing — which tokens end which locks

Each region numbers the grants of its lock from one on, so that tokens of
different regions have the same numbers. The calls that reach a region write
the ledger of its lock (`lockLedger`), and no other call does. A token ends a
lock through a handle if it is one of the region that the handle stands for,
names the mode that the call releases, and its grant stands in that ledger;
it then ends this grant, and nothing else does (`release_is_exact`).
-/

namespace RecordStore

namespace Call

variable {call : Call}

/-- The entry of a call in the ledger of the lock that it reached, by its answer. -/
def lockEvent? : Call → Except Error Reply → Option LockEvent
  | .startLock _ _, .ok (.token (some t)) => some (.granted t.id t.mode)
  | .resumeLock _ _, .ok (.token (some t)) => some (.granted t.id t.mode)
  | .tryLock _ _, .ok (.token (some t)) => some (.granted t.id t.mode)
  | .endLock _ t mode, .ok _ => some (.released t.id mode)
  | .endLock _ _ _, .error (.lockFailed (.notHeld id mode)) => some (.rejected id mode)
  | _, _ => none

/-- A call that is not about the lock is not entered. -/
theorem lockEvent?_of_not_locking (h : call.isLocking = false) (answer : Except Error Reply) :
    call.lockEvent? answer = none := by
  cases call <;> first | rfl | cases h

/-- A call about the lock is let through to its region. -/
theorem exists_handle_of_locking (h : call.isLocking = true) :
    ∃ db, call.handle? = some db ∧ call.isDetaching = false ∧
      ∀ e : Engine, e.precheck call = .ok () := by
  cases call with
  | startLock db mode => exact ⟨db, rfl, rfl, fun _ => rfl⟩
  | resumeLock db mode => exact ⟨db, rfl, rfl, fun _ => rfl⟩
  | tryLock db mode => exact ⟨db, rfl, rfl, fun _ => rfl⟩
  | endLock db token mode => exact ⟨db, rfl, rfl, fun _ => rfl⟩
  | _ => cases h

end Call

namespace Region

variable {r : Region} {db : DbHandle} {call : Call} {token : LockToken} {mode : LockMode}

/-- **What a region does about its lock** is one of the things that can happen to a lock. -/
theorem moved_serve (h : call.isLocking = true) (db : DbHandle) :
    r.lock.Moved (call.lockEvent? (r.serve db call).1) (r.serve db call).2.lock := by
  cases call <;> simp only [Call.isLocking, Bool.false_eq_true] at h
  case startLock d mode =>
    simp only [serve, reword, startLock_eq]
    cases hgrant : r.lock.canGrant mode with
    | true => exact .granted hgrant
    | false => exact .awaited mode
  case resumeLock d mode =>
    simp only [serve, reword, resumeLock_eq]
    cases hgrant : r.lock.canGrant mode with
    | true => exact .resumed hgrant
    | false => exact .kept
  case tryLock d mode =>
    simp only [serve, reword, tryLock_eq]
    cases hgrant : r.lock.canGrant mode with
    | true => exact .granted hgrant
    | false => exact .kept
  case endLock d token mode =>
    simp only [serve, reword, endLock_eq]
    by_cases hregion : token.region ≠ r.id
    · simp only [if_pos hregion]
      exact .kept
    · by_cases hmode : token.mode ≠ mode
      · simp only [if_neg hregion, if_pos hmode]
        exact .kept
      · simp only [if_neg hregion, if_neg hmode]
        cases hheld : r.lock.isHeld token.id mode with
        | true =>
          have hmoved := RegionLock.Moved.released hheld
          rw [RegionLock.release_of_isHeld hheld] at hmoved ⊢
          exact hmoved
        | false =>
          have hmoved := RegionLock.Moved.rejected hheld
          rw [RegionLock.release_of_not_isHeld hheld] at hmoved ⊢
          exact hmoved

/-- **A token ends the lock of a region** if it fits the region and the mode and its lock is
held. -/
theorem endLock_ok_iff :
    (r.endLock token mode).1 = .ok () ↔
      token.region = r.id ∧ token.mode = mode ∧ r.lock.isHeld token.id mode = true := by
  rw [endLock_eq]
  by_cases hregion : token.region = r.id
  · by_cases hmode : token.mode = mode
    · rw [if_neg (not_not.2 hregion), if_neg (not_not.2 hmode)]
      cases hheld : r.lock.isHeld token.id mode with
      | true => simp [RegionLock.release_of_isHeld hheld, hregion, hmode]
      | false => simp [RegionLock.release_of_not_isHeld hheld]
    · rw [if_neg (not_not.2 hregion), if_pos hmode]
      simp [hmode]
  · rw [if_pos hregion]
    simp [hregion]

end Region

namespace Engine

variable {e e' : Engine} {call : Call} {db : DbHandle} {place : Nat} {r : Region}
variable {settings : EngineSettings} {calls : List Call} {token : LockToken} {mode : LockMode}

/-! ## The ledger of a region's lock -/

/-- The lock of the region at a place; one that was never used where there is no region. -/
def lockAt (e : Engine) (place : Nat) : RegionLock :=
  (e.regions[place]?.map Region.lock).getD {}

/-- The entry of a call in the ledger of the lock at a place. -/
def lockEventAt? (e : Engine) (place : Nat) (call : Call) : Option LockEvent :=
  if e.reaches place call then call.lockEvent? (e.perform call).1 else none

/-- The ledger of the lock at a place, in a run from an engine. -/
def lockLedger (place : Nat) (e : Engine) : List Call → List LockEvent
  | [] => []
  | call :: calls => (e.lockEventAt? place call).toList ++ lockLedger place (e.perform call).2 calls

theorem lockAt_eq (h : e.regions[place]? = some r) : e.lockAt place = r.lock := by
  rw [lockAt, h]
  rfl

theorem lockAt_congr (h : e'.regions = e.regions) : e'.lockAt place = e.lockAt place := by
  simp only [lockAt, h]

theorem lockAt_putRegion {p : Nat} {r' : Region} (h : e.regions[p]? = some r) :
    (e.putRegion p r').lockAt place = if place = p then r'.lock else e.lockAt place := by
  simp only [lockAt, getElem?_putRegion h]
  split <;> rfl

theorem lockAt_putRegion_same {p : Nat} {r' : Region} (h : e.regions[p]? = some r)
    (hsame : r'.lock = r.lock) : (e.putRegion p r').lockAt place = e.lockAt place := by
  rw [lockAt_putRegion h]
  split
  · rename_i hp
    rw [hsame, hp, lockAt_eq h]
  · rfl

/-- A call that is not about locks leaves all of them alone. -/
theorem lockAt_perform (h : call.isLocking = false) :
    (e.perform call).2.lockAt place = e.lockAt place := by
  have hout := e.outcome_perform call
  generalize (e.perform call).1 = answer, (e.perform call).2 = e' at hout ⊢
  cases hout with
  | refused err => rfl
  | aside _ hregions => exact lockAt_congr hregions
  | joined _ hr hregions =>
    exact (lockAt_congr hregions).trans (lockAt_putRegion_same hr rfl)
  | founded i name capacity _ hregions =>
    simp only [lockAt, hregions, Array.getElem?_push]
    by_cases hp : place = e.regions.size
    · -- The lock of the new region was never used, and there was none at its place before.
      rw [if_pos hp, Array.getElem?_eq_none (Nat.le_of_eq hp.symm)]
      rfl
    · rw [if_neg hp]
  | released _ _ hr => exact lockAt_putRegion_same (getElem?_of_resolve hr) rfl
  | @served db p r _ _ _ hr =>
    exact lockAt_putRegion_same (getElem?_of_resolve hr) (Region.serve_lock db h r)

/-- **A call is one of the things that can happen to the lock of a region.** -/
theorem moved_perform (e : Engine) (place : Nat) (call : Call) :
    (e.lockAt place).Moved (e.lockEventAt? place call) ((e.perform call).2.lockAt place) := by
  unfold lockEventAt?
  cases hlocking : call.isLocking with
  | false =>
    rw [lockAt_perform hlocking, Call.lockEvent?_of_not_locking hlocking, ite_self]
    exact .kept
  | true =>
    obtain ⟨db, hhandle, hends, hcheck⟩ := Call.exists_handle_of_locking hlocking
    cases hr : e.resolve db with
    | error err =>
      have hnone : e.reaches place call = false := by
        simp only [reaches, hhandle, Option.map_some, hr]
      have hrefused : e.perform call = (.error err, e) := by
        rw [perform_eq hhandle hends, hcheck]
        simp only [onRegion, hr]
      rw [hnone, hrefused]
      exact .kept
    | ok found =>
      obtain ⟨p, r⟩ := found
      have hget := getElem?_of_resolve hr
      rw [reaches_of_resolve hhandle hr, perform_of_resolve hhandle hends (hcheck e) hr,
        lockAt_putRegion hget]
      by_cases hp : place = p
      · -- The call reached the region itself.
        subst hp
        rw [if_pos rfl, beq_self_eq_true, if_pos rfl, lockAt_eq hget]
        exact Region.moved_serve hlocking db
      · rw [if_neg hp, if_neg (by simpa using Ne.symm hp)]
        exact .kept

theorem accounts_run {past : List LockEvent} (h : (e.lockAt place).Accounts past)
    (calls : List Call) :
    ((e.run calls).lockAt place).Accounts (past ++ lockLedger place e calls) := by
  induction calls generalizing e past with
  | nil =>
    rw [run_nil, lockLedger, List.append_nil]
    exact h
  | cons call calls ih =>
    have hrest := ih (h.moved (e.moved_perform place call))
    rw [List.append_assoc] at hrest
    rw [run_cons]
    exact hrest

/-- **The lock of every region of every run accounts for its ledger.** -/
theorem accounts_lock (h : ((start settings).run calls).regions[place]? = some r) :
    r.lock.Accounts (lockLedger place (start settings) calls) := by
  have hnew : ((start settings).lockAt place).Accounts [] := by
    have hnone : (start settings).lockAt place = {} := by simp [lockAt, start]
    rw [hnone]
    exact .new
  have haccounts := accounts_run hnew calls
  rwa [List.nil_append, lockAt_eq h] at haccounts

/-! ## Tokens -/

theorem perform_endLock (hr : e.resolve db = .ok (place, r)) (token : LockToken)
    (mode : LockMode) :
    e.perform (.endLock db token mode) =
      ((r.endLock token mode).1.map fun _ => .done,
        e.putRegion place (r.endLock token mode).2) := by
  have hhandle : (Call.endLock db token mode).handle? = some db := rfl
  exact perform_of_resolve hhandle rfl rfl hr

/-- **A token ends a lock** through a handle of its region. -/
theorem perform_endLock_ok_iff :
    (e.perform (.endLock db token mode)).1 = .ok .done ↔
      ∃ place r, e.resolve db = .ok (place, r) ∧ token.region = db.region ∧ token.mode = mode ∧
        r.lock.isHeld token.id mode = true := by
  constructor
  · intro h
    cases hr : e.resolve db with
    | error err =>
      have hhandle : (Call.endLock db token mode).handle? = some db := rfl
      have hrefused : e.perform (.endLock db token mode) = (.error err, e) := by
        rw [perform_eq hhandle rfl]
        simp only [precheck, onRegion, hr]
      rw [hrefused] at h
      cases h
    | ok found =>
      obtain ⟨place, r⟩ := found
      have hid := (resolve_eq_ok_iff.1 hr).2.2
      rw [perform_endLock hr] at h
      have hok : (r.endLock token mode).1 = .ok () := by
        cases hanswer : (r.endLock token mode).1 with
        | ok => rfl
        | error err =>
          rw [hanswer] at h
          cases h
      obtain ⟨hregion, hmode, hheld⟩ := Region.endLock_ok_iff.1 hok
      exact ⟨place, r, rfl, hregion.trans hid, hmode, hheld⟩
  · rintro ⟨place, r, hr, hregion, hmode, hheld⟩
    have hid := (resolve_eq_ok_iff.1 hr).2.2
    have hok := Region.endLock_ok_iff.2 ⟨hregion.trans hid.symm, hmode, hheld⟩
    rw [perform_endLock hr, hok]
    rfl

/-- A token that ended a lock ended its own grant, and no other lock in the engine. -/
theorem heldAt_perform_endLock (hr : e.resolve db = .ok (place, r))
    (hnodup : r.lock.readers.Nodup) (hok : (e.perform (.endLock db token mode)).1 = .ok .done)
    (p : Nat) (t : LockToken) :
    (e.perform (.endLock db token mode)).2.HeldAt p t ↔
      e.HeldAt p t ∧ ¬ (p = place ∧ t = token) := by
  obtain ⟨place', r', hr', -, rfl, -⟩ := perform_endLock_ok_iff.1 hok
  have hget := getElem?_of_resolve hr
  rw [perform_endLock hr, heldAt_putRegion hget, Region.holdsFor_endLock_iff hnodup]
  by_cases hp : p = place
  · subst hp
    simp only [heldAt_iff hget, true_and, ne_eq, not_true, false_and, or_false]
  · simp only [hp, false_and, ne_eq, not_false_eq_true, true_and, false_or, and_true]

/-- A token that ended no lock left all of them as they were. -/
theorem heldAt_perform_endLock_error {err : Error}
    (herr : (e.perform (.endLock db token mode)).1 = .error err) (p : Nat) (t : LockToken) :
    (e.perform (.endLock db token mode)).2.HeldAt p t ↔ e.HeldAt p t := by
  rcases endLock_eq_error herr with hsame | ⟨place, r, hr, -, -, -, -, hreject⟩
  · rw [hsame]
  · have hget := getElem?_of_resolve hr
    have hheld : (r.relock r.lock.reject).HoldsFor t ↔ r.HoldsFor t :=
      Region.holdsFor_same_iff rfl (RegionLock.sameHolders_reject r.lock)
    rw [hreject, heldAt_putRegion hget, hheld]
    by_cases hp : p = place
    · subst hp
      simp only [heldAt_iff hget, true_and, ne_eq, not_true, false_and, or_false]
    · simp only [hp, false_and, ne_eq, not_false_eq_true, true_and, false_or]

/-- **A token of another region releases nothing**, whatever its number. -/
theorem perform_endLock_foreign (h : token.region ≠ db.region) :
    ∃ err, e.perform (.endLock db token mode) = (.error err, e) := by
  have hcall : e.perform (.endLock db token mode) =
      e.onRegion db fun r => r.serve db (.endLock db token mode) :=
    perform_eq rfl rfl
  rw [hcall]
  unfold onRegion
  cases hr : e.resolve db with
  | error err => exact ⟨err, rfl⟩
  | ok found =>
    obtain ⟨place, r⟩ := found
    obtain ⟨-, hget, hid⟩ := resolve_eq_ok_iff.1 hr
    have hforeign : token.region ≠ r.id := hid ▸ h
    refine ⟨.invalidHandle .lock .foreignToken, ?_⟩
    simp only [Region.serve, reword, Region.endLock_eq, if_pos hforeign, Except.map,
      putRegion_self hget]

/-- **A lock is released by just the grants that stand.** Whatever those who want a lock did, and
in whichever order, a release under any identifier and in any mode succeeds exactly when that was
granted on this lock in this mode and not released since. It then ends this grant and wakes those
who wait; otherwise it fails, changes no holder and nobody who waits, and is counted. The same is
so for the lock of every region of every run of an engine. There a token ends a lock through a
handle exactly when the handle stands for a region, the token is of that region and names the
mode of the call, and its grant stands; then it ends just the lock that it was granted for, and
otherwise none. A token of another region changes nothing at all. What a lock counts is what its
ledger lists, and it was granted as often as it was released and is held. -/
theorem release_is_exact {α : Type} :
    (∀ moves : List (Contention.Move α),
        let c := ({} : Contention α).after moves
        c.lock.ReleasesExactly (({} : Contention α).ledger moves) ∧
          ∀ id mode, c.release id mode =
            if (c.lock.release id mode).1 = .ok () then
              (.ok (), { lock := (c.lock.release id mode).2, waiting := Contention.wakeAll c.waiting })
            else (.error (.lockFailed (.notHeld id mode)), { c with lock := c.lock.reject })) ∧
      ∀ settings calls,
        let e := (start settings).run calls
        (∀ (place : Nat) r, e.regions[place]? = some r →
            r.lock.ReleasesExactly (lockLedger place (start settings) calls)) ∧
          ∀ db token mode,
            let ended := e.perform (.endLock db token mode)
            (ended.1 = .ok .done ↔
                ∃ place r, e.resolve db = .ok (place, r) ∧ token.region = db.region ∧
                  token.mode = mode ∧
                  LockEvent.Stands (lockLedger place (start settings) calls) token.id mode) ∧
              (∀ place r, e.resolve db = .ok (place, r) → ended.1 = .ok .done →
                ∀ p t, ended.2.HeldAt p t ↔ e.HeldAt p t ∧ ¬ (p = place ∧ t = token)) ∧
              (∀ err, ended.1 = .error err → ∀ p t, ended.2.HeldAt p t ↔ e.HeldAt p t) ∧
              (token.region ≠ db.region → ∃ err, ended = (.error err, e)) := by
  refine ⟨fun moves => ⟨Contention.releasesExactly_after moves, fun id mode =>
    Contention.release_eq _ id mode⟩, fun settings calls => ?_⟩
  intro e
  refine ⟨fun place r hr => (accounts_lock hr).releasesExactly, fun db token mode => ?_⟩
  intro ended
  refine ⟨?_, ?_, fun err herr => heldAt_perform_endLock_error herr, perform_endLock_foreign⟩
  · refine perform_endLock_ok_iff.trans (exists₂_congr fun place r => and_congr_right fun hr => ?_)
    rw [(accounts_lock (getElem?_of_resolve hr)).isHeld_iff]
  · intro place r hr hok
    exact heldAt_perform_endLock hr (accounts_lock (getElem?_of_resolve hr)).nodup hok

/-- The handle of the second connection, to a region of its own. -/
def otherShared : DbHandle := ⟨⟨2⟩, ⟨2⟩, false⟩

/-- A run in which the locks of two regions are granted, each under the number one. -/
def sameNumber : List Call :=
  [.openDatabase (some "one") 0 false, .openDatabase (some "two") 0 false,
    .startLock firstShared .exclusive, .startLock otherShared .exclusive]

/-- The token of the first region ends nothing in the second one. In the first one it ends its
lock, and the second one is still held. A reader that gives its lock back wakes the writer who
waits, and cannot give it back as a writer. -/
theorem release_is_exact_same_number :
    let e := (start {}).run sameNumber
    let ended := e.perform (.endLock firstShared firstToken .exclusive)
    let c := ({} : Contention String).after Contention.readerThenWriter
    (∃ err, e.perform (.endLock otherShared firstToken .exclusive) = (.error err, e)) ∧
      ended.1 = .ok .done ∧ ¬ ended.2.HeldAt 0 firstToken ∧
      ended.2.HeldAt 1 ⟨⟨2⟩, ⟨1⟩, .exclusive⟩ ∧
      c.release ⟨1⟩ .shared =
        (.ok (), { lock := (c.lock.release ⟨1⟩ .shared).2,
                   waiting := [⟨"writer", .exclusive, true⟩] }) ∧
      c.release ⟨1⟩ .exclusive =
        (.error (.lockFailed (.notHeld ⟨1⟩ .exclusive)), { c with lock := c.lock.reject }) := by
  intro e ended c
  obtain ⟨hmoves, hruns⟩ := @release_is_exact String
  obtain ⟨-, hcalls⟩ := hruns {} sameNumber
  obtain ⟨-, -, -, hforeign⟩ := hcalls otherShared firstToken .exclusive
  obtain ⟨hok, hheld, -, -⟩ := hcalls firstShared firstToken .exclusive
  obtain ⟨hexact, hrelease⟩ := hmoves Contention.readerThenWriter
  obtain ⟨r, hr⟩ : ∃ r, e.resolve firstShared = .ok (0, r) := ⟨_, rfl⟩
  have hdone : ended.1 = .ok .done :=
    hok.2 ⟨0, r, hr, rfl, rfl, [], [], rfl, List.not_mem_nil⟩
  have hafter := hheld 0 r hr hdone
  have hother : e.HeldAt 1 ⟨⟨2⟩, ⟨1⟩, .exclusive⟩ := ⟨_, rfl, rfl, rfl⟩
  refine ⟨hforeign (by decide), hdone, fun hstill => ?_, (hafter 1 _).2 ⟨hother, ?_⟩, ?_, ?_⟩
  · exact ((hafter 0 firstToken).1 hstill).2 ⟨rfl, rfl⟩
  · decide
  · have hstands : LockEvent.Stands
        (({} : Contention String).ledger Contention.readerThenWriter) ⟨1⟩ .shared :=
      ⟨[], [], rfl, List.not_mem_nil⟩
    exact (hrelease ⟨1⟩ .shared).trans (if_pos ((hexact.ok_iff _ _).2 hstands))
  · have hnever : ¬ LockEvent.Stands
        (({} : Contention String).ledger Contention.readerThenWriter) ⟨1⟩ .exclusive := by
      rw [← hexact.isHeld_iff]
      decide
    exact (hrelease ⟨1⟩ .exclusive).trans (if_neg fun h => hnever ((hexact.ok_iff _ _).1 h))

end Engine

end RecordStore
