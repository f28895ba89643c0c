import RecordStore.Proofs.Sections.Writers
/-!
# Serial — writers in any order do as much as one after the other

At most one writer is inside at a time, because the lock is held as long as
he is, and the calls of the others are requests that are not granted and
change nothing but who waits. So what the writers have learnt, and what the
client is, is what comes of the bodies carried out one after the other, in
the order in which the lock was granted for them, up to the last one that
may be under way (`InTurn`).
-/

namespace RecordStore

/-! ## Who holds the lock -/

namespace Engine

variable {α : Type} {e e' : Engine} {db : DbHandle} {place p : Nat} {r r' : Region}

/-- The exclusive lock that is held on the region at a place. -/
def writerAt (e : Engine) (place : Nat) : Option LockId :=
  e.regions[place]?.bind fun r => r.lock.writer

/-- The handle stands for the region at a place. -/
def AttachedTo (e : Engine) (db : DbHandle) (place : Nat) : Prop :=
  ∃ r, e.resolve db = .ok (place, r)

theorem Alike.writerAt (h : e.Alike e') (place : Nat) : e.writerAt place = e'.writerAt place := by
  have hwriter : ∀ e : Engine, e.unawaited.writerAt place = e.writerAt place := by
    intro e
    simp only [Engine.writerAt, unawaited, Array.getElem?_map, Option.bind_map]
    rfl
  rw [← hwriter e, ← hwriter e', h]

/-- At a place there are regions that are alike. -/
theorem Alike.exists_region (h : e.Alike e') (hr : e'.regions[place]? = some r) :
    ∃ r', e.regions[place]? = some r' ∧ r'.unawaited = r.unawaited := by
  have hsame := congrArg (fun e => e.regions[place]?) h
  simp only [unawaited, Array.getElem?_map, hr, Option.map_some] at hsame
  exact Option.map_eq_some_iff.1 hsame

theorem Alike.attachedTo (h : e.Alike e') (ha : e.AttachedTo db place) :
    e'.AttachedTo db place := by
  obtain ⟨r, hr⟩ := ha
  rcases h.resolve db with ⟨err, herr, -⟩ | ⟨p, r₁, r', hr₁, hr', -⟩
  · rw [hr] at herr
    cases herr
  · rw [hr] at hr₁
    cases hr₁
    exact ⟨r', hr'⟩

theorem writerAt_putRegion (hr : e.regions[p]? = some r) :
    (e.putRegion p r').writerAt place =
      if place = p then r'.lock.writer else e.writerAt place := by
  simp only [writerAt, getElem?_putRegion hr]
  split <;> rfl

theorem AttachedTo.putRegion (h : e.AttachedTo db place) (hr : e.regions[p]? = some r)
    (hid : r'.id = r.id) : (e.putRegion p r').AttachedTo db place := by
  obtain ⟨found, hfound⟩ := h
  obtain ⟨hplace, hat, hdb⟩ := resolve_eq_ok_iff.1 hfound
  by_cases hp : place = p
  · subst hp
    rw [hr, Option.some.injEq] at hat
    subst hat
    exact ⟨r', resolve_putRegion hfound hid⟩
  · refine ⟨found, resolve_eq_ok_iff.2 ⟨hplace, ?_, hdb⟩⟩
    rw [getElem?_putRegion hr, if_neg hp, hat]

/-- The engines differ in what regions hold, and in nothing else. -/
def SameLocks (e e' : Engine) : Prop :=
  e' = e ∨ ∃ p r r', e.regions[p]? = some r ∧ r'.id = r.id ∧ r'.lock = r.lock ∧
    e' = e.putRegion p r'

theorem SameLocks.attachedTo (h : e.SameLocks e') (ha : e.AttachedTo db place) :
    e'.AttachedTo db place := by
  rcases h with rfl | ⟨p, r, r', hr, hid, -, rfl⟩
  · exact ha
  · exact ha.putRegion hr hid

theorem SameLocks.writerAt (h : e.SameLocks e') (place : Nat) :
    e'.writerAt place = e.writerAt place := by
  rcases h with rfl | ⟨p, r, r', hr, -, hlock, rfl⟩
  · rfl
  · rw [writerAt_putRegion hr]
    split
    · rename_i hp
      rw [hp, Engine.writerAt, hr, Option.bind_some, hlock]
    · rfl

theorem onRegion_snd (e : Engine) (db : DbHandle) (f : Region → Except Error α × Region) :
    (e.onRegion db f).2 = e ∨
      ∃ p r, e.resolve db = .ok (p, r) ∧ (e.onRegion db f).2 = e.putRegion p (f r).2 := by
  unfold onRegion
  cases hr : e.resolve db with
  | error err => exact .inl rfl
  | ok found => exact .inr ⟨found.1, found.2, rfl, rfl⟩

theorem sameLocks_checkedOn (check : Except Error Unit) {f : Region → Except Error α × Region}
    (hf : ∀ r, (f r).2.id = r.id ∧ (f r).2.lock = r.lock) :
    e.SameLocks (e.checkedOn check db f).2 := by
  cases check with
  | error err => exact .inl rfl
  | ok =>
    refine (e.onRegion_snd db f).imp_right ?_
    rintro ⟨p, r, hr, heq⟩
    exact ⟨p, r, _, getElem?_of_resolve hr, (hf r).1, (hf r).2, heq⟩

end Engine

/-- What a region does on a call that is not about its lock. -/
theorem Region.serve_unlocking (db : DbHandle) (call : Call) (h : call.isLocking = false)
    (r : Region) : (r.serve db call).2.id = r.id ∧ (r.serve db call).2.lock = r.lock :=
  ⟨r.serve_id db call, Region.serve_lock db h r⟩

/-- A call on records does not touch locks. -/
theorem RecordCall.sameLocks (conn : Connection) (op : RecordCall) (c : Client) :
    c.engine.SameLocks ((op.action conn).outcome c).2.engine := by
  have hserve := Region.serve_unlocking conn.handle
  cases op with
  | create n => exact Engine.sameLocks_checkedOn _ (hserve (.create conn.handle n) rfl)
  | delete rec =>
    change c.engine.SameLocks (if c.faults.refusesDeletes then _ else _ : _ × Client).2.engine
    split
    · exact .inl rfl
    · exact Engine.sameLocks_checkedOn _ (hserve (.delete conn.handle rec) rfl)
  | set rec index value =>
    change c.engine.SameLocks (if c.faults.failsWrite c.writes then _ else _ : _ × Client).2.engine
    split
    · exact .inl rfl
    · exact Engine.sameLocks_checkedOn _ (hserve (.set conn.handle rec index value) rfl)
  | first => exact .inl rfl
  | next rec => exact .inl rfl
  | length rec => exact .inl rfl
  | get rec index => exact .inl rfl

/-! ## Requests for the lock -/

namespace Connection

variable {conn : Connection} {c : Client} {place : Nat} {r : Region}
variable {request : Action (Option LockToken)}

/-- **A request for the exclusive lock** is let in where the lock is free, and else waits. -/
theorem outcome_startLock (hr : c.engine.resolve conn.handle = .ok (place, r)) :
    (conn.startLock .exclusive).outcome c =
      if r.lock.canGrant .exclusive then
        let token := r.tokenOf .exclusive r.lock.nextId
        (.ok (some token),
          ({ c with
              engine := c.engine.putRegion place (r.relock (r.lock.grant .exclusive).2) } :
            Client).changeHeld conn.handle.connection
              fun held => { held with locks := held.locks ++ [token] })
      else
        (.ok none,
          { c with engine := c.engine.putRegion place (r.relock (r.lock.await .exclusive)) }) := by
  have hcall : c.engine.startLock conn.handle .exclusive =
      ((r.startLock .exclusive).1, c.engine.putRegion place (r.startLock .exclusive).2) := by
    simp only [Engine.startLock, Engine.onRegion, hr]
  rw [startLock, Action.outcome_bind, Action.outcome_change, hcall, Region.startLock_eq]
  cases r.lock.canGrant .exclusive <;> rfl

/-- A request that comes to what a new one would come to is let in where no writer holds the
lock and then holds it, or is kept out and changes nothing but who waits. -/
theorem entry_cases (hrequest : Action.Like request (conn.startLock .exclusive))
    (ha : c.engine.AttachedTo conn.handle place) :
    (∃ token inside, request.outcome c = (.ok (some token), inside) ∧
      c.engine.writerAt place = none ∧ inside.engine.writerAt place ≠ none ∧
      ∀ db, c.engine.AttachedTo db place → inside.engine.AttachedTo db place) ∨
    ∃ outside, request.outcome c = (.ok none, outside) ∧ outside.Alike c := by
  obtain ⟨r, hr⟩ := ha
  have hat := Engine.getElem?_of_resolve hr
  obtain ⟨hresult, halike⟩ := hrequest c c (.refl c)
  rw [outcome_startLock hr] at hresult halike
  cases hgrant : r.lock.canGrant .exclusive with
  | true =>
    simp only [hgrant, if_true] at hresult halike
    refine .inl ⟨_, (request.outcome c).2, Prod.ext hresult rfl, ?_, ?_, ?_⟩
    · rw [Engine.writerAt, hat]
      exact (RegionLock.canGrant_exclusive_iff.1 hgrant).1
    · rw [halike.engine.writerAt place]
      change (c.engine.putRegion place (r.relock (r.lock.grant .exclusive).2)).writerAt place ≠ none
      rw [Engine.writerAt_putRegion hat, if_pos rfl]
      exact Option.some_ne_none _
    · intro db hdb
      exact halike.symm.engine.attachedTo (hdb.putRegion hat rfl)
  | false =>
    simp only [hgrant, Bool.false_eq_true, if_false] at hresult halike
    refine .inr ⟨(request.outcome c).2, Prod.ext hresult rfl, halike.trans ⟨?_, rfl, rfl, rfl⟩⟩
    -- Under the counts that are left out, what was put back is what was there.
    have hunawaited : c.engine.unawaited.regions[place]? = some r.unawaited := by
      simp only [Engine.unawaited, Array.getElem?_map, hat, Option.map_some]
    exact (Engine.putRegion_unawaited _ _ _).trans (Engine.putRegion_self hunawaited)

theorem attachedTo_endLock {token : LockToken} {db : DbHandle}
    (h : c.engine.AttachedTo db place) :
    ((conn.endLock token).outcome c).2.engine.AttachedTo db place := by
  have hengine : ((conn.endLock token).outcome c).2.engine =
      (c.engine.endLock conn.handle token token.mode).2 := by
    rw [endLock, Action.outcome_bind, Action.outcome_change]
    cases (c.engine.endLock conn.handle token token.mode).1 <;> rfl
  rw [hengine, Engine.endLock]
  rcases c.engine.onRegion_snd conn.handle fun r => r.endLock token token.mode with
    heq | ⟨p, r, hr, heq⟩
  · rwa [heq]
  · obtain ⟨lock, hlock⟩ := r.endLock_snd token token.mode
    rw [heq]
    exact h.putRegion (Engine.getElem?_of_resolve hr) (by rw [hlock])

end Connection

/-! ## Steps -/

namespace Writers

variable {ι α : Type} {w w' : Writers ι α} {i j : ι} {place : Nat}

section

variable [DecidableEq ι]

/-- **What a step of a writer can be.** -/
inductive Step (place : Nat) (w : Writers ι α) (i : ι) : Writers ι α → Prop where
  /-- There was nothing to do. -/
  | done : Step place w i w
  /-- The lock was not granted, and the writer waits. -/
  | keptOut {todo : List (Body α)} {body : Body α} {client : Client}
      (hpending : (w.writers i).pending = body :: todo) (hout : ¬ (w.writers i).IsInside)
      (halike : client.Alike w.client) :
      Step place w i
        { w with client, writers := Function.update w.writers i ⟨todo, .waiting body⟩ }
  /-- The lock was granted, as it would have been to a new request. -/
  | letIn {todo : List (Body α)} {body : Body α} {token : LockToken} {client : Client}
      {request : Action (Option LockToken)}
      (hpending : (w.writers i).pending = body :: todo) (hout : ¬ (w.writers i).IsInside)
      (hrequest : Action.Like request ((w.conn i).startLock .exclusive))
      (hgrant : request.outcome w.client = (.ok (some token), client))
      (hfree : w.client.engine.writerAt place = none)
      (hheld : client.engine.writerAt place ≠ none)
      (hattached : ∀ db, w.client.engine.AttachedTo db place → client.engine.AttachedTo db place) :
      Step place w i
        { w with
          client
          writers := Function.update w.writers i ⟨todo, .inside token body []⟩
          granted := w.granted ++ [(i, body)] }
  /-- The next call of a body was made under the lock. -/
  | called {todo : List (Body α)} {token : LockToken} {op : RecordCall}
      {next : Except ClientError op.Answer → Body α} {seen : List Answered}
      {answer : Except ClientError op.Answer} {client : Client}
      (hwriter : w.writers i = ⟨todo, .inside token (.call op next) seen⟩)
      (hcall : (op.action (w.conn i)).outcome w.client = (answer, client)) :
      Step place w i
        { w with
          client
          writers := Function.update w.writers i
            ⟨todo, .inside token (next answer) (seen ++ [⟨op, answer⟩])⟩ }
  /-- The body came to its end, and the lock was given back. -/
  | left {todo : List (Body α)} {token : LockToken} {seen : List Answered}
      {returned result : Except ClientError α} {client : Client}
      (hwriter : w.writers i = ⟨todo, .inside token (.ret returned) seen⟩)
      (hend : ((w.conn i).underLock token (.check returned)).outcome w.client = (result, client)) :
      Step place w i
        { w with
          client
          writers := Function.update w.writers i ⟨todo, .idle⟩
          reports := w.reports ++ [⟨i, seen, result.map some⟩] }

theorem step_enter {todo : List (Body α)} {body : Body α} {request : Action (Option LockToken)}
    (hpending : (w.writers i).pending = body :: todo) (hout : ¬ (w.writers i).IsInside)
    (hrequest : Action.Like request ((w.conn i).startLock .exclusive))
    (ha : w.client.engine.AttachedTo (w.conn i).handle place) :
    Step place w i (w.enter i todo body request) := by
  unfold enter
  rcases Connection.entry_cases hrequest ha with
    ⟨token, inside, hgrant, hfree, hheld, hattached⟩ | ⟨outside, hwait, halike⟩
  · rw [hgrant]
    exact .letIn hpending hout hrequest hgrant hfree hheld hattached
  · rw [hwait]
    exact .keptOut hpending hout halike

/-- **Every step is one of these.** -/
theorem step_step (ha : w.client.engine.AttachedTo (w.conn i).handle place) :
    Step place w i (w.step i) := by
  unfold step
  cases hwriter : w.writers i with
  | mk todo stage =>
    have hout : (∀ token rest seen, stage ≠ .inside token rest seen) →
        ¬ (w.writers i).IsInside := by
      rintro hstage ⟨token, rest, seen, hinside⟩
      rw [hwriter] at hinside
      exact hstage token rest seen hinside
    cases stage with
    | idle =>
      cases todo with
      | nil => exact .done
      | cons body todo =>
        exact step_enter (by rw [hwriter]; rfl) (hout nofun) (w.conn i).like_startLock ha
    | waiting body =>
      exact step_enter (by rw [hwriter]; rfl) (hout nofun) (w.conn i).like_retryLock ha
    | inside token rest seen =>
      cases rest with
      | ret returned => exact .left hwriter rfl
      | call op next => exact .called hwriter rfl

/-! ## What steps keep -/

theorem isInside_update_cases {writers : ι → Writer α} {writer : Writer α}
    (h : (Function.update writers i writer j).IsInside) : j = i ∨ (writers j).IsInside := by
  by_cases hj : j = i
  · exact .inl hj
  · rw [Function.update_of_ne hj] at h
    exact .inr h

theorem isInside_of_update {writers : ι → Writer α} {writer : Writer α}
    (h : (Function.update writers i writer j).IsInside) (hout : ¬ writer.IsInside) :
    j ≠ i ∧ (writers j).IsInside := by
  have hne : j ≠ i := by
    rintro rfl
    rw [Function.update_self] at h
    exact hout h
  exact ⟨hne, (isInside_update_cases h).resolve_left hne⟩

theorem Step.conn_eq (h : Step place w i w') : w'.conn = w.conn := by
  cases h <;> rfl

/-- Everyone stays attached. -/
theorem Step.attached (h : Step place w i w')
    (ha : ∀ j, w.client.engine.AttachedTo (w.conn j).handle place) (j : ι) :
    w'.client.engine.AttachedTo (w'.conn j).handle place := by
  cases h with
  | done => exact ha j
  | keptOut _ _ halike => exact halike.symm.engine.attachedTo (ha j)
  | letIn _ _ _ _ _ _ hattached => exact hattached _ (ha j)
  | @called _ _ op _ _ _ _ hwriter hcall =>
    have hlocks := op.sameLocks (w.conn i) w.client
    rw [hcall] at hlocks
    exact hlocks.attachedTo (ha j)
  | @left _ token _ _ _ client hwriter hend =>
    have hclient : (((w.conn i).endLock token).outcome w.client).2 = client :=
      congrArg Prod.snd hend
    exact hclient ▸ Connection.attachedTo_endLock (ha j)

/-- A writer whose next stage leaves it the bodies that it had. -/
theorem pending_update {writers : ι → Writer α} {writer : Writer α}
    (h : writer.pending = (writers i).pending) (j : ι) :
    (Function.update writers i writer j).pending = (writers j).pending := by
  by_cases hj : j = i
  · subst hj
    rw [Function.update_self, h]
  · rw [Function.update_of_ne hj]

/-- **A writer is let in for its bodies in their order.** -/
theorem Step.order (h : Step place w i w') {todo : ι → List (Body α)}
    (horder : ∀ j, w.grantedTo j ++ (w.writers j).pending = todo j) (j : ι) :
    w'.grantedTo j ++ (w'.writers j).pending = todo j := by
  rw [← horder j]
  -- But for the writer that is let in, nobody is granted a body or has one fewer to go.
  cases h with
  | done => rfl
  | keptOut hpending _ _ =>
    refine congrArg _ (pending_update ?_ j)
    exact hpending.symm
  | letIn hpending _ _ _ _ _ _ =>
    by_cases hj : j = i
    · subst hj
      simp [grantedTo, hpending]
    · simp [grantedTo, Function.update_of_ne hj, Ne.symm hj]
  | called hwriter _ =>
    refine congrArg _ (pending_update ?_ j)
    rw [hwriter]
    rfl
  | left hwriter _ =>
    refine congrArg _ (pending_update ?_ j)
    rw [hwriter]
    rfl

end

/-! ## At any time -/

/-- **The work of the writers is serial so far**: either nobody is inside, and all is as after
the bodies carried out one after the other, or one writer is inside, and what is left of its
body does what it would have done if the body had been carried out after the others. -/
inductive InTurn (c₀ : Client) (place : Nat) (w : Writers ι α) : Prop where
  | between (hout : ∀ j, ¬ (w.writers j).IsInside)
      (hreports : w.reports = (inTurn w.conn c₀ w.granted).1)
      (halike : w.client.Alike (inTurn w.conn c₀ w.granted).2)
  | within {i : ι} {todo : List (Body α)} {token : LockToken} {rest body : Body α}
      {seen : List Answered} {before : List (ι × Body α)} {entered under : Client}
      (hgranted : w.granted = before ++ [(i, body)])
      (hwriter : w.writers i = ⟨todo, .inside token rest seen⟩)
      (hout : ∀ j, (w.writers j).IsInside → j = i)
      (hheld : w.client.engine.writerAt place ≠ none)
      (hreports : w.reports = (inTurn w.conn c₀ before).1)
      (henter : ((w.conn i).startLock .exclusive).outcome (inTurn w.conn c₀ before).2 =
        (.ok (some token), entered))
      (hrest : (body.action (w.conn i)).outcome entered =
        (rest.action (w.conn i)).outcome under)
      (hseen : body.seen (w.conn i) entered = seen ++ rest.seen (w.conn i) under)
      (halike : w.client.Alike under)

namespace InTurn

variable {c₀ client : Client} {todo : List (Body α)} {token : LockToken} {body rest : Body α}
variable {seen : List Answered}

/-- While a writer is inside, what is left of its body is all that is left of the last one that
the lock was granted for. -/
theorem of_inside (h : InTurn c₀ place w)
    (hwriter : w.writers i = ⟨todo, .inside token rest seen⟩) :
    ∃ before body entered under, w.granted = before ++ [(i, body)] ∧
      (∀ j, (w.writers j).IsInside → j = i) ∧ w.client.engine.writerAt place ≠ none ∧
      w.reports = (inTurn w.conn c₀ before).1 ∧
      ((w.conn i).startLock .exclusive).outcome (inTurn w.conn c₀ before).2 =
        (.ok (some token), entered) ∧
      (body.action (w.conn i)).outcome entered = (rest.action (w.conn i)).outcome under ∧
      body.seen (w.conn i) entered = seen ++ rest.seen (w.conn i) under ∧
      w.client.Alike under := by
  have hinside : (w.writers i).IsInside := ⟨token, rest, seen, congrArg Writer.stage hwriter⟩
  cases h with
  | between hout => exact absurd hinside (hout i)
  | within hgranted hwriter' hone hheld hreports henter hrest hseen halike =>
    obtain rfl := hone i hinside
    rw [hwriter] at hwriter'
    cases hwriter'
    exact ⟨_, _, _, _, hgranted, hone, hheld, hreports, henter, hrest, hseen, halike⟩

/-- Two writers are never inside at once. -/
theorem eq_of_isInside (h : InTurn c₀ place w) (hi : (w.writers i).IsInside)
    (hj : (w.writers j).IsInside) : i = j := by
  cases h with
  | between hout => exact absurd hi (hout i)
  | within _ _ hone => exact (hone i hi).trans (hone j hj).symm

/-- What the writer who is inside has seen is the beginning of what it will have seen. -/
theorem exists_report (h : InTurn c₀ place w)
    (hwriter : w.writers i = ⟨todo, .inside token rest seen⟩) :
    ∃ report, (inTurn w.conn c₀ w.granted).1 = w.reports ++ [report] ∧ report.who = i ∧
      seen <+: report.seen := by
  obtain ⟨before, body, entered, under, hgranted, -, -, hreports, henter, -, hseen, -⟩ :=
    h.of_inside hwriter
  refine ⟨(alone (w.conn i) (inTurn w.conn c₀ before).2 i body).1, ?_, ?_, ?_⟩
  · rw [hgranted, inTurn_append, hreports]
  · rw [alone_of_letIn henter]
  · rw [alone_of_letIn henter, hseen]
    exact List.prefix_append _ _

/-- Where nobody is inside, all is as after the bodies carried out one after the other. -/
theorem of_nobody (h : InTurn c₀ place w) (hout : ∀ j, ¬ (w.writers j).IsInside) :
    w.reports = (inTurn w.conn c₀ w.granted).1 ∧
      w.client.Alike (inTurn w.conn c₀ w.granted).2 := by
  cases h with
  | between _ hreports halike => exact ⟨hreports, halike⟩
  | within _ hwriter => exact absurd ⟨_, _, _, congrArg Writer.stage hwriter⟩ (hout _)

variable [DecidableEq ι]

theorem keptOut {writer : Writer α} (h : InTurn c₀ place w) (hout : ¬ (w.writers i).IsInside)
    (hwaits : ¬ writer.IsInside) (halike : client.Alike w.client) :
    InTurn c₀ place { w with client, writers := Function.update w.writers i writer } := by
  cases h with
  | between hnone hreports halike₀ =>
    refine .between (fun j hj => ?_) hreports (halike.trans halike₀)
    exact hnone j (isInside_of_update hj hwaits).2
  | @within i₀ _ _ _ _ _ _ _ _ hgranted hwriter hone hheld hreports henter hrest hseen halike₀ =>
    have hne : i₀ ≠ i := by
      rintro rfl
      exact hout ⟨_, _, _, congrArg Writer.stage hwriter⟩
    refine .within hgranted ((Function.update_of_ne hne _ _).trans hwriter) (fun j hj => ?_) ?_
      hreports henter hrest hseen (halike.trans halike₀)
    · exact hone j (isInside_of_update hj hwaits).2
    · rw [halike.engine.writerAt place]
      exact hheld

theorem letIn {request : Action (Option LockToken)} (h : InTurn c₀ place w)
    (hrequest : Action.Like request ((w.conn i).startLock .exclusive))
    (hgrant : request.outcome w.client = (.ok (some token), client))
    (hfree : w.client.engine.writerAt place = none)
    (hheld : client.engine.writerAt place ≠ none) :
    InTurn c₀ place
      { w with
        client
        writers := Function.update w.writers i ⟨todo, .inside token body []⟩
        granted := w.granted ++ [(i, body)] } := by
  cases h with
  | between hnone hreports halike =>
    -- The request comes to the same after the bodies before, carried out in turn.
    obtain ⟨hresult, halike'⟩ := hrequest _ _ halike
    rw [hgrant] at hresult halike'
    generalize henter : ((w.conn i).startLock .exclusive).outcome
      (inTurn w.conn c₀ w.granted).2 = entry at hresult halike'
    obtain ⟨answer, entered⟩ := entry
    obtain rfl : _ = answer := hresult
    refine .within rfl (Function.update_self _ _ _) (fun j hj => ?_) hheld hreports henter rfl
      rfl halike'
    exact (isInside_update_cases hj).resolve_right (hnone j)
  | within _ _ _ hheld₀ => exact absurd hfree hheld₀

theorem called {op : RecordCall} {next : Except ClientError op.Answer → Body α}
    {answer : Except ClientError op.Answer} (h : InTurn c₀ place w)
    (hwriter : w.writers i = ⟨todo, .inside token (.call op next) seen⟩)
    (hcall : (op.action (w.conn i)).outcome w.client = (answer, client)) :
    InTurn c₀ place
      { w with
        client
        writers := Function.update w.writers i
          ⟨todo, .inside token (next answer) (seen ++ [⟨op, answer⟩])⟩ } := by
  obtain ⟨before, body, entered, under, hgranted, hone, hheld, hreports, henter, hrest, hseen,
    halike⟩ := h.of_inside hwriter
  -- The call answers the same in the client that the body would have had to itself.
  obtain ⟨hanswer, halike'⟩ := op.like_action (w.conn i) _ _ halike
  have hlocks := op.sameLocks (w.conn i) w.client
  rw [hcall] at hanswer halike' hlocks
  obtain rfl : answer = _ := hanswer
  refine .within hgranted (Function.update_self _ _ _) (fun j hj => ?_) ?_ hreports henter
    hrest ?_ halike'
  · exact (isInside_update_cases hj).elim id (hone j)
  · rw [hlocks.writerAt place]
    exact hheld
  · rw [hseen, Body.seen_call, List.append_assoc]
    rfl

theorem left {returned result : Except ClientError α} (h : InTurn c₀ place w)
    (hwriter : w.writers i = ⟨todo, .inside token (.ret returned) seen⟩)
    (hend : ((w.conn i).underLock token (.check returned)).outcome w.client = (result, client)) :
    InTurn c₀ place
      { w with
        client
        writers := Function.update w.writers i ⟨todo, .idle⟩
        reports := w.reports ++ [⟨i, seen, result.map some⟩] } := by
  obtain ⟨before, body, entered, under, hgranted, hone, -, hreports, henter, hrest, hseen,
    halike⟩ := h.of_inside hwriter
  have halone := alone_of_enter (i := i) henter hrest
  have hlike : Action.Like (Action.check returned) (.check returned) := fun _ _ h => ⟨rfl, h⟩
  obtain ⟨hresult, halike'⟩ := (w.conn i).like_underLock token hlike _ _ halike
  rw [hend] at hresult halike'
  refine .between (fun j hj => ?_) ?_ ?_
  · obtain ⟨hne, hj⟩ := isInside_of_update hj nofun
    exact hne (hone j hj)
  · rw [hgranted, inTurn_append, halone, hseen, hreports, ← hresult]
    simp [Body.seen]
  · rw [hgranted, inTurn_append, halone]
    exact halike'

/-- **A step keeps the work serial.** -/
theorem step (h : InTurn c₀ place w) (hstep : Step place w i w') : InTurn c₀ place w' := by
  cases hstep with
  | done => exact h
  | keptOut _ hout halike => exact h.keptOut hout nofun halike
  | letIn _ _ hrequest hgrant hfree hheld _ => exact h.letIn hrequest hgrant hfree hheld
  | called hwriter hcall => exact h.called hwriter hcall
  | left hwriter hend => exact h.left hwriter hend

end InTurn

/-! ## Runs -/

variable [DecidableEq ι]

/-- What holds at any time of writers that began with these bodies. -/
structure Sound (c₀ : Client) (todo : ι → List (Body α)) (place : Nat) (w : Writers ι α) :
    Prop where
  attached : ∀ j, w.client.engine.AttachedTo (w.conn j).handle place
  order : ∀ j, w.grantedTo j ++ (w.writers j).pending = todo j
  inTurn : InTurn c₀ place w
  /-- A body that was reported did not wait for ever. -/
  ended : ∀ report ∈ w.reports, report.result ≠ .ok none

theorem map_some_ne {β ε : Type} (a : Except ε β) : a.map some ≠ .ok none := by
  cases a <;> simp [Except.map]

theorem sound_start {c₀ : Client} {conn : ι → Connection} (todo : ι → List (Body α))
    (ha : ∀ j, c₀.engine.AttachedTo (conn j).handle place) :
    Sound c₀ todo place (start c₀ conn todo) where
  attached := ha
  order := fun _ => rfl
  inTurn := .between (fun _ => nofun) rfl (.refl c₀)
  ended := nofun

theorem Sound.step {c₀ : Client} {todo : ι → List (Body α)} (h : Sound c₀ todo place w) (i : ι) :
    Sound c₀ todo place (w.step i) := by
  have hstep := step_step (h.attached i)
  refine ⟨hstep.attached h.attached, hstep.order h.order, h.inTurn.step hstep, ?_⟩
  generalize w.step i = w' at hstep
  have hended := h.ended
  cases hstep with
  | left hwriter hend =>
    intro report hreport
    rcases List.mem_append.1 hreport with hreport | hreport
    · exact hended report hreport
    · rw [List.mem_singleton.1 hreport]
      exact map_some_ne _
  | _ => exact hended

/-- **At any time of any run** the work of the writers is serial so far. -/
theorem Sound.after {c₀ : Client} {todo : ι → List (Body α)} (h : Sound c₀ todo place w)
    (schedule : List ι) : Sound c₀ todo place (w.after schedule) := by
  induction schedule generalizing w with
  | nil => exact h
  | cons i schedule ih => exact ih (h.step i)

theorem after_conn (w : Writers ι α) (schedule : List ι)
    (ha : ∀ j, w.client.engine.AttachedTo (w.conn j).handle place) :
    (w.after schedule).conn = w.conn := by
  induction schedule generalizing w with
  | nil => rfl
  | cons i schedule ih =>
    have hstep := step_step (ha i)
    exact (ih (w.step i) (hstep.attached ha)).trans hstep.conn_eq

end Writers

end RecordStore
