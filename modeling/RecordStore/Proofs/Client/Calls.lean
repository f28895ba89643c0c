import RecordStore.Proofs.Client.Turns
/-!
# Calls — what a client asks of its engine

Whatever is done with a client, its engine carries out a run of calls, in
which as many handles are given out as connections are opened
(`Usage.Reachable.exists_run`). So everything that holds of an engine in
every run holds of it in the hands of a client.
-/

namespace RecordStore

namespace Engine

variable {e e' e'' : Engine} {given given' : Nat} {call : Call}

/-- The engine becomes the other one by calls that give out so many handles. -/
def CarriesOut (e : Engine) (given : Nat) (e' : Engine) : Prop :=
  ∃ calls, e' = e.run calls ∧ (e.handles calls).length = given

theorem carriesOut_nothing (e : Engine) : e.CarriesOut 0 e := ⟨[], rfl, rfl⟩

theorem carriesOut_perform (e : Engine) (call : Call) :
    e.CarriesOut (opened? (e.perform call).1).toList.length (e.perform call).2 := by
  refine ⟨[call], rfl, ?_⟩
  simp only [handles, List.append_nil]

/-- A call that opens nothing gives out no handle. -/
theorem carriesOut_call (e : Engine) (call : Call) (hcall : call.isOpening = false) :
    e.CarriesOut 0 (e.perform call).2 := by
  have hcarried := e.carriesOut_perform call
  rwa [opened?_perform hcall] at hcarried

theorem CarriesOut.trans (h : e.CarriesOut given e') (h' : e'.CarriesOut given' e'') :
    e.CarriesOut (given + given') e'' := by
  obtain ⟨calls, rfl, rfl⟩ := h
  obtain ⟨later, rfl, rfl⟩ := h'
  refine ⟨calls ++ later, (e.run_append calls later).symm, ?_⟩
  rw [handles_append, List.length_append]

theorem carriesOut_foldl {β : Type} {step : Engine → β → Engine}
    (hstep : ∀ (e : Engine) b, e.CarriesOut 0 (step e b)) (e : Engine) (l : List β) :
    e.CarriesOut 0 (l.foldl step e) := by
  induction l generalizing e with
  | nil => exact e.carriesOut_nothing
  | cons b rest ih => exact (hstep e b).trans (ih (step e b))

/-- What is given back through a handle is given back by calls. -/
theorem carriesOut_giveBack (e : Engine) (db : DbHandle) (held : Outstanding) :
    e.CarriesOut 0 (Connection.giveBack db held e) := by
  have hquery : ∀ (e : Engine) (query : QueryHandle), e.CarriesOut 0 (e.freeQuery db query).2 :=
    fun e query => e.carriesOut_call (.freeQuery db query) rfl
  have hlock : ∀ (e : Engine) (token : LockToken),
      e.CarriesOut 0 (e.endLock db token token.mode).2 :=
    fun e token => e.carriesOut_call (.endLock db token token.mode) rfl
  exact (carriesOut_foldl hquery e held.queries).trans (carriesOut_foldl hlock _ held.locks)

end Engine

/-! ## The calls of a client -/

namespace Connection

/-- The calls of an opening. -/
theorem carriesOut_openWith (settings : ConnectionSettings) (c : Client) :
    c.engine.CarriesOut ((openWith settings).outcome c).1.toOption.toList.length
      ((openWith settings).outcome c).2.engine := by
  rw [outcome_openWith]
  cases settings.validate with
  | error err => exact c.engine.carriesOut_nothing
  | ok =>
    have hcall := c.engine.carriesOut_perform
      (.openDatabase settings.name settings.size settings.isLocal)
    simp only [Engine.perform, reword] at hcall
    generalize c.engine.openDatabase settings.name settings.size settings.isLocal = opened
      at hcall ⊢
    obtain ⟨answer, engine⟩ := opened
    cases answer <;> exact hcall

variable (conn : Connection) (c : Client)

theorem carriesOut_closeIn (order : List QueryHandle) :
    c.engine.CarriesOut 0 ((conn.closeIn order).outcome c).2.engine := by
  have hback := c.engine.carriesOut_giveBack conn.handle
    { c.held conn.handle.connection with queries := order }
  have hend : (giveBack conn.handle { c.held conn.handle.connection with queries := order }
      c.engine).CarriesOut 0 ((conn.closeIn order).outcome c).2.engine := by
    simp only [closeIn, Action.outcome_bind, Action.outcome_ofState, Action.outcome_change]
    split
    · exact Engine.carriesOut_call _ (.deleteLocal conn.handle) rfl
    · exact Engine.carriesOut_call _ (.detach conn.handle) rfl
  exact hback.trans hend

theorem carriesOut_record (op : RecordCall) :
    c.engine.CarriesOut 0 ((op.action conn).outcome c).2.engine := by
  cases op with
  | create n => exact c.engine.carriesOut_call (.create conn.handle n) rfl
  | delete rec =>
    change c.engine.CarriesOut 0 (if c.faults.refusesDeletes then _ else _ : _ × Client).2.engine
    split
    · exact c.engine.carriesOut_nothing
    · exact c.engine.carriesOut_call (.delete conn.handle rec) rfl
  | set rec index value =>
    change c.engine.CarriesOut 0
      (if c.faults.failsWrite c.writes then _ else _ : _ × Client).2.engine
    split
    · exact c.engine.carriesOut_nothing
    · exact c.engine.carriesOut_call (.set conn.handle rec index value) rfl
  | first | next | length | get => exact c.engine.carriesOut_nothing

theorem carriesOut_buildQuery (request : QueryRequest) :
    c.engine.CarriesOut 0 ((conn.buildQuery request).outcome c).2.engine := by
  have hcall : c.engine.CarriesOut 0 (c.engine.buildQuery conn.handle request.template
      request.conditions request.limit).2 :=
    c.engine.carriesOut_call
      (.buildQuery conn.handle request.template request.conditions request.limit) rfl
  rw [outcome_buildQuery]
  cases request.validate with
  | error err => exact c.engine.carriesOut_nothing
  | ok =>
    generalize c.engine.buildQuery conn.handle request.template request.conditions
      request.limit = built at hcall ⊢
    obtain ⟨answer, engine⟩ := built
    cases answer <;> exact hcall

theorem carriesOut_fetch (q : Query) :
    c.engine.CarriesOut 0 ((conn.fetch q).outcome c).2.engine := by
  rw [outcome_fetch]
  split
  · exact c.engine.carriesOut_nothing
  · exact c.engine.carriesOut_call (.fetch conn.handle q.handle) rfl

theorem carriesOut_freeQuery (q : Query) :
    c.engine.CarriesOut 0 ((conn.freeQuery q).outcome c).2.engine := by
  have hcall : c.engine.CarriesOut 0 (c.engine.freeQuery conn.handle q.handle).2 :=
    c.engine.carriesOut_call (.freeQuery conn.handle q.handle) rfl
  rw [outcome_freeQuery]
  generalize c.engine.freeQuery conn.handle q.handle = freed at hcall ⊢
  obtain ⟨answer, engine⟩ := freed
  cases answer <;> exact hcall

theorem carriesOut_lock (kind : LockCall) (mode : LockMode) :
    c.engine.CarriesOut 0 ((kind.action conn mode).outcome c).2.engine := by
  have hcall : c.engine.CarriesOut 0
      (c.engine.onRegion conn.handle fun r => kind.ask r mode).2 := by
    cases kind with
    | start => exact c.engine.carriesOut_call (.startLock conn.handle mode) rfl
    | retry => exact c.engine.carriesOut_call (.resumeLock conn.handle mode) rfl
    | attempt => exact c.engine.carriesOut_call (.tryLock conn.handle mode) rfl
  rw [outcome_lock]
  generalize (c.engine.onRegion conn.handle fun r => kind.ask r mode) = asked at hcall ⊢
  obtain ⟨answer, engine⟩ := asked
  rcases answer with err | (_ | token) <;> exact hcall

theorem carriesOut_endLock (token : LockToken) :
    c.engine.CarriesOut 0 ((conn.endLock token).outcome c).2.engine := by
  have hcall : c.engine.CarriesOut 0 (c.engine.endLock conn.handle token token.mode).2 :=
    c.engine.carriesOut_call (.endLock conn.handle token token.mode) rfl
  rw [outcome_endLock_eq]
  generalize c.engine.endLock conn.handle token token.mode = ended at hcall ⊢
  obtain ⟨answer, engine⟩ := ended
  cases answer <;> exact hcall

end Connection

namespace Usage

variable {u : Usage} {settings : EngineSettings} {faults : FaultPlan}

/-- **A deed is carried out by calls**, and gives out as many handles as it opens connections. -/
theorem carriesOut_does (u : Usage) (deed : Deed) :
    ∃ given, (u.does deed).opens = u.opens + given ∧
      u.client.engine.CarriesOut given (u.does deed).client.engine := by
  cases deed with
  | openWith settings =>
    have hopened := Connection.carriesOut_openWith settings u.client
    simp only [does]
    generalize (Connection.openWith settings).outcome u.client = opened at hopened ⊢
    obtain ⟨answer, client⟩ := opened
    cases answer with
    | error err => exact ⟨0, rfl, hopened⟩
    | ok conn => exact ⟨1, rfl, hopened⟩
  | close conn order => exact ⟨0, rfl, conn.carriesOut_closeIn u.client order⟩
  | deleteDatabase name =>
    exact ⟨0, rfl, u.client.engine.carriesOut_call (.deleteDatabase name) rfl⟩
  | stats conn => exact ⟨0, rfl, u.client.engine.carriesOut_nothing⟩
  | record conn op => exact ⟨0, rfl, conn.carriesOut_record u.client op⟩
  | buildQuery conn request => exact ⟨0, rfl, conn.carriesOut_buildQuery u.client request⟩
  | fetch conn q => exact ⟨0, rfl, conn.carriesOut_fetch u.client q⟩
  | freeQuery conn q => exact ⟨0, rfl, conn.carriesOut_freeQuery u.client q⟩
  | lock conn kind mode =>
    have hasked := conn.carriesOut_lock u.client kind mode
    simp only [does]
    generalize (kind.action conn mode).outcome u.client = asked at hasked ⊢
    obtain ⟨answer, client⟩ := asked
    rcases answer with err | (_ | token) <;> exact ⟨0, rfl, hasked⟩
  | endLock conn token => exact ⟨0, rfl, conn.carriesOut_endLock u.client token⟩

/-- **An engine in the hands of a client** is one after a run of calls. -/
theorem Reachable.exists_run (h : Reachable settings faults u) :
    ∃ calls, u.client.engine = (Engine.start settings).run calls ∧
      ((Engine.start settings).handles calls).length = u.opens := by
  have hcarried : (Engine.start settings).CarriesOut u.opens u.client.engine := by
    induction h with
    | start => exact Engine.carriesOut_nothing _
    | @does u deed _ _ ih =>
      obtain ⟨given, hopens, hdeed⟩ := u.carriesOut_does deed
      exact hopens ▸ ih.trans hdeed
  exact hcarried

/-- The engine is in good order, as long as the numbers of connections last. -/
theorem Reachable.sound (h : Reachable settings faults u) (hopens : u.opens < 2 ^ 64) :
    Engine.Sound u.client.engine u.opens := by
  obtain ⟨calls, hengine, hgiven⟩ := h.exists_run
  have hsound : Engine.Sound ((Engine.start settings).run calls) _ :=
    (Engine.Sound.start settings).run (by omega)
  rw [hengine, ← hgiven]
  simpa only [Nat.zero_add] using hsound

end Usage

end RecordStore
