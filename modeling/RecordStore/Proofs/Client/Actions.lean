import RecordStore.Client.Queries
/-!
# Actions — what a client does, step by step

An action is carried out by its steps in order, until one fails; the client
keeps what the steps up to there made of it. The outcomes of the single
steps are read off their definitions here, once.
-/

namespace RecordStore

namespace Action

variable {α β : Type} {c : Client}

/-- The second step is carried out where the first one succeeds, on what it left. -/
theorem outcome_bind (action : Action α) (next : α → Action β) :
    (action >>= next).outcome c =
      match action.outcome c with
      | (.error err, c') => (.error err, c')
      | (.ok a, c') => (next a).outcome c' := by
  unfold outcome ExceptT.run
  simp only [bind, ExceptT.bind, ExceptT.mk, StateT.bind, ExceptT.bindCont]
  cases action c with
  | mk answer c' => cases answer <;> rfl

/-- What an action gives may be put in other words. -/
theorem outcome_map (f : α → β) (action : Action α) :
    (f <$> action).outcome c = ((action.outcome c).1.map f, (action.outcome c).2) := by
  unfold outcome ExceptT.run
  simp only [Functor.map, ExceptT.map, ExceptT.mk, StateT.bind, bind]
  cases action c with
  | mk answer c' => cases answer <;> rfl

theorem outcome_ofState (f : Client → Except ClientError α × Client) :
    (ofState f).outcome c = f c := rfl

theorem outcome_check (a : Except ClientError α) : (check a).outcome c = (a, c) := rfl

theorem outcome_change (call : Engine → Except Error α × Engine) :
    (change call).outcome c =
      ((call c.engine).1.mapError .engine, { c with engine := (call c.engine).2 }) := rfl

/-- What follows a failure is carried out where the action fails, on what it left. -/
theorem outcome_tryCatch (action : Action α) (handler : ClientError → Action α) :
    (tryCatch action handler).outcome c =
      match action.outcome c with
      | (.error err, c') => (handler err).outcome c'
      | (.ok a, c') => (.ok a, c') := by
  unfold outcome ExceptT.run
  simp only [tryCatch, tryCatchThe, MonadExceptOf.tryCatch, ExceptT.tryCatch, ExceptT.mk,
    StateT.bind, bind]
  cases action c with
  | mk answer c' => cases answer <;> rfl

/-- What comes after a call of the engine is done where the call succeeds. -/
theorem outcome_change_bind (call : Engine → Except Error α × Engine) (next : α → Action β) :
    (change call >>= next).outcome c =
      match call c.engine with
      | (.error err, engine) => (.error (.engine err), { c with engine })
      | (.ok a, engine) => (next a).outcome { c with engine } := by
  rw [outcome_bind, outcome_change]
  cases call c.engine with
  | mk answer engine => cases answer <;> rfl

end Action

end RecordStore
