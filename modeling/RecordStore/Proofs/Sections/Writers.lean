import Mathlib.Logic.Function.Basic
import RecordStore.Proofs.Sections.Waiting
/-!
# Writers — bodies under the exclusive lock, one call at a time

Each of several writers carries out bodies under the exclusive lock of its
connection's region. A step of a writer is one call of the engine: it asks
for the lock, looks again where it has to wait, makes the next call of its
body, or gives the lock back. Steps of different writers come in any order
(`Writers.after`). `Writers.inTurn` is what they are compared with: the
bodies carried out at once, one after the other.
-/

namespace RecordStore

variable {ι α : Type}

/-! ## One step at a time -/

/-- Where a writer stands. -/
inductive Stage (α : Type) where
  | idle
  /-- The lock was asked for and not granted yet. -/
  | waiting (body : Body α)
  /-- The lock is held: what is left to do, and the calls made so far with their answers. -/
  | inside (token : LockToken) (rest : Body α) (seen : List Answered)

/-- A writer: the bodies it has not asked the lock for yet, and where it stands. -/
structure Writer (α : Type) where
  todo : List (Body α)
  stage : Stage α := .idle

/-- The bodies that a writer has not been let in for. -/
def Writer.pending (writer : Writer α) : List (Body α) :=
  match writer.stage with
  | .waiting body => body :: writer.todo
  | _ => writer.todo

@[simp] theorem Writer.pending_inside (todo : List (Body α)) (token : LockToken) (rest : Body α)
    (seen : List Answered) : (⟨todo, .inside token rest seen⟩ : Writer α).pending = todo := rfl

/-- The writer holds the lock. -/
def Writer.IsInside (writer : Writer α) : Prop :=
  ∃ token rest seen, writer.stage = .inside token rest seen

/-- What a writer learnt of a body: its calls with their answers, and its result. -/
structure Report (ι α : Type) where
  who : ι
  seen : List Answered
  result : Except ClientError (Option α)

/-- Writers at work. -/
structure Writers (ι α : Type) where
  client : Client
  conn : ι → Connection
  writers : ι → Writer α
  /-- The bodies that the lock was granted for, in the order of the grants. -/
  granted : List (ι × Body α) := []
  /-- What was reported of bodies, in the order in which they ended. -/
  reports : List (Report ι α) := []

namespace Writers

/-- Writers who have done nothing yet. -/
def start (client : Client) (conn : ι → Connection) (todo : ι → List (Body α)) : Writers ι α :=
  { client, conn, writers := fun i => { todo := todo i } }

section

variable [DecidableEq ι]

/-- A writer asks for the lock on behalf of a body: it is let in, or waits, or is refused. -/
def enter (w : Writers ι α) (i : ι) (todo : List (Body α)) (body : Body α)
    (request : Action (Option LockToken)) : Writers ι α :=
  match request.outcome w.client with
  | (.ok (some token), client) =>
    { w with
      client
      writers := Function.update w.writers i ⟨todo, .inside token body []⟩
      granted := w.granted ++ [(i, body)] }
  | (.ok none, client) =>
    { w with client, writers := Function.update w.writers i ⟨todo, .waiting body⟩ }
  | (.error err, client) =>
    { w with
      client
      writers := Function.update w.writers i ⟨todo, .idle⟩
      reports := w.reports ++ [⟨i, [], .error err⟩] }

/-- The next step of a writer. -/
def step (w : Writers ι α) (i : ι) : Writers ι α :=
  let ⟨todo, stage⟩ := w.writers i
  match stage with
  | .idle =>
    match todo with
    | [] => w
    | body :: todo => w.enter i todo body ((w.conn i).startLock .exclusive)
  | .waiting body => w.enter i todo body ((w.conn i).retryLock .exclusive)
  | .inside token (.call op next) seen =>
    let (answer, client) := (op.action (w.conn i)).outcome w.client
    { w with
      client
      writers := Function.update w.writers i
        ⟨todo, .inside token (next answer) (seen ++ [⟨op, answer⟩])⟩ }
  | .inside token (.ret result) seen =>
    let (result, client) := ((w.conn i).underLock token (.check result)).outcome w.client
    { w with
      client
      writers := Function.update w.writers i ⟨todo, .idle⟩
      reports := w.reports ++ [⟨i, seen, result.map some⟩] }

/-- The writers after steps, each by the writer named. -/
def after (w : Writers ι α) (schedule : List ι) : Writers ι α := schedule.foldl step w

/-- The bodies that the lock was granted for to a writer, in the order of the grants. -/
def grantedTo (w : Writers ι α) (i : ι) : List (Body α) :=
  (w.granted.filter fun job => job.1 = i).map Prod.snd

end

/-! ## One body after the other -/

/-- A body carried out under the lock at once. -/
def alone (conn : Connection) (c : Client) (i : ι) (body : Body α) : Report ι α × Client :=
  let (result, after) := (conn.withLock .exclusive (body.action conn)).outcome c
  let seen := match (conn.startLock .exclusive).outcome c with
    | (.ok (some _), inside) => body.seen conn inside
    | _ => []
  (⟨i, seen, result⟩, after)

/-- Bodies carried out one after the other, each at once. -/
def inTurn (conn : ι → Connection) (c : Client) (jobs : List (ι × Body α)) :
    List (Report ι α) × Client :=
  jobs.foldl (fun done job =>
    let (report, c) := alone (conn job.1) done.2 job.1 job.2
    (done.1 ++ [report], c)) ([], c)

theorem inTurn_append (conn : ι → Connection) (c : Client) (jobs : List (ι × Body α)) (i : ι)
    (body : Body α) :
    inTurn conn c (jobs ++ [(i, body)]) =
      ((inTurn conn c jobs).1 ++ [(alone (conn i) (inTurn conn c jobs).2 i body).1],
        (alone (conn i) (inTurn conn c jobs).2 i body).2) := by
  rw [inTurn, List.foldl_append]
  rfl

theorem outcome_withLock {β : Type} {conn : Connection} {c inside : Client} {token : LockToken}
    (h : (conn.startLock .exclusive).outcome c = (.ok (some token), inside)) (body : Action β) :
    (conn.withLock .exclusive body).outcome c =
      (((conn.underLock token body).outcome inside).1.map some,
        ((conn.underLock token body).outcome inside).2) := by
  rw [Connection.withLock, Action.outcome_bind, h]
  exact Action.outcome_map _ _

theorem alone_of_keptOut {conn : Connection} {c outside : Client}
    (h : (conn.startLock .exclusive).outcome c = (.ok none, outside)) (i : ι) (body : Body α) :
    alone conn c i body = (⟨i, [], .ok none⟩, outside) := by
  have hlock : (conn.withLock .exclusive (body.action conn)).outcome c = (.ok none, outside) := by
    rw [Connection.withLock, Action.outcome_bind, h]
    rfl
  simp only [alone, hlock, h]

theorem alone_of_letIn {conn : Connection} {c entered : Client} {token : LockToken}
    (h : (conn.startLock .exclusive).outcome c = (.ok (some token), entered)) (i : ι)
    (body : Body α) :
    alone conn c i body =
      (⟨i, body.seen conn entered,
        ((conn.underLock token (body.action conn)).outcome entered).1.map some⟩,
        ((conn.underLock token (body.action conn)).outcome entered).2) := by
  simp only [alone, outcome_withLock h, h]

/-- A body that was let in and came to its end is reported as if it had been carried out at
once. -/
theorem alone_of_enter {conn : Connection} {c entered under : Client} {token : LockToken}
    {i : ι} {body : Body α} {returned : Except ClientError α}
    (henter : (conn.startLock .exclusive).outcome c = (.ok (some token), entered))
    (hrest : (body.action conn).outcome entered = (returned, under)) :
    alone conn c i body =
      (⟨i, body.seen conn entered,
        ((conn.underLock token (.check returned)).outcome under).1.map some⟩,
        ((conn.underLock token (.check returned)).outcome under).2) := by
  rw [alone_of_letIn henter]
  simp only [Connection.outcome_underLock, hrest, Action.outcome_check]

end Writers

end RecordStore
