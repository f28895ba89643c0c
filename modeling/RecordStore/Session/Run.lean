import RecordStore.Session.Command
/-!
# Running a session — steps one after the other

The steps of a session are carried out in order, those inside a step as
part of it. While steps are carried out under a lock or in a traversal, the
connection cannot be closed. After a panic no step is carried out any more,
and the session has no entries.
-/

namespace RecordStore

namespace Session

/-- The session with a connection in use. -/
def occupy (s : Session) (name : String) : Session := { s with busy := name :: s.busy }

/-- The session with the innermost use of a connection ended. -/
def vacate (s : Session) : Session := { s with busy := s.busy.tail }

/-- Takes a lock for steps: the connection and the token, or how the attempt ended and whether
the lock was asked for. -/
def beginLock (s : Session) (name : String) (mode : LockMode) :
    Except (Outcome × Bool) (Connection × LockToken) × Session :=
  match s.connections.find? name with
  | none => (.error (.refused (.noVariable name), false), s)
  | some conn =>
    if s.client.engine.mustWait conn.handle mode then
      (.error (.refused .wouldBlock, false), s)
    else
      match (conn.startLock mode).outcome s.client with
      | (.error e, client) => (.error (.failed e, true), { s with client })
      | (.ok none, client) => (.error (.refused .wouldBlock, false), { s with client })
      | (.ok (some token), client) => (.ok (conn, token), { s with client })

/-- Gives the lock back. -/
def releaseLock (conn : Connection) (token : LockToken) (s : Session) :
    Except ClientError Unit × Session :=
  let (released, client) := (conn.endLock token).outcome s.client
  (released, { s with client })

/-- Gives the lock back after the steps under it, and says how they ended: with their number
unless they failed or were broken off. -/
def finishLock (conn : Connection) (token : LockToken) (ending : Ending) (count : Nat)
    (s : Session) : Outcome × Session :=
  let closeWith (result : Except ClientError Nat) : Outcome × Session :=
    match bracket (releaseLock conn token) (fun s => (result, s)) s with
    | (.ok n, s) => (.ok (.number n), s)
    | (.error e, s) => (.failed e, s)
  match ending with
  | .returns => closeWith (.ok count)
  | .fails words => closeWith (.error (.engine (.invalidArgument (.text words))))
  | .breaksOff words => (.brokeOff words, (releaseLock conn token s).2)

/-- Visits the next record of a traversal. -/
def visit (s : Session) (conn : Connection) (t : Traversal) : Visit × Traversal :=
  match t.next s.client.engine conn.handle with
  | (none, t) => (.ended, t)
  | (some (.error e), t) => (.failed (.engine e), t)
  | (some (.ok rec), t) => (.record (Procedure.rowOf s.client conn rec), t)

mutual

/-- Carries out a step. -/
def runStep (s : Session) : Step → Entry × Session
  | .command c => s.enter c
  | .underLock name mode steps ending =>
    match s.beginLock name mode with
    | (.error (outcome, wasAsked), s) =>
      (if wasAsked then .underLock outcome none s.usage else .command outcome none s.usage, s)
    | (.ok (conn, token), s) =>
      let (inner, s) := runSteps (s.occupy name) steps
      let (outcome, s) := finishLock conn token ending inner.length s.vacate
      (.underLock outcome (some inner) s.usage, s)
  | .traverse name turns =>
    match s.connections.find? name with
    | none => (.command (.refused (.noVariable name)) none s.usage, s)
    | some conn =>
      let (entries, s) := runTurns (s.occupy name) conn .start turns
      (.traversal entries s.vacate.usage, s.vacate)

/-- Carries out steps one after the other. -/
def runSteps (s : Session) : List Step → List Entry × Session
  | [] => ([], s)
  | step :: rest =>
    if s.panic.isSome then
      ([], s)
    else
      let (entry, s) := runStep s step
      let (entries, s) := runSteps s rest
      (entry :: entries, s)

/-- Carries out the turns of a traversal one after the other. -/
def runTurns (s : Session) (conn : Connection) (t : Traversal) :
    List Turn → List TurnEntry × Session
  | [] => ([], s)
  | turn :: rest =>
    if s.panic.isSome then
      ([], s)
    else
      match turn with
      | .visit =>
        let (v, t) := s.visit conn t
        let (entries, s) := runTurns s conn t rest
        (.visit v :: entries, s)
      | .steps steps =>
        let (inner, s) := runSteps s steps
        let (entries, s) := runTurns s conn t rest
        (.steps inner :: entries, s)

end

/-- A session on a new engine. -/
def start (settings : EngineSettings) (watch : Option String) : Except Error Session :=
  (Engine.new settings).map fun engine => { client := { engine }, watch }

/-- The entries of a session on a new engine, or the panic that broke it off. -/
def run (settings : EngineSettings) (watch : Option String) (steps : List Step) :
    Except Error (Attempt (List Entry)) :=
  (start settings watch).map fun s =>
    let (entries, s) := s.runSteps steps
    match s.panic with
    | none => .done entries
    | some p => .panicked p

end Session

end RecordStore
