import RecordStore.Client.Locks
import RecordStore.Client.Records
import RecordStore.Proofs.Client.Actions
/-!
# Bodies — what is done under a lock

A body is a finite series of calls on records and fields, in which what is
called next may depend on all answers so far. It is data, so that it can be
carried out at once (`Body.action`) or one call at a time, with the calls of
others in between. A call that panics is an answer too: what is left to do
after it is up to the body.
-/

namespace RecordStore

/-! ## Calls on records and fields -/

/-- A call on the records and fields of a region. -/
inductive RecordCall where
  | create (length : Nat)
  | first
  | next (rec : RecordHandle)
  | delete (rec : RecordHandle)
  | length (rec : RecordHandle)
  | set (rec : RecordHandle) (index : Nat) (value : FieldValue)
  | get (rec : RecordHandle) (index : Nat)

namespace RecordCall

/-- What a call gives when it succeeds. -/
@[reducible] def Answer : RecordCall → Type
  | .create _ => Attempt RecordHandle
  | .first | .next _ => Option RecordHandle
  | .delete _ | .set _ _ _ => Unit
  | .length _ => Nat
  | .get _ _ => Field

/-- The call through a connection. -/
def action (conn : Connection) : (op : RecordCall) → Action op.Answer
  | .create n => conn.create n
  | .first => conn.first
  | .next rec => conn.next rec
  | .delete rec => conn.delete rec
  | .length rec => conn.length rec
  | .set rec index value => conn.set rec index value
  | .get rec index => conn.get rec index

end RecordCall

/-! ## Bodies -/

/-- What is done under a lock: calls, and a result in the end. -/
inductive Body (α : Type) where
  | ret (result : Except ClientError α)
  /-- A call; what is done next depends on its answer. -/
  | call (op : RecordCall) (next : Except ClientError op.Answer → Body α)

/-- A call that was made, with its answer. -/
abbrev Answered := (op : RecordCall) × Except ClientError op.Answer

namespace Body

variable {α : Type}

/-- Carries out a body at once. -/
def action (conn : Connection) : Body α → Action α
  | ret result => .check result
  | call op next => .ofState fun c =>
    let (answer, c) := (op.action conn).outcome c
    ((next answer).action conn).outcome c

/-- The calls of a body with their answers, if it is carried out at once. -/
def seen (conn : Connection) : Body α → Client → List Answered
  | ret _, _ => []
  | call op next, c =>
    let (answer, c) := (op.action conn).outcome c
    ⟨op, answer⟩ :: (next answer).seen conn c

/-- Reads an integer and writes one more, and gives what `result` makes of the integer read. -/
def increment (rec : RecordHandle) (index : Nat) (result : Int32 → α) : Body α :=
  call (.get rec index) fun field =>
    match field.bind fun field =>
        (Connection.typed index .int FieldValue.asInt? field).mapError .engine with
    | .error err => ret (.error err)
    | .ok v => call (.set rec index (.int (v + 1))) fun written =>
        ret (written.map fun _ => result v)

theorem outcome_action_call (conn : Connection) (op : RecordCall)
    (next : Except ClientError op.Answer → Body α) (c : Client) :
    ((call op next).action conn).outcome c =
      ((next ((op.action conn).outcome c).1).action conn).outcome
        ((op.action conn).outcome c).2 := rfl

theorem seen_call (conn : Connection) (op : RecordCall)
    (next : Except ClientError op.Answer → Body α) (c : Client) :
    (call op next).seen conn c =
      ⟨op, ((op.action conn).outcome c).1⟩ ::
        (next ((op.action conn).outcome c).1).seen conn ((op.action conn).outcome c).2 := rfl

end Body

end RecordStore
