import RecordStore.Engine.Call
import RecordStore.Proofs.Records.Listing
/-!
# Effects — what a history of calls leaves behind

A call that succeeds may create, delete or write; every other call, and
every call that fails, has no effect on records. A history is the list of
the effects so far. It determines the listing (`replay`), and it can also
be asked directly, without any listing, how long a record was made and what
was last written to one of its fields. `Faithful` says that a listing holds
just that.
-/

namespace RecordStore

/-- What a call that succeeded did to the records of its region. -/
inductive Effect where
  | created (key : SlotKey) (length : Nat)
  | deleted (key : SlotKey)
  | written (key : SlotKey) (index : Nat) (value : FieldValue)
  deriving DecidableEq

namespace Effect

variable {l : List LiveRecord} {history : List Effect} {key : SlotKey}

/-- The effect of a call with an answer. -/
def of? : Call → Except Error Reply → Option Effect
  | .create _ length, .ok (.record rec) => some (.created rec.key length)
  | .delete _ rec, .ok _ => some (.deleted rec.key)
  | .set _ rec index value, .ok _ => some (.written rec.key index value)
  | _, _ => none

/-- A call that fails has no effect. -/
theorem of?_error (call : Call) (err : Error) : of? call (.error err) = none := by
  cases call <;> rfl

/-! ## Replay -/

/-- The listing after an effect: a creation appends a record of unset fields, a deletion
takes out the one record, a write replaces the one field. -/
def apply (l : List LiveRecord) : Effect → List LiveRecord
  | .created key length => l ++ [LiveRecord.fresh key length]
  | .deleted key => Listing.without key l
  | .written key index value => Listing.written key index value l

/-- The listing after a history that began with no record. -/
def replay (history : List Effect) : List LiveRecord := history.foldl apply []

/-! ## Reading a history -/

/-- The length of the record under a key, after an effect. -/
def lengthAfter (key : SlotKey) (length : Nat) : Effect → Nat
  | .created k n => if k = key then n else length
  | .deleted _ => length
  | .written _ _ _ => length

/-- The length that the record under a key was last created with. -/
def createdLength (key : SlotKey) (history : List Effect) : Nat :=
  history.foldl (lengthAfter key) 0

/-- One field of the record under a key, after an effect. -/
def fieldAfter (key : SlotKey) (index : Nat) (f : Field) : Effect → Field
  | .created k _ => if k = key then none else f
  | .deleted _ => f
  | .written k i value => if k = key ∧ i = index then some value else f

/-- The value last written to a field since the record under the key was last created; none
if nothing was. -/
def lastWritten (key : SlotKey) (index : Nat) (history : List Effect) : Field :=
  history.foldl (fieldAfter key index) none

/-- **The listing holds what the history says**: each record is as long as it was created,
and each field holds what was last written to it. -/
structure Faithful (l : List LiveRecord) (history : List Effect) : Prop where
  length_eq : ∀ x ∈ l, x.fields.size = createdLength x.key history
  field_eq : ∀ x ∈ l, ∀ index < x.fields.size,
    x.fields[index]? = some (lastWritten x.key index history)

theorem faithful_nil : Faithful [] history := ⟨by simp, by simp⟩

/-- An effect can come next: what it creates gets a key that is not live. -/
def CanFollow (l : List LiveRecord) : Effect → Prop
  | .created key _ => Listing.lookup key l = none
  | _ => True

theorem createdLength_append (eff : Effect) :
    createdLength key (history ++ [eff]) = eff.lengthAfter key (createdLength key history) := by
  simp [createdLength]

theorem lastWritten_append (eff : Effect) (index : Nat) :
    lastWritten key index (history ++ [eff]) =
      eff.fieldAfter key index (lastWritten key index history) := by
  simp [lastWritten]

namespace Faithful

theorem created {length : Nat} (h : Faithful l history) (hkey : Listing.lookup key l = none) :
    Faithful (l ++ [LiveRecord.fresh key length]) (history ++ [.created key length]) := by
  -- The new record has a key of its own, so the records from before are not concerned.
  have hne : ∀ x ∈ l, key ≠ x.key := fun x hx => (Listing.lookup_eq_none_iff.1 hkey x hx).symm
  constructor
  · intro x hx
    rw [createdLength_append, lengthAfter]
    rcases List.mem_append.1 hx with hx | hx
    · rw [if_neg (hne x hx), h.length_eq x hx]
    · rw [List.mem_singleton.1 hx]
      simp [LiveRecord.fresh]
  · intro x hx index hlt
    rw [lastWritten_append, fieldAfter]
    rcases List.mem_append.1 hx with hx | hx
    · rw [if_neg (hne x hx), h.field_eq x hx index hlt]
    · rw [List.mem_singleton.1 hx] at hlt ⊢
      simp only [LiveRecord.fresh, Array.size_replicate] at hlt
      simp [LiveRecord.fresh, hlt]

theorem deleted (h : Faithful l history) :
    Faithful (Listing.without key l) (history ++ [.deleted key]) := by
  constructor
  · intro x hx
    rw [createdLength_append]
    exact h.length_eq x (List.mem_filter.1 hx).1
  · intro x hx index hlt
    rw [lastWritten_append]
    exact h.field_eq x (List.mem_filter.1 hx).1 index hlt

theorem written {index : Nat} {value : FieldValue} (h : Faithful l history) :
    Faithful (Listing.written key index value l) (history ++ [.written key index value]) := by
  constructor
  · intro x hx
    obtain ⟨y, hy, rfl⟩ := List.mem_map.1 hx
    rw [createdLength_append, lengthAfter]
    split
    · exact (Array.size_setIfInBounds).trans (h.length_eq y hy)
    · exact h.length_eq y hy
  · intro x hx i hlt
    obtain ⟨y, hy, rfl⟩ := List.mem_map.1 hx
    rw [lastWritten_append, fieldAfter]
    by_cases hkey : y.key = key
    · rw [if_pos hkey] at hlt ⊢
      simp only [LiveRecord.write, Array.size_setIfInBounds] at hlt
      simp only [LiveRecord.write, Array.getElem?_setIfInBounds, hkey, true_and]
      by_cases hi : index = i
      · -- This is the field that was written.
        subst hi
        rw [if_pos rfl, if_pos rfl, if_pos hlt]
      · rw [if_neg hi, if_neg hi, ← hkey]
        exact h.field_eq y hy i hlt
    · rw [if_neg hkey] at hlt ⊢
      rw [if_neg fun hk => hkey hk.1.symm]
      exact h.field_eq y hy i hlt

/-- **Applying an effect keeps a listing faithful.** -/
theorem apply {eff : Effect} (h : Faithful l history) (hcan : eff.CanFollow l) :
    Faithful (eff.apply l) (history ++ [eff]) := by
  cases eff with
  | created key length => exact h.created hcan
  | deleted key => exact h.deleted
  | written key index value => exact h.written

end Faithful

end Effect

namespace Listing

/-- The refusal of a record that is no longer there. -/
def gone : Except Error Reply := .error (.badRecord .recordGone)

/-- **What a call on records answers**, by the listing of the region that it reached. A
creation, or a write to a field that exists, may be refused, and a creation whose fields pass a
block of memory may be broken off; everything else follows from the listing. -/
def Answers (db : DbHandle) (l : List LiveRecord) (answer : Except Error Reply) : Call → Prop
  | .create _ length =>
    (∃ key, lookup key l = none ∧ answer = .ok (.record (db.record key))) ∨
      (∃ requested available, answer = .error (.regionFull requested available)) ∨
      answer = .error (.internal .slotsExhausted) ∨
      Size.maxCells < length ∧ ∃ p, answer = .ok (.panicked p)
  | .delete _ rec =>
    answer = match lookup rec.key l with
      | some _ => .ok .done
      | none => gone
  | .set _ rec index _ =>
    match lookup rec.key l with
    | some x =>
      if index < x.fields.size then
        answer = .ok .done ∨
          ∃ requested available, answer = .error (.regionFull requested available)
      else
        answer = .error (.fieldOutOfRange index x.fields.size)
    | none => answer = gone
  | .get _ rec index =>
    answer = match lookup rec.key l with
      | some x =>
        match x.fields[index]? with
        | some f => .ok (.field f)
        | none => .error (.fieldOutOfRange index x.fields.size)
      | none => gone
  | .length _ rec =>
    answer = match lookup rec.key l with
      | some x => .ok (.length x.fields.size)
      | none => gone
  | .first db =>
    answer = .ok (.recordOrEnd (l.head?.map fun x => db.record x.key))
  | .next db rec =>
    answer = match lookup rec.key l with
      | some _ => .ok (.recordOrEnd ((after rec.key l).map fun x => db.record x.key))
      | none => gone
  | _ => True

/-- What is answered as the listing says can come next. -/
theorem Answers.canFollow {db : DbHandle} {l : List LiveRecord} {answer : Except Error Reply}
    {call : Call} {eff : Effect} (h : Answers db l answer call)
    (heff : Effect.of? call answer = some eff) : eff.CanFollow l := by
  cases eff with
  | created key length =>
    unfold Effect.of? at heff
    split at heff
    · cases heff
      rcases h with ⟨key, hkey, hanswer⟩ | ⟨requested, available, hanswer⟩ | hanswer |
        ⟨-, p, hanswer⟩
      · cases hanswer
        exact hkey
      all_goals cases hanswer
    all_goals cases heff
  | deleted key => trivial
  | written key index value => trivial

end Listing

end RecordStore
