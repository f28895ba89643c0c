import RecordStore.Region.Query
import RecordStore.Proofs.SlotTable.Lookup
/-!
# Regions — what each operation comes to

One equation or case lemma for each operation that changes a region: how it
answers, and the region after it. A charge that is given back in the same
call leaves no trace, so every refusal leaves the region as it was
(`create_eq`, `set_eq`); only a creation that panics may keep its charge
(`Creation.tooLarge`). Later proofs start from these statements and open no
operation again.
-/

namespace RecordStore

namespace Region

variable {r r' : Region} {key : SlotKey} {connection : ConnectionId}

/-- Giving back what was just taken restores the region. -/
theorem refund_add (r : Region) (bytes : Nat) :
    { r with used := r.used + bytes }.refund bytes = r := by
  simp [refund]

/-! ## Records and fields -/

/-- **A creation** panics where the size of the record passes a machine word. It is refused for
want of space or of a slot, and then changes nothing. Where the fields pass a block of memory it
panics when the record is charged for. Else it stores a record behind the others. -/
theorem create_eq (r : Region) (length : Nat) :
    r.create length =
      if Size.modulus ≤ Size.record length then (.ok (.panicked (Size.overflow length)), r)
      else if r.available < Size.record length then
        (.error (.regionFull (Size.record length) r.available), r)
      else if Size.maxCells < length then
        (.ok (.panicked .capacityOverflow), { r with used := r.used + Size.record length })
      else
        match r.records.insert? ⟨r.nextSeq, Array.replicate length none⟩ with
        | none => (.error (.internal .slotsExhausted), r)
        | some (key, records) =>
          (.ok (.done key), { r with
            records
            used := r.used + Size.record length
            order := r.order ++ [(r.nextSeq, key.slot)]
            nextSeq := r.nextSeq + 1 }) := by
  by_cases hword : Size.modulus ≤ Size.record length
  · simp only [create, Size.recordWord_eq, if_pos hword]
  · simp only [create, Size.recordWord_eq, if_neg hword, Size.maxBlock_lt_iff]
    by_cases hfull : r.available < Size.record length
    · simp only [charge, if_pos hfull]
    · -- The space is charged first, and given back where no slot is found.
      simp only [charge, if_neg hfull]
      split
      · rfl
      · cases r.records.insert? ⟨r.nextSeq, Array.replicate length none⟩ with
        | none => simp only [refund_add]
        | some found => rfl

/-- The ways in which a creation comes out, each with what it leaves of the region. -/
inductive Creation (r : Region) (length : Nat) : Except Error (Attempt SlotKey) → Region → Prop
  | overflowed (hword : Size.modulus ≤ Size.record length) :
      Creation r length (.ok (.panicked (Size.overflow length))) r
  | full (hfull : r.available < Size.record length) :
      Creation r length (.error (.regionFull (Size.record length) r.available)) r
  /-- The record was charged for, but its fields pass a block of memory. -/
  | tooLarge (hroom : Size.record length ≤ r.available) (hblock : Size.maxCells < length) :
      Creation r length (.ok (.panicked .capacityOverflow))
        { r with used := r.used + Size.record length }
  | slotless (hroom : Size.record length ≤ r.available) (hblock : length ≤ Size.maxCells)
      (hinsert : r.records.insert? ⟨r.nextSeq, Array.replicate length none⟩ = none) :
      Creation r length (.error (.internal .slotsExhausted)) r
  | stored {key : SlotKey} {records : SlotTable Record} (hroom : Size.record length ≤ r.available)
      (hblock : length ≤ Size.maxCells)
      (hinsert : r.records.insert? ⟨r.nextSeq, Array.replicate length none⟩ = some (key, records)) :
      Creation r length (.ok (.done key)) { r with
        records
        used := r.used + Size.record length
        order := r.order ++ [(r.nextSeq, key.slot)]
        nextSeq := r.nextSeq + 1 }

/-- **A creation comes out in one of these ways.** -/
theorem creation (r : Region) (length : Nat) :
    Creation r length (r.create length).1 (r.create length).2 := by
  rw [create_eq]
  split
  · exact .overflowed ‹_›
  · split
    · exact .full ‹_›
    · rename_i hfull
      split
      · exact .tooLarge (Nat.le_of_not_lt hfull) ‹_›
      · rename_i hblock
        split
        · exact .slotless (Nat.le_of_not_lt hfull) (Nat.le_of_not_lt hblock) ‹_›
        · exact .stored (Nat.le_of_not_lt hfull) (Nat.le_of_not_lt hblock) ‹_›

theorem creation_of_eq {length : Nat} {answer : Except Error (Attempt SlotKey)}
    (h : r.create length = (answer, r')) : Creation r length answer r' := by
  have hcreation := r.creation length
  rwa [h] at hcreation

/-- **A creation that succeeds**, and the region after it. -/
theorem create_eq_done {length : Nat} (h : r.create length = (.ok (.done key), r')) :
    ∃ records, r.records.insert? ⟨r.nextSeq, Array.replicate length none⟩ = some (key, records) ∧
      Size.record length ≤ r.available ∧ length ≤ Size.maxCells ∧
      r' = { r with
        records
        used := r.used + Size.record length
        order := r.order ++ [(r.nextSeq, key.slot)]
        nextSeq := r.nextSeq + 1 } := by
  cases creation_of_eq h with
  | stored hroom hblock hinsert => exact ⟨_, hinsert, hroom, hblock, rfl⟩

/-- **A creation that panics** has changed nothing, or is charged for. -/
theorem create_eq_panicked {length : Nat} {p : Panic}
    (h : r.create length = (.ok (.panicked p), r')) :
    (Size.modulus ≤ Size.record length ∧ p = Size.overflow length ∧ r' = r) ∨
      (Size.record length ≤ r.available ∧ Size.maxCells < length ∧
        p = .capacityOverflow ∧ r' = { r with used := r.used + Size.record length }) := by
  cases creation_of_eq h with
  | overflowed hword => exact .inl ⟨hword, rfl, rfl⟩
  | tooLarge hroom hblock => exact .inr ⟨hroom, hblock, rfl, rfl⟩

/-- A creation that panics leaves all but the space as it was. -/
theorem used_of_panicked {length : Nat} {p : Panic}
    (h : r.create length = (.ok (.panicked p), r')) : ∃ used, r' = { r with used } := by
  cases creation_of_eq h with
  | overflowed => exact ⟨r.used, rfl⟩
  | tooLarge => exact ⟨_, rfl⟩

/-- Only a creation whose fields pass a block of memory panics. -/
theorem maxCells_lt_of_panicked {length : Nat} {p : Panic}
    (h : r.create length = (.ok (.panicked p), r')) : Size.maxCells < length := by
  cases creation_of_eq h with
  | overflowed hword =>
    rw [Size.record_eq] at hword
    simp only [Size.modulus, UInt64.size] at hword
    simp only [Size.maxCells, Size.maxBlock, Size.fieldCell]
    omega
  | tooLarge hroom hblock => exact hblock

/-- **A creation that is refused** changes nothing. -/
theorem create_eq_error {length : Nat} {err : Error} (h : r.create length = (.error err, r')) :
    r' = r := by
  cases creation_of_eq h <;> rfl

/-- **A deletion** takes the record out of the table and of the order, and gives back its size. -/
theorem delete_eq_ok (h : r.delete key = (.ok (), r')) :
    ∃ rec records, r.records.remove? key = some (rec, records) ∧
      r' = { r with
        records
        order := r.order.filter fun e => e.1 ≠ rec.seq
        used := r.used - rec.size } := by
  unfold delete at h
  cases hrem : r.records.remove? key with
  | none => simp only [hrem] at h; cases h
  | some found =>
    simp only [hrem, Prod.mk.injEq, true_and] at h
    exact ⟨found.1, found.2, rfl, h.symm⟩

theorem delete_eq_error_iff {err : Error} :
    r.delete key = (.error err, r') ↔
      r.records.get? key = none ∧ err = .badRecord .recordGone ∧ r' = r := by
  unfold delete
  cases hrem : r.records.remove? key with
  | none =>
    simp only [SlotTable.remove?_eq_none_iff.1 hrem, Prod.mk.injEq, Except.error.injEq, true_and]
    constructor <;> rintro ⟨rfl, rfl⟩ <;> exact ⟨rfl, rfl⟩
  | some found =>
    obtain ⟨rec, records⟩ := found
    have hget := (SlotTable.remove?_eq_some_iff.1 hrem).1
    simp [hget]

/-- **A change of size** is refused where what is more does not fit; else the difference is
taken or given back. -/
theorem recharge_eq (r : Region) (old new : Nat) :
    r.recharge old new =
      if r.available + old < new then (.error (.regionFull (new - old) r.available), r)
      else (.ok (), { r with used := r.used + (new - old) - (old - new) }) := by
  unfold recharge charge refund
  -- One of the two differences is zero, whichever is the greater size.
  by_cases hlt : old < new
  · have hiff : r.available < new - old ↔ r.available + old < new := by omega
    have hzero : old - new = 0 := by omega
    simp [hlt, hiff, hzero]
  · have hge : ¬ r.available + old < new := by omega
    have hzero : new - old = 0 := by omega
    simp [hlt, hge, hzero]

/-- **A write** is refused where the record or the field does not exist or the space does not
suffice, and then changes nothing; else it replaces the one field and charges the difference. -/
theorem set_eq (r : Region) (key : SlotKey) (index : Nat) (value : FieldValue) :
    r.set key index value =
      match r.records.get? key with
      | none => (.error (.badRecord .recordGone), r)
      | some rec =>
        match rec.fields[index]? with
        | none => (.error (.fieldOutOfRange index rec.fields.size), r)
        | some old =>
          if r.available + old.storedSize < value.storedSize then
            (.error (.regionFull (value.storedSize - old.storedSize) r.available), r)
          else
            (.ok (), { r with
              used := r.used + (value.storedSize - old.storedSize) -
                (old.storedSize - value.storedSize)
              records := r.records.replace key
                { rec with fields := rec.fields.setIfInBounds index (some value) } }) := by
  cases hrec : r.records.get? key with
  | none => simp [set, get, record, hrec, bind, Except.bind]
  | some rec =>
    cases hfield : rec.fields[index]? with
    | none => simp [set, get, record, hrec, hfield, bind, Except.bind]
    | some old =>
      have hget : r.get key index = .ok old := by
        simp [get, record, hrec, hfield, bind, Except.bind]
      by_cases hfull : r.available + old.storedSize < value.storedSize
      · simp only [set, hget, recharge_eq, if_pos hfull, hfield]
      · simp only [set, hget, recharge_eq, if_neg hfull, hfield, write, hrec]

/-- **A write that succeeds**, and the region after it. -/
theorem set_eq_ok {index : Nat} {value : FieldValue} (h : r.set key index value = (.ok (), r')) :
    ∃ rec old, r.records.get? key = some rec ∧ rec.fields[index]? = some old ∧
      value.storedSize ≤ r.available + old.storedSize ∧
      r' = { r with
        used := r.used + (value.storedSize - old.storedSize) -
          (old.storedSize - value.storedSize)
        records := r.records.replace key
          { rec with fields := rec.fields.setIfInBounds index (some value) } } := by
  rw [set_eq] at h
  cases hrec : r.records.get? key with
  | none => simp only [hrec] at h; cases h
  | some rec =>
    cases hfield : rec.fields[index]? with
    | none => simp only [hrec, hfield] at h; cases h
    | some old =>
      simp only [hrec, hfield] at h
      split at h
      · cases h
      · rename_i hfits
        simp only [Prod.mk.injEq, true_and] at h
        exact ⟨rec, old, rfl, hfield, Nat.le_of_not_lt hfits, h.symm⟩

/-- **A write that is refused** changes nothing. -/
theorem set_eq_error {index : Nat} {value : FieldValue} {err : Error}
    (h : r.set key index value = (.error err, r')) : r' = r := by
  rw [set_eq] at h
  split at h
  · exact (Prod.mk.inj h).2.symm
  · split at h
    · exact (Prod.mk.inj h).2.symm
    · split at h
      · exact (Prod.mk.inj h).2.symm
      · cases h

/-! ## Queries -/

/-- **A query that is built** holds the rows that match its plan, and is charged for them. -/
theorem buildQuery_eq_ok {template : Option SlotKey} {conditions : List Condition} {limit : Nat}
    (h : r.buildQuery connection template conditions limit = (.ok key, r')) :
    ∃ plan queries, r.plan template conditions = .ok plan ∧
      r.queries.insert? ⟨connection, r.matching plan limit, 0,
        Size.query (r.matching plan limit).length⟩ = some (key, queries) ∧
      r' = { r with
        queries
        queryBytes := r.queryBytes + Size.query (r.matching plan limit).length } := by
  unfold buildQuery at h
  cases hplan : r.plan template conditions with
  | error err => simp only [hplan] at h; cases h
  | ok plan =>
    simp only [hplan] at h
    split at h
    · cases h
    · rename_i found queries hins
      simp only [Prod.mk.injEq, Except.ok.injEq] at h
      obtain ⟨rfl, rfl⟩ := h
      exact ⟨plan, queries, rfl, hins, rfl⟩

theorem buildQuery_eq_error {template : Option SlotKey} {conditions : List Condition}
    {limit : Nat} {err : Error}
    (h : r.buildQuery connection template conditions limit = (.error err, r')) : r' = r := by
  unfold buildQuery at h
  cases hplan : r.plan template conditions with
  | error err => simp only [hplan] at h; exact (Prod.mk.inj h).2.symm
  | ok plan =>
    simp only [hplan] at h
    split at h
    · exact (Prod.mk.inj h).2.symm
    · cases h

theorem query_eq_ok_iff {cursor : Cursor} :
    r.query connection key = .ok cursor ↔
      r.queries.get? key = some cursor ∧ cursor.connection = connection := by
  unfold query
  cases r.queries.get? key with
  | none => simp
  | some found =>
    by_cases hc : found.connection = connection
    · simp only [if_pos hc, Except.ok.injEq, Option.some.injEq]
      constructor
      · rintro rfl; exact ⟨rfl, hc⟩
      · rintro ⟨rfl, -⟩; rfl
    · simp only [if_neg hc, reduceCtorEq, Option.some.injEq, false_iff, not_and]
      rintro rfl
      exact hc

/-- **A fetch that is answered** moves the cursor of the query and nothing else. -/
theorem fetch_eq_ok {row : Option SlotKey} (h : r.fetch connection key = (.ok row, r')) :
    ∃ cursor, r.queries.get? key = some cursor ∧ cursor.connection = connection ∧
      row = (cursor.advance r.records.contains).1 ∧
      r' = { r with queries := r.queries.replace key (cursor.advance r.records.contains).2 } := by
  unfold fetch at h
  cases hq : r.query connection key with
  | error err => simp only [hq] at h; cases h
  | ok cursor =>
    obtain ⟨hget, hconn⟩ := query_eq_ok_iff.1 hq
    simp only [hq, Prod.mk.injEq, Except.ok.injEq] at h
    exact ⟨cursor, hget, hconn, h.1.symm, h.2.symm⟩

theorem fetch_eq_error {err : Error} (h : r.fetch connection key = (.error err, r')) :
    r' = r := by
  unfold fetch at h
  split at h
  · exact (Prod.mk.inj h).2.symm
  · cases h

/-- **A query that is freed** leaves the table and gives back its memory. -/
theorem freeQuery_eq_ok (h : r.freeQuery connection key = (.ok (), r')) :
    ∃ cursor queries, r.queries.remove? key = some (cursor, queries) ∧
      cursor.connection = connection ∧
      r' = { r with queries, queryBytes := r.queryBytes - cursor.footprint } := by
  unfold freeQuery at h
  cases hq : r.query connection key with
  | error err => simp only [hq] at h; cases h
  | ok cursor =>
    -- A query that passed the check is in the table, so it is taken out.
    obtain ⟨hget, hconn⟩ := query_eq_ok_iff.1 hq
    have hrem := SlotTable.remove?_eq_some_iff.2 ⟨hget, rfl⟩
    simp only [hq, hrem, Prod.mk.injEq, true_and] at h
    exact ⟨cursor, _, hrem, hconn, h.symm⟩

theorem freeQuery_eq_error {err : Error} (h : r.freeQuery connection key = (.error err, r')) :
    r' = r := by
  unfold freeQuery at h
  split at h
  · exact (Prod.mk.inj h).2.symm
  · split at h <;> cases h

/-- **A detachment** frees the queries of the connection. -/
theorem detach_eq (r : Region) (connection : ConnectionId) :
    r.detach connection = { r with
      attached := r.attached - 1
      queries := (r.queries.drain fun cursor => cursor.connection = connection).2
      queryBytes := r.queryBytes -
        (r.queries.drain fun cursor => cursor.connection = connection).1.foldl
          (fun bytes cursor => bytes + cursor.footprint) 0 } := rfl

end Region

end RecordStore
