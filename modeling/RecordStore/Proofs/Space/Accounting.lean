import RecordStore.Proofs.Records.Changes
import RecordStore.Proofs.Space.Sums
import RecordStore.Region.Stats
/-!
# Space — the counters of a region are exact

A region counts the bytes that its records take and the bytes that its
queries hold as it goes, and subtracts without going below zero. `Accounted`
says that the counters are the sums over what is live, but for the bytes that
are lost: what was charged for records whose creation panicked before they
were there. It follows that no subtraction is ever cut off at zero: what is
given back is part of the sum. Only a creation whose fields pass a block of
memory loses anything (`Accounted.broken`).
-/

namespace RecordStore

namespace Region

variable {r r' : Region} {lost : Nat} {key : SlotKey} {connection : ConnectionId}

/-- What a live query takes. -/
def querySpace (cursor : Cursor) : Nat := 64 + 8 * cursor.rows.length

/-- **The counters are the sums over what is live** with what is lost, and all of it fits. -/
structure Accounted (lost : Nat) (r : Region) : Prop where
  coherent : r.Coherent
  used_eq : r.used = Listing.space r.listing + lost
  used_le : r.used ≤ r.capacity
  queryBytes_eq : r.queryBytes = r.queries.weight querySpace
  footprint_eq : ∀ key cursor, r.queries.get? key = some cursor →
    cursor.footprint = querySpace cursor

theorem querySpace_eq (cursor : Cursor) : querySpace cursor = Size.query cursor.rows.length := by
  simp only [querySpace, Size.query, Size.queryHeader, Size.word]
  omega

theorem accounted_founded (i : RegionId) (name : Option String) (capacity : Nat) :
    Accounted 0 (fresh i name capacity).attach where
  coherent := Engine.coherent_founded i name capacity
  used_eq := rfl
  used_le := Nat.zero_le _
  queryBytes_eq := rfl
  footprint_eq := by simp [fresh, attach, SlotTable.get?, SlotTable.slot?]

namespace Accounted

/-- Changes of the queries leave the account of the records alone. -/
theorem of_queries (ha : Accounted lost r) (hc : r'.Coherent) (hlisting : r'.listing = r.listing)
    (hused : r'.used = r.used) (hcapacity : r'.capacity = r.capacity)
    (hbytes : r'.queryBytes = r'.queries.weight querySpace)
    (hfootprint : ∀ key cursor, r'.queries.get? key = some cursor →
      cursor.footprint = querySpace cursor) : Accounted lost r' where
  coherent := hc
  used_eq := by rw [hused, hlisting, ha.used_eq]
  used_le := by rw [hused, hcapacity]; exact ha.used_le
  queryBytes_eq := hbytes
  footprint_eq := hfootprint

/-! ## What is given back is part of the sum -/

/-- A live record takes no more than is counted as used. -/
theorem size_le_used (ha : Accounted lost r) {rec : Record} (h : r.records.get? key = some rec) :
    rec.size ≤ r.used := by
  have hpart := Listing.space_le_space (ha.coherent.mem_listing.2 ⟨rec, h, rfl⟩ :
    (⟨key, rec.fields⟩ : LiveRecord) ∈ r.listing)
  have hused := ha.used_eq
  rw [rec.size_eq key]
  omega

/-- Nor does a field of one. -/
theorem storedSize_le_used (ha : Accounted lost r) {rec : Record} {index : Nat} {old : Field}
    (h : r.records.get? key = some rec) (hold : rec.fields[index]? = some old) :
    old.storedSize ≤ r.used := by
  have hfield := Field.space_le_spaces hold
  have hrecord := Listing.space_le_space (ha.coherent.mem_listing.2 ⟨rec, h, rfl⟩ :
    (⟨key, rec.fields⟩ : LiveRecord) ∈ r.listing)
  have hused := ha.used_eq
  rw [Field.storedSize_eq]
  simp only [LiveRecord.space] at hrecord
  omega

/-- A live query holds no more than is counted for the queries. -/
theorem footprint_le (ha : Accounted lost r) {cursor : Cursor}
    (h : r.queries.get? key = some cursor) : cursor.footprint ≤ r.queryBytes := by
  rw [ha.footprint_eq key cursor h, ha.queryBytes_eq]
  exact SlotTable.le_weight querySpace ha.coherent.queries.toWellFormed h

/-- The queries of a connection, as their memory is given back when it detaches. -/
theorem sum_drained (ha : Accounted lost r) (connection : ConnectionId) :
    ((r.queries.drain fun cursor => cursor.connection = connection).1.map Cursor.footprint).sum =
      ((r.queries.drain fun cursor => cursor.connection = connection).1.map querySpace).sum := by
  rw [SlotTable.drain_fst]
  congr 1
  refine List.map_congr_left fun cursor hcursor => ?_
  obtain ⟨⟨key, c⟩, he, rfl⟩ := List.mem_map.1 hcursor
  have hget := (SlotTable.mem_entries ha.coherent.queries.size_le).1 (List.mem_filter.1 he).1
  exact ha.footprint_eq key c hget

/-! ## Every change keeps the account -/

theorem create (ha : Accounted lost r) {length : Nat}
    (h : r.create length = (.ok (.done key), r')) : Accounted lost r' := by
  have hlisting := (ha.coherent.listing_create h).1
  have hc := ha.coherent.create h
  have hused := ha.used_eq
  have hle := ha.used_le
  obtain ⟨records, -, hfits, -, rfl⟩ := create_eq_done h
  simp only [available] at hfits
  refine ⟨hc, ?_, ?_, ha.queryBytes_eq, ha.footprint_eq⟩
  · -- What is charged is what an unset record adds to the listing.
    show r.used + Size.record length = _
    rw [hlisting, Listing.space_append_fresh, Size.record_eq]
    omega
  · show r.used + Size.record length ≤ r.capacity
    omega

/-- **A creation whose fields pass a block of memory** loses what it was charged. -/
theorem broken (ha : Accounted lost r) {length : Nat}
    (h : r.create length = (.ok (.panicked .capacityOverflow), r')) :
    Accounted (lost + (24 + 8 * length)) r' := by
  have hused := ha.used_eq
  have hle := ha.used_le
  rcases create_eq_panicked h with ⟨-, hp, -⟩ | ⟨hroom, -, -, rfl⟩
  · exact absurd hp.symm (Size.overflow_ne length)
  · simp only [available] at hroom
    refine ⟨ha.coherent.congr rfl rfl rfl ha.coherent.queries, ?_, ?_, ha.queryBytes_eq,
      ha.footprint_eq⟩
    · show r.used + Size.record length = Listing.space r.listing + _
      rw [Size.record_eq]
      omega
    · show r.used + Size.record length ≤ r.capacity
      omega

theorem delete (ha : Accounted lost r) (h : r.delete key = (.ok (), r')) :
    Accounted lost r' := by
  have hlisting := ha.coherent.listing_delete h
  have hc := ha.coherent.delete h
  have hused := ha.used_eq
  have hle := ha.used_le
  obtain ⟨rec, records, hrem, rfl⟩ := delete_eq_ok h
  have hlive := (SlotTable.remove?_eq_some_iff.1 hrem).1
  have hsize := rec.size_eq key
  have hmem : (⟨key, rec.fields⟩ : LiveRecord) ∈ r.listing :=
    ha.coherent.mem_listing.2 ⟨rec, hlive, rfl⟩
  -- The record's size is part of the sum, so it can be subtracted in full.
  have hout : Listing.space (Listing.without key r.listing) + LiveRecord.space ⟨key, rec.fields⟩ =
      Listing.space r.listing :=
    Listing.space_without ha.coherent.listing_nodup hmem
  refine ⟨hc, ?_, ?_, ha.queryBytes_eq, ha.footprint_eq⟩
  · rw [hlisting]
    show r.used - rec.size = _
    omega
  · show r.used - rec.size ≤ r.capacity
    omega

theorem set (ha : Accounted lost r) {index : Nat} {value : FieldValue}
    (h : r.set key index value = (.ok (), r')) : Accounted lost r' := by
  have hlisting := ha.coherent.listing_set h
  have hc := ha.coherent.set h
  have hused := ha.used_eq
  have hle := ha.used_le
  obtain ⟨rec, old, hlive, hold, hfits, rfl⟩ := set_eq_ok h
  have hmem : (⟨key, rec.fields⟩ : LiveRecord) ∈ r.listing :=
    ha.coherent.mem_listing.2 ⟨rec, hlive, rfl⟩
  have hwritten : Listing.space (Listing.written key index value r.listing) + old.space =
      Listing.space r.listing + value.space :=
    Listing.space_written ha.coherent.listing_nodup hmem hold
  -- The old value is part of what is used, so the difference is never cut off at zero.
  have hpart := ha.storedSize_le_used hlive hold
  simp only [available] at hfits
  rw [← Field.storedSize_eq, ← FieldValue.storedSize_eq] at hwritten
  refine ⟨hc, ?_, ?_, ha.queryBytes_eq, ha.footprint_eq⟩
  · rw [hlisting]
    show r.used + (value.storedSize - old.storedSize) - (old.storedSize - value.storedSize) = _
    omega
  · show r.used + (value.storedSize - old.storedSize) - (old.storedSize - value.storedSize) ≤
      r.capacity
    omega

theorem buildQuery (ha : Accounted lost r) {template : Option SlotKey}
    {conditions : List Condition} {limit : Nat} (hc : r'.Coherent)
    (h : r.buildQuery connection template conditions limit = (.ok key, r')) :
    Accounted lost r' := by
  have hlisting := listing_buildQuery h
  obtain ⟨plan, queries, -, hins, rfl⟩ := buildQuery_eq_ok h
  have hw := ha.coherent.queries.toWellFormed
  refine ha.of_queries hc hlisting rfl rfl ?_ fun k cursor hcursor => ?_
  · rw [SlotTable.weight_insert querySpace hw hins, ← ha.queryBytes_eq, querySpace_eq]
  · rw [SlotTable.get?_insert hw hins] at hcursor
    split at hcursor
    · cases hcursor
      rw [querySpace_eq]
    · exact ha.footprint_eq k cursor hcursor

theorem fetch (ha : Accounted lost r) {row : Option SlotKey} (hc : r'.Coherent)
    (h : r.fetch connection key = (.ok row, r')) : Accounted lost r' := by
  have hlisting := listing_fetch h
  obtain ⟨cursor, hcursor, -, -, rfl⟩ := fetch_eq_ok h
  have hw := ha.coherent.queries.toWellFormed
  -- A cursor that moves keeps its rows, and so what it takes.
  have hsame : querySpace (cursor.advance r.records.contains).2 = querySpace cursor := rfl
  refine ha.of_queries hc hlisting rfl rfl ?_ fun k c hk => ?_
  · exact ha.queryBytes_eq.trans (SlotTable.weight_replace querySpace hw hcursor hsame).symm
  · rw [SlotTable.get?_replace hcursor] at hk
    split at hk
    · cases hk
      exact ha.footprint_eq key cursor hcursor
    · exact ha.footprint_eq k c hk

theorem freeQuery (ha : Accounted lost r) (hc : r'.Coherent)
    (h : r.freeQuery connection key = (.ok (), r')) : Accounted lost r' := by
  have hlisting := listing_freeQuery h
  obtain ⟨cursor, queries, hrem, -, rfl⟩ := freeQuery_eq_ok h
  have hlive := (SlotTable.remove?_eq_some_iff.1 hrem).1
  have hweight := SlotTable.weight_remove querySpace ha.coherent.queries.toWellFormed hrem
  have hbytes := ha.queryBytes_eq
  refine ha.of_queries hc hlisting rfl rfl ?_ fun k c hk => ?_
  · show r.queryBytes - cursor.footprint = queries.weight querySpace
    rw [ha.footprint_eq key cursor hlive]
    omega
  · rw [SlotTable.get?_remove hrem] at hk
    split at hk
    · cases hk
    · exact ha.footprint_eq k c hk

theorem detach (ha : Accounted lost r) (hc : (r.detach connection).Coherent) :
    Accounted lost (r.detach connection) := by
  have hweight := SlotTable.weight_drain querySpace ha.coherent.queries.toWellFormed
    fun cursor => cursor.connection = connection
  have hbytes := ha.queryBytes_eq
  rw [detach_eq] at hc ⊢
  refine ha.of_queries hc rfl rfl rfl ?_ fun k c hk => ?_
  · refine Nat.sub_eq_of_eq_add' ?_
    rw [Size.foldl_eq_sum, ha.sum_drained, hweight, hbytes]
  · rw [SlotTable.get?_drain, Option.filter_eq_some_iff] at hk
    exact ha.footprint_eq k c hk.1

/-- **Whatever else a call makes of a region, nothing is lost.** -/
theorem change {most : Nat} (hmost : most ≤ Size.maxCells) (ha : Accounted lost r)
    (h : Change most r r') : Accounted lost r' := by
  have hc := ha.coherent.change h
  cases h with
  | kept => exact ha
  | attached => exact ha.of_queries hc rfl rfl rfl ha.queryBytes_eq ha.footprint_eq
  | detached connection => exact ha.detach hc
  | created _ h => exact ha.create h
  | brokenOff hlength h =>
    exact absurd (maxCells_lt_of_panicked h) (Nat.not_lt.2 (hlength.trans hmost))
  | deleted h => exact ha.delete h
  | written h => exact ha.set h
  | built h => exact ha.buildQuery hc h
  | fetched h => exact ha.fetch hc h
  | freed h => exact ha.freeQuery hc h
  | locked lock => exact ha.of_queries hc rfl rfl rfl ha.queryBytes_eq ha.footprint_eq

end Accounted

/-! ## What the counters say -/

/-- **The statistics of a region are the sums and numbers of what is live**, but for the bytes
that are lost. -/
structure CountsExactly (lost : Nat) (r : Region) : Prop where
  used_eq : r.stats.used = (r.listing.map LiveRecord.space).sum + lost
  used_le : r.stats.used ≤ r.stats.capacity
  queryBytes_eq :
    r.stats.queryBytes = (r.queries.entries.map fun q => 64 + 8 * q.2.rows.length).sum
  recordCount_eq : r.stats.recordCount = r.listing.length
  queryCount_eq : r.stats.queryCount = r.queries.entries.length

/-- **Nothing that an operation may subtract is more than what it is subtracted from**: the
size of a record that is deleted, that of a value that is overwritten, a charge that is given
back, the memory of a query that is freed, and that of all queries of a connection. -/
structure SubtractsExactly (r : Region) : Prop where
  delete_le : ∀ key rec, r.records.get? key = some rec → rec.size ≤ r.used
  overwrite_le : ∀ key rec (index : Nat) old, r.records.get? key = some rec →
    rec.fields[index]? = some old → old.storedSize ≤ r.used
  charge_le : ∀ bytes charged, r.charge bytes = (.ok (), charged) → bytes ≤ charged.used
  free_le : ∀ key cursor, r.queries.get? key = some cursor → cursor.footprint ≤ r.queryBytes
  detach_le : ∀ connection, ((r.queries.drain fun cursor =>
    cursor.connection = connection).1.map Cursor.footprint).sum ≤ r.queryBytes

namespace Accounted

theorem countsExactly (ha : Accounted lost r) : CountsExactly lost r where
  used_eq := ha.used_eq
  used_le := ha.used_le
  queryBytes_eq := ha.queryBytes_eq
  recordCount_eq := ha.coherent.count_eq_length
  queryCount_eq := ha.coherent.queries.count_eq

theorem subtractsExactly (ha : Accounted lost r) : r.SubtractsExactly where
  delete_le _ _ h := ha.size_le_used h
  overwrite_le _ _ _ _ h hold := ha.storedSize_le_used h hold
  charge_le bytes charged h := by
    unfold charge at h
    split at h
    · cases h
    · cases h
      exact Nat.le_add_left _ _
  free_le _ _ h := ha.footprint_le h
  detach_le connection := by
    have hweight := SlotTable.weight_drain querySpace ha.coherent.queries.toWellFormed
      fun cursor => cursor.connection = connection
    rw [ha.sum_drained, ha.queryBytes_eq, ← hweight]
    exact Nat.le_add_right _ _

end Accounted

end Region

end RecordStore
