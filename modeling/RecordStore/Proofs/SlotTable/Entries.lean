import RecordStore.Proofs.SlotTable.Lookup
import Mathlib.Data.List.Perm.Lattice
/-!
# Slot tables — the live values with their keys

`entries` lists what a table holds, slot by slot. Its members are the
bindings that `get?` finds (`mem_entries`) and no two of them share a slot,
so the equations of the lookups say what an operation does to the list up
to order. `Sound` adds to `WellFormed` that the count is the length of this
list, which every operation keeps.
-/

namespace RecordStore

namespace SlotTable

variable {α : Type} {t t' : SlotTable α} {key other : SlotKey} {a b : α}

/-- The live values with their keys, in the order of the slots. -/
def entries (t : SlotTable α) : List (SlotKey × α) :=
  t.slots.toList.zipIdx.filterMap fun s =>
    s.1.value.map fun a => (⟨s.2.toUInt32, s.1.generation⟩, a)

/-- The live values under other keys than the given one. -/
def others (t : SlotTable α) (key : SlotKey) : List (SlotKey × α) :=
  t.entries.filter fun e => e.1 ≠ key

/-- A table whose free list and count tell the truth. -/
structure Sound (t : SlotTable α) : Prop extends t.WellFormed where
  count_eq : t.count = t.entries.length

theorem sound_empty : (empty : SlotTable α).Sound where
  toWellFormed := wellFormed_empty
  count_eq := rfl

/-- **The entries are the bindings that lookups find.** -/
theorem mem_entries (hsize : t.slots.size ≤ maxSlots) :
    (key, a) ∈ t.entries ↔ t.get? key = some a := by
  obtain ⟨slot, generation⟩ := key
  simp only [entries, List.mem_filterMap, Prod.exists, get?_eq_some_iff, slot?,
    List.mk_mem_zipIdx_iff_getElem?, Array.getElem?_toList, Option.map_eq_some_iff, Prod.mk.injEq,
    SlotKey.mk.injEq]
  constructor
  · rintro ⟨⟨current, value⟩, i, hi, v, rfl, ⟨rfl, rfl⟩, rfl⟩
    have hlt := (Array.getElem?_eq_some_iff.1 hi).1
    rw [toNat_toUInt32 (Nat.lt_of_lt_of_le hlt hsize)]
    exact hi
  · intro h
    exact ⟨⟨generation, some a⟩, slot.toNat, h, a, rfl, ⟨by simp, rfl⟩, rfl⟩

/-- **Entries come in the order of their slots.** -/
theorem entries_ascending (hsize : t.slots.size ≤ maxSlots) :
    t.entries.Pairwise fun e e' => e.1.slot < e'.1.slot := by
  -- The numbers of the slots come from their indices, which rise and are within the bound.
  have hidx : t.slots.toList.zipIdx.Pairwise fun s s' => s.2 < s'.2 := by
    apply List.pairwise_map.1
    rw [List.zipIdx_map_snd]
    exact List.pairwise_lt_range'
  refine List.Pairwise.filterMap _ ?_ (hidx.imp_of_mem (S := fun s s' =>
    s.2 < s'.2 ∧ s.2 < maxSlots ∧ s'.2 < maxSlots) fun hs hs' hlt => ?_)
  · rintro ⟨s, i⟩ ⟨s', j⟩ ⟨hlt, hi, hj⟩ e he e' he'
    obtain ⟨v, -, rfl⟩ := Option.map_eq_some_iff.1 he
    obtain ⟨v', -, rfl⟩ := Option.map_eq_some_iff.1 he'
    rw [UInt32.lt_iff_toNat_lt, toNat_toUInt32 hi, toNat_toUInt32 hj]
    exact hlt
  · have hi := List.snd_lt_of_mem_zipIdx hs
    have hj := List.snd_lt_of_mem_zipIdx hs'
    simp only [Array.length_toList] at hi hj
    exact ⟨hlt, by omega, by omega⟩

/-- So no two entries share a slot. -/
theorem entries_pairwise (hsize : t.slots.size ≤ maxSlots) :
    t.entries.Pairwise fun e e' => e.1.slot ≠ e'.1.slot :=
  (entries_ascending hsize).imp UInt32.ne_of_lt

/-- And no entry occurs twice, nor does a key. -/
theorem keys_nodup (hsize : t.slots.size ≤ maxSlots) : (t.entries.map Prod.fst).Nodup :=
  List.pairwise_map.2 ((entries_pairwise hsize).imp fun hne heq => hne (by rw [heq]))

theorem entries_nodup (hsize : t.slots.size ≤ maxSlots) : t.entries.Nodup :=
  List.Nodup.of_map _ (keys_nodup hsize)

theorem mem_others (hsize : t.slots.size ≤ maxSlots) {e : SlotKey × α} :
    e ∈ t.others key ↔ t.get? e.1 = some e.2 ∧ e.1 ≠ key := by
  obtain ⟨k, v⟩ := e
  simp [others, mem_entries hsize]

/-- A table holds the value under a current key, and the others. -/
theorem entries_perm (hsize : t.slots.size ≤ maxSlots) (h : t.get? key = some a) :
    t.entries.Perm ((key, a) :: t.others key) := by
  refine (List.perm_ext_iff_of_nodup (entries_nodup hsize) (List.nodup_cons.2 ⟨?_, ?_⟩)).2 ?_
  · simp [mem_others hsize]
  · exact (entries_nodup hsize).filter _
  · rintro ⟨k, v⟩
    rw [mem_entries hsize, List.mem_cons, mem_others hsize]
    by_cases hk : k = key
    · subst hk
      simp only [h, Option.some.injEq, Prod.mk.injEq, true_and, ne_eq, not_true_eq_false,
        and_false, or_false]
      exact eq_comm
    · simp [hk]

/-- A table is described up to order by what its keys find. -/
theorem entries_perm_of_get? (hsize : t.slots.size ≤ maxSlots) {l : List (SlotKey × α)}
    (hl : l.Nodup) (h : ∀ k v, t.get? k = some v ↔ (k, v) ∈ l) : t.entries.Perm l :=
  (List.perm_ext_iff_of_nodup (entries_nodup hsize) hl).2 fun ⟨k, v⟩ => by
    rw [mem_entries hsize, h]

/-! ## What the operations do to the entries -/

/-- **An insertion adds its entry.** -/
theorem entries_insert (hw : t.WellFormed) (h : t.insert? a = some (key, t')) :
    t'.entries.Perm ((key, a) :: t.entries) := by
  have hfresh : t.get? key = none := get?_of_slot_insert hw h rfl
  refine entries_perm_of_get? (hw.insert h).size_le (List.nodup_cons.2 ⟨?_, ?_⟩) fun k v => ?_
  · rw [mem_entries hw.size_le, hfresh]
    simp
  · exact entries_nodup hw.size_le
  · rw [get?_insert hw h, List.mem_cons, mem_entries hw.size_le]
    by_cases hk : k = key
    · subst hk
      simp [hfresh, eq_comm]
    · simp [hk]

/-- **A replacement changes the value of its entry.** -/
theorem entries_replace (hw : t.WellFormed) (h : t.get? key = some a) (b : α) :
    (t.replace key b).entries.Perm ((key, b) :: t.others key) := by
  refine entries_perm_of_get? (hw.replace key b).size_le (List.nodup_cons.2 ⟨?_, ?_⟩)
    fun k v => ?_
  · simp [mem_others hw.size_le]
  · exact (entries_nodup hw.size_le).filter _
  · rw [get?_replace h, List.mem_cons, mem_others hw.size_le]
    by_cases hk : k = key
    · simp [hk, eq_comm]
    · simp [hk]

/-- **A removal takes its entry out.** -/
theorem entries_remove (hw : t.WellFormed) (h : t.remove? key = some (a, t')) :
    t'.entries.Perm (t.others key) := by
  refine entries_perm_of_get? (hw.remove h).size_le ((entries_nodup hw.size_le).filter _)
    fun k v => ?_
  rw [get?_remove h, mem_others hw.size_le]
  by_cases hk : k = key <;> simp [hk]

/-- **A drain keeps the entries that do not satisfy the predicate.** -/
theorem entries_drain (hw : t.WellFormed) (p : α → Bool) :
    (t.drain p).2.entries.Perm (t.entries.filter fun e => !p e.2) := by
  refine entries_perm_of_get? (hw.drain p).size_le ((entries_nodup hw.size_le).filter _)
    fun k v => ?_
  rw [get?_drain, List.mem_filter, mem_entries hw.size_le, Option.filter_eq_some_iff]

/-- **And gives the others**, slot by slot. -/
theorem drain_fst (t : SlotTable α) (p : α → Bool) :
    (t.drain p).1 = (t.entries.filter fun e => p e.2).map Prod.snd := by
  simp only [drain, entries]
  -- The numbers of the slots do not matter here, only the order in which the slots come.
  generalize t.slots.toList = l
  generalize 0 = i
  induction l generalizing i with
  | nil => rfl
  | cons s rest ih =>
    obtain ⟨generation, value⟩ := s
    have ih := ih (i + 1)
    cases value with
    | none => simpa using ih
    | some v => by_cases hp : p v <;> simpa [Option.filter, hp] using ih

/-- As many slots become empty as values were taken out. -/
theorem length_slotsWhere (t : SlotTable α) (p : α → Bool) :
    (t.slotsWhere p).length = (t.entries.filter fun e => p e.2).length := by
  simp only [slotsWhere, entries, List.length_map]
  generalize t.slots.toList.zipIdx = l
  induction l with
  | nil => rfl
  | cons s rest ih =>
    obtain ⟨⟨generation, value⟩, i⟩ := s
    cases value with
    | none => simpa [Slot.holds] using ih
    | some v => by_cases hp : p v <;> simpa [Slot.holds, hp] using ih

/-! ## The count -/

theorem Sound.insert (hs : t.Sound) (h : t.insert? a = some (key, t')) : t'.Sound where
  toWellFormed := hs.toWellFormed.insert h
  count_eq := by
    rw [count_insert h, hs.count_eq, (entries_insert hs.toWellFormed h).length_eq, List.length_cons]

theorem Sound.replace (hs : t.Sound) (key : SlotKey) (b : α) : (t.replace key b).Sound where
  toWellFormed := hs.toWellFormed.replace key b
  count_eq := by
    rw [count_replace, hs.count_eq]
    cases h : t.get? key with
    | none => rw [SlotTable.replace, if_neg (by simp [contains, h])]
    | some a =>
      rw [(entries_replace hs.toWellFormed h b).length_eq, (entries_perm hs.size_le h).length_eq,
        List.length_cons, List.length_cons]

theorem Sound.remove (hs : t.Sound) (h : t.remove? key = some (a, t')) : t'.Sound where
  toWellFormed := hs.toWellFormed.remove h
  count_eq := by
    obtain ⟨hget, rfl⟩ := remove?_eq_some_iff.1 h
    have hlen := (entries_perm hs.size_le hget).length_eq
    rw [List.length_cons] at hlen
    rw [(entries_remove hs.toWellFormed h).length_eq]
    simp only [hs.count_eq, hlen, Nat.add_sub_cancel]

theorem Sound.drain (hs : t.Sound) (p : α → Bool) : (t.drain p).2.Sound where
  toWellFormed := hs.toWellFormed.drain p
  count_eq := by
    have hcount : (t.drain p).2.count = t.count - (t.slotsWhere p).length := rfl
    have hsplit := List.length_eq_length_filter_add (l := t.entries) fun e => p e.2
    rw [hcount, hs.count_eq, length_slotsWhere, (entries_drain hs.toWellFormed p).length_eq]
    omega

/-- Each slot is in use or in the free list. -/
theorem count_eq_size_iff (hs : t.Sound) : t.count = t.slots.size ↔ t.free = [] := by
  have hlen : t.slots.size = t.slots.toList.zipIdx.length := by simp
  -- Every slot gives an entry exactly if every slot holds a value.
  rw [hs.count_eq, entries, hlen, List.filterMap_length_eq_length, List.eq_nil_iff_forall_not_mem]
  constructor
  · intro hall n hn
    obtain ⟨s, hslot, hv⟩ := (hs.mem_free n).1 hn
    have hmem : (s, n.toNat) ∈ t.slots.toList.zipIdx := by
      rw [List.mk_mem_zipIdx_iff_getElem?, Array.getElem?_toList]
      exact hslot
    simpa [hv] using hall _ hmem
  · rintro hfree ⟨s, i⟩ hmem
    rw [List.mk_mem_zipIdx_iff_getElem?, Array.getElem?_toList] at hmem
    cases hv : s.value with
    | some v => simp
    | none =>
      have hlt := (Array.getElem?_eq_some_iff.1 hmem).1
      refine absurd ((hs.mem_free i.toUInt32).2 ⟨s, ?_, hv⟩) (hfree _)
      rw [slot?, toNat_toUInt32 (Nat.lt_of_lt_of_le hlt hs.size_le), hmem]

theorem count_le_size (hs : t.Sound) : t.count ≤ t.slots.size := by
  rw [hs.count_eq]
  refine Nat.le_trans (List.length_filterMap_le _ _) ?_
  simp

/-- **A table refuses a value exactly if all slot numbers are in use.** -/
theorem insert?_eq_none_iff (hs : t.Sound) : t.insert? a = none ↔ t.count = maxSlots := by
  have hle := count_le_size hs
  have hsize := hs.size_le
  have hiff := count_eq_size_iff hs
  unfold insert?
  cases hfree : t.free with
  | nil =>
    have hfull := hiff.2 hfree
    simp only [ite_eq_right_iff, reduceCtorEq, imp_false, Nat.not_lt]
    omega
  | cons n rest =>
    have hne : t.count ≠ t.slots.size := by simp [hiff, hfree]
    simp only [reduceCtorEq, false_iff]
    omega

end SlotTable

end RecordStore
