import RecordStore.SlotTable
import Mathlib.Data.List.Nodup
/-!
# Slot tables — what is found after a change

`WellFormed` is what every table reached by insertions, replacements,
removals and drains satisfies: the free list holds the empty slots, each
once. For such a table each operation has one equation that says what any
key finds afterwards (`get?_insert`, `get?_replace`, `get?_remove`,
`get?_drain`), and later proofs read these equations and not the slots.
-/

namespace RecordStore

namespace SlotTable

variable {α : Type} {t t' : SlotTable α} {key other : SlotKey} {a b : α}

/-- The free list holds the empty slots, each once, and slot numbers have 32 bits. -/
structure WellFormed (t : SlotTable α) : Prop where
  free_nodup : t.free.Nodup
  mem_free : ∀ n, n ∈ t.free ↔ ∃ s, t.slot? n = some s ∧ s.value = none
  size_le : t.slots.size ≤ maxSlots

theorem wellFormed_empty : (empty : SlotTable α).WellFormed where
  free_nodup := List.nodup_nil
  mem_free n := by simp [empty, slot?]
  size_le := by simp [empty, maxSlots]

/-- Numbers below the bound are the numbers of their slots. -/
theorem toNat_toUInt32 {i : Nat} (h : i < maxSlots) : i.toUInt32.toNat = i := by
  simp only [maxSlots, UInt32.size] at h
  simp only [Nat.toUInt32, UInt32.toNat_ofNat']
  omega

/-! ## Single slots -/

/-- A key is current exactly if its slot holds a value under its generation. -/
theorem get?_eq_some_iff :
    t.get? key = some a ↔ t.slot? key.slot = some ⟨key.generation, some a⟩ := by
  unfold get?
  cases h : t.slot? key.slot with
  | none => simp
  | some s =>
    obtain ⟨generation, value⟩ := s
    simp only [Option.bind_some, Option.some.injEq, Slot.mk.injEq]
    split <;> simp_all

/-- The key in a slot is the current key with that slot. -/
theorem keyAt?_eq_some_iff {n : UInt32} :
    t.keyAt? n = some key ↔ key.slot = n ∧ ∃ a, t.get? key = some a := by
  simp only [get?_eq_some_iff, keyAt?]
  obtain ⟨slot, generation⟩ := key
  cases h : t.slot? n with
  | none =>
    simp only [Option.bind_none, reduceCtorEq, false_iff, not_and, not_exists]
    rintro rfl a
    simp [h]
  | some s =>
    obtain ⟨current, value⟩ := s
    cases value with
    | none =>
      simp only [Option.bind_some, Option.map_none, reduceCtorEq, false_iff, not_and, not_exists]
      rintro rfl a
      simp [h]
    | some v =>
      simp only [Option.bind_some, Option.map_some, Option.some.injEq, SlotKey.mk.injEq]
      constructor
      · rintro ⟨rfl, rfl⟩
        exact ⟨rfl, v, h⟩
      · rintro ⟨rfl, a, ha⟩
        rw [h] at ha
        simp_all

/-- One slot holds at most one current key. -/
theorem key_eq_of_slot_eq (h : t.get? key = some a) (h' : t.get? other = some b)
    (hslot : key.slot = other.slot) : key = other := by
  rw [get?_eq_some_iff] at h h'
  rw [hslot, h'] at h
  obtain ⟨slot, generation⟩ := key
  obtain ⟨slot', generation'⟩ := other
  simp_all

/-- Two keys of one slot differ in their generation. -/
theorem generation_ne (hslot : other.slot = key.slot) (hkey : other ≠ key) :
    key.generation ≠ other.generation := by
  intro hgen
  apply hkey
  obtain ⟨slot, generation⟩ := other
  obtain ⟨slot', generation'⟩ := key
  simp_all

/-- A second key of an occupied slot finds nothing. -/
theorem get?_eq_none_of_slot_eq (h : t.get? key = some a) (hslot : other.slot = key.slot)
    (hkey : other ≠ key) : t.get? other = none := by
  cases hg : t.get? other with
  | none => rfl
  | some b => exact absurd (key_eq_of_slot_eq hg h hslot) hkey

/-- A slot put into the table is found under its number, and no other slot changes. -/
theorem slot?_putSlot {n m : UInt32} {s : Slot α} {free : List UInt32} {count : Nat}
    (hn : t.slot? n ≠ none) :
    slot? { slots := t.putSlot n s, free, count } m = if m = n then some s else t.slot? m := by
  have hlt : n.toNat < t.slots.size := by
    by_contra hge
    exact hn (Array.getElem?_eq_none (Nat.le_of_not_lt hge))
  simp only [slot?, putSlot, Array.getElem?_setIfInBounds]
  by_cases hm : m = n
  · subst hm
    simp [hlt]
  · have hne : n.toNat ≠ m.toNat := fun h => hm (UInt32.toNat_inj.1 h).symm
    simp [hm, hne]

/-- What a key finds after a slot was put into the table. -/
theorem get?_putSlot {n generation : UInt32} {value : Option α} {free : List UInt32}
    {count : Nat} (hn : t.slot? n ≠ none) :
    get? { slots := t.putSlot n ⟨generation, value⟩, free, count } key =
      if key.slot = n then (if generation = key.generation then value else none)
      else t.get? key := by
  unfold get?
  rw [slot?_putSlot hn]
  by_cases h : key.slot = n <;> simp [h]

/-! ## Insertion -/

/-- **What an insertion comes to**: the value went into an empty slot under its current
generation, or into a new slot under the first one. -/
theorem insert?_cases (h : t.insert? a = some (key, t')) :
    (∃ free, t.free = key.slot :: free ∧
      t' = { slots := t.putSlot key.slot ⟨key.generation, some a⟩, free, count := t.count + 1 } ∧
      key.generation = ((t.slot? key.slot).map Slot.generation).getD 0) ∨
    (t.free = [] ∧ t.slots.size < maxSlots ∧ key = ⟨t.slots.size.toUInt32, 0⟩ ∧
      t' = { slots := t.slots.push ⟨0, some a⟩, free := [], count := t.count + 1 }) := by
  unfold insert? at h
  split at h
  · rename_i slot free hfree
    simp only [Option.some.injEq, Prod.mk.injEq] at h
    obtain ⟨rfl, rfl⟩ := h
    exact .inl ⟨free, hfree, rfl, rfl⟩
  · rename_i hfree
    split at h
    · rename_i hlt
      simp only [Option.some.injEq, Prod.mk.injEq] at h
      obtain ⟨rfl, rfl⟩ := h
      exact .inr ⟨hfree, hlt, rfl, rfl⟩
    · cases h

/-- The slot that an insertion uses was not occupied. -/
theorem slot_of_insert (hw : t.WellFormed) (h : t.insert? a = some (key, t')) :
    ∀ s, t.slot? key.slot = some s → s.value = none ∧ s.generation = key.generation := by
  intro s hs
  obtain ⟨free, hfree, -, hgen⟩ | ⟨-, hlt, rfl, -⟩ := insert?_cases h
  · obtain ⟨s', hs', hv⟩ := (hw.mem_free key.slot).1 (by simp [hfree])
    rw [hs] at hs'
    cases hs'
    exact ⟨hv, by simpa [hs] using hgen.symm⟩
  · -- A new slot has a number that no slot had.
    rw [slot?, toNat_toUInt32 hlt, Array.getElem?_eq_none (Nat.le_refl _)] at hs
    cases hs

/-- **An insertion never takes an occupied slot.** -/
theorem get?_of_slot_insert (hw : t.WellFormed) (h : t.insert? a = some (key, t'))
    (hslot : other.slot = key.slot) : t.get? other = none := by
  cases hg : t.get? other with
  | none => rfl
  | some b =>
    rw [get?_eq_some_iff, hslot] at hg
    exact absurd (slot_of_insert hw h _ hg).1 (by simp)

/-- What any number of a slot finds after an insertion. -/
theorem slot?_insert (hw : t.WellFormed) (h : t.insert? a = some (key, t')) (n : UInt32) :
    t'.slot? n = if n = key.slot then some ⟨key.generation, some a⟩ else t.slot? n := by
  obtain ⟨free, hfree, rfl, -⟩ | ⟨-, hlt, rfl, rfl⟩ := insert?_cases h
  · obtain ⟨s, hs, -⟩ := (hw.mem_free key.slot).1 (by simp [hfree])
    exact slot?_putSlot (by simp [hs])
  · have hiff : n = t.slots.size.toUInt32 ↔ n.toNat = t.slots.size := by
      rw [← UInt32.toNat_inj, toNat_toUInt32 hlt]
    simp only [slot?, Array.getElem?_push, hiff]

/-- **After an insertion** the new key finds the new value, and every other key what it found
before. -/
theorem get?_insert (hw : t.WellFormed) (h : t.insert? a = some (key, t')) :
    t'.get? other = if other = key then some a else t.get? other := by
  by_cases hslot : other.slot = key.slot
  · -- Of the keys of this slot only the new one is current now, and none was before.
    have hs : t'.slot? other.slot = some ⟨key.generation, some a⟩ := by
      rw [slot?_insert hw h, if_pos hslot]
    by_cases hkey : other = key
    · rw [if_pos hkey, get?_eq_some_iff, hs, hkey]
    · rw [if_neg hkey, get?_of_slot_insert hw h hslot, get?, hs]
      simp [generation_ne hslot hkey]
  · have hkey : other ≠ key := fun he => hslot (by rw [he])
    simp [get?, slot?_insert hw h, hslot, hkey]

theorem WellFormed.insert (hw : t.WellFormed) (h : t.insert? a = some (key, t')) :
    t'.WellFormed := by
  have hslots := slot?_insert hw h
  -- The empty slots are the ones from before, but for the one that was filled.
  have hvalue : ∀ n, (∃ s, t'.slot? n = some s ∧ s.value = none) ↔ n ∈ t.free ∧ n ≠ key.slot := by
    intro n
    rw [hslots n, hw.mem_free]
    by_cases hn : n = key.slot <;> simp [hn]
  obtain ⟨free, hfree, rfl, -⟩ | ⟨hfree, hlt, hkey, rfl⟩ := insert?_cases h
  · have hnd := hw.free_nodup
    rw [hfree] at hnd hvalue
    obtain ⟨hnot, hnd⟩ := List.nodup_cons.1 hnd
    refine ⟨hnd, fun n => ?_, by simpa [putSlot] using hw.size_le⟩
    rw [hvalue]
    constructor
    · intro hn
      exact ⟨List.mem_cons_of_mem _ hn, fun he => hnot (he ▸ hn)⟩
    · rintro ⟨hn, hne⟩
      exact (List.mem_cons.1 hn).resolve_left hne
  · refine ⟨List.nodup_nil, fun n => ?_, by simp only [Array.size_push]; omega⟩
    rw [hvalue, hfree]
    simp

theorem count_insert (h : t.insert? a = some (key, t')) : t'.count = t.count + 1 := by
  rcases insert?_cases h with ⟨free, -, rfl, -⟩ | ⟨-, -, -, rfl⟩
  · rfl
  · rfl

/-! ## Replacement and removal -/

/-- **After a replacement** under a current key that key finds the new value. -/
theorem get?_replace (h : t.get? key = some a) :
    (t.replace key b).get? other = if other = key then some b else t.get? other := by
  have hs := get?_eq_some_iff.1 h
  have hc : t.contains key = true := by simp [contains, h]
  rw [replace, if_pos hc, get?_putSlot (by simp [hs])]
  by_cases hslot : other.slot = key.slot
  · by_cases hkey : other = key
    · simp [hkey]
    · simp [hslot, hkey, generation_ne hslot hkey, get?_eq_none_of_slot_eq h hslot hkey]
  · have hkey : other ≠ key := fun he => hslot (by rw [he])
    simp [hslot, hkey]

/-- Putting back what is there changes nothing. -/
theorem replace_self (h : t.get? key = some a) : t.replace key a = t := by
  have hslot := get?_eq_some_iff.1 h
  have hcontains : t.contains key = true := by simp [contains, h]
  -- The slot that is written holds the same value under the same generation already.
  have hsame : t.putSlot key.slot ⟨key.generation, some a⟩ = t.slots := by
    apply Array.ext_getElem?
    intro i
    simp only [putSlot, Array.getElem?_setIfInBounds]
    split
    · rename_i hi
      subst hi
      simp only [slot?] at hslot
      rw [hslot, if_pos (Array.getElem?_eq_some_iff.1 hslot).1]
    · rfl
  rw [replace, if_pos hcontains, hsame]

/-- Of two values that are put under a key the second one counts. -/
theorem replace_replace (h : t.get? key = some a) (b b' : α) :
    (t.replace key b).replace key b' = t.replace key b' := by
  have hcontains : t.contains key = true := by simp [contains, h]
  have hagain : (t.replace key b).contains key = true := by simp [contains, get?_replace h]
  rw [replace, if_pos hagain, replace, if_pos hcontains, replace, if_pos hcontains]
  simp only [putSlot, Array.setIfInBounds_setIfInBounds]

theorem count_replace (t : SlotTable α) (key : SlotKey) (b : α) :
    (t.replace key b).count = t.count := by
  unfold replace
  split
  · rfl
  · rfl

theorem WellFormed.replace (hw : t.WellFormed) (key : SlotKey) (b : α) :
    (t.replace key b).WellFormed := by
  unfold SlotTable.replace
  split
  · rename_i hc
    obtain ⟨a, ha⟩ := Option.isSome_iff_exists.1 hc
    have hs := get?_eq_some_iff.1 ha
    refine ⟨hw.free_nodup, fun n => ?_, by simpa [putSlot] using hw.size_le⟩
    rw [slot?_putSlot (by simp [hs]), hw.mem_free]
    by_cases hn : n = key.slot <;> simp [hn, hs]
  · exact hw

/-- A removal finds the value, and leaves the slot empty under the next generation. -/
theorem remove?_eq_some_iff :
    t.remove? key = some (a, t') ↔ t.get? key = some a ∧
      t' = { slots := t.putSlot key.slot ⟨key.generation + 1, none⟩
             free := key.slot :: t.free
             count := t.count - 1 } := by
  simp only [remove?, Option.map_eq_some_iff, Prod.mk.injEq, Slot.emptied]
  constructor
  · rintro ⟨b, hb, rfl, rfl⟩
    exact ⟨hb, rfl⟩
  · rintro ⟨hb, rfl⟩
    exact ⟨a, hb, rfl, rfl⟩

theorem remove?_eq_none_iff : t.remove? key = none ↔ t.get? key = none := by
  simp [remove?]

/-- **After a removal** the key finds nothing, and every other key what it found before. -/
theorem get?_remove (h : t.remove? key = some (a, t')) :
    t'.get? other = if other = key then none else t.get? other := by
  obtain ⟨hget, rfl⟩ := remove?_eq_some_iff.1 h
  have hs := get?_eq_some_iff.1 hget
  rw [get?_putSlot (by simp [hs])]
  by_cases hslot : other.slot = key.slot
  · by_cases hkey : other = key
    · simp [hkey]
    · simp [hslot, get?_eq_none_of_slot_eq hget hslot hkey]
  · have hkey : other ≠ key := fun he => hslot (by rw [he])
    simp [hslot, hkey]

theorem WellFormed.remove (hw : t.WellFormed) (h : t.remove? key = some (a, t')) :
    t'.WellFormed := by
  obtain ⟨hget, rfl⟩ := remove?_eq_some_iff.1 h
  have hs := get?_eq_some_iff.1 hget
  -- The slot was occupied, so it becomes free once and not a second time.
  have hnot : key.slot ∉ t.free := by
    intro hmem
    obtain ⟨s, hs', hv⟩ := (hw.mem_free _).1 hmem
    rw [hs] at hs'
    cases hs'
    cases hv
  refine ⟨List.nodup_cons.2 ⟨hnot, hw.free_nodup⟩, fun n => ?_,
    by simpa [putSlot] using hw.size_le⟩
  rw [slot?_putSlot (by simp [hs]), List.mem_cons, hw.mem_free]
  by_cases hn : n = key.slot <;> simp [hn]

/-- **A value that came and goes** leaves the others as they were. -/
theorem remove?_inserted (hw : t.WellFormed) (h : t.insert? a = some (key, t')) (b : α) :
    ∃ removed, (t'.replace key b).remove? key = some (b, removed) ∧
      (∀ other, removed.get? other = t.get? other) ∧ removed.count = t.count := by
  have hnew : t'.get? key = some a := (get?_insert hw h).trans (if_pos rfl)
  have hremoved := remove?_eq_some_iff.2 ⟨(get?_replace (b := b) hnew).trans (if_pos rfl), rfl⟩
  refine ⟨_, hremoved, fun other => ?_, ?_⟩
  · rw [get?_remove hremoved, get?_replace hnew]
    split
    · rename_i heq
      rw [heq, get?_of_slot_insert hw h rfl]
    · rename_i hne
      rw [get?_insert hw h, if_neg hne]
  · change (t'.replace key b).count - 1 = t.count
    rw [count_replace, count_insert h, Nat.add_sub_cancel]

/-! ## Drains -/

/-- The slots that hold a value satisfying the predicate, by number. -/
theorem mem_slotsWhere (hsize : t.slots.size ≤ maxSlots) {p : α → Bool} {n : UInt32} :
    n ∈ t.slotsWhere p ↔ ∃ s, t.slot? n = some s ∧ s.holds p = true := by
  simp only [slotsWhere, List.mem_map, List.mem_filter, Prod.exists, slot?]
  constructor
  · rintro ⟨s, i, ⟨hmem, hp⟩, rfl⟩
    rw [List.mk_mem_zipIdx_iff_getElem?, Array.getElem?_toList] at hmem
    have hi := (Array.getElem?_eq_some_iff.1 hmem).1
    refine ⟨s, ?_, hp⟩
    rw [toNat_toUInt32 (Nat.lt_of_lt_of_le hi hsize)]
    exact hmem
  · rintro ⟨s, hs, hp⟩
    refine ⟨s, n.toNat, ⟨?_, hp⟩, by simp⟩
    rw [List.mk_mem_zipIdx_iff_getElem?, Array.getElem?_toList]
    exact hs

theorem slotsWhere_nodup (hsize : t.slots.size ≤ maxSlots) (p : α → Bool) :
    (t.slotsWhere p).Nodup := by
  have hidx : (t.slots.toList.zipIdx.map Prod.snd).Nodup := by
    rw [List.zipIdx_map_snd]
    exact List.nodup_range'
  have hsub : ((t.slots.toList.zipIdx.filter fun s => s.1.holds p).map Prod.snd).Nodup :=
    hidx.sublist (List.filter_sublist.map _)
  have hlt : ∀ i ∈ (t.slots.toList.zipIdx.filter fun s => s.1.holds p).map Prod.snd,
      i < maxSlots := by
    intro i hi
    obtain ⟨⟨s, j⟩, hmem, rfl⟩ := List.mem_map.1 hi
    have hj := List.snd_lt_of_mem_zipIdx (List.mem_of_mem_filter hmem)
    rw [Array.length_toList, Nat.add_zero] at hj
    exact Nat.lt_of_lt_of_le hj hsize
  have hmap : t.slotsWhere p =
      ((t.slots.toList.zipIdx.filter fun s => s.1.holds p).map Prod.snd).map Nat.toUInt32 := by
    simp [slotsWhere]
  -- Indices below the bound have different numbers.
  rw [hmap]
  refine hsub.map_on fun i hi j hj hij => ?_
  have hnumber : i.toUInt32.toNat = j.toUInt32.toNat := by rw [hij]
  rwa [toNat_toUInt32 (hlt i hi), toNat_toUInt32 (hlt j hj)] at hnumber

/-- A drain empties the slots that hold a satisfying value, under their next generations. -/
theorem slot?_drain (p : α → Bool) (n : UInt32) :
    (t.drain p).2.slot? n = (t.slot? n).map fun s => if s.holds p then s.emptied else s := by
  simp [drain, slot?]

/-- **After a drain** a key finds what it found before, unless that satisfies the predicate. -/
theorem get?_drain (p : α → Bool) :
    (t.drain p).2.get? key = (t.get? key).filter fun a => !p a := by
  unfold get?
  rw [slot?_drain]
  cases t.slot? key.slot with
  | none => rfl
  | some s =>
    obtain ⟨generation, value⟩ := s
    cases value with
    | none => simp [Slot.holds]
    | some a => by_cases hp : p a <;> by_cases hg : generation = key.generation <;>
        simp [Slot.holds, Slot.emptied, Option.filter, hp, hg]

theorem WellFormed.drain (hw : t.WellFormed) (p : α → Bool) : (t.drain p).2.WellFormed := by
  have hmem : ∀ n, n ∈ (t.slotsWhere p).reverse ++ t.free ↔
      ∃ s, (t.drain p).2.slot? n = some s ∧ s.value = none := by
    intro n
    rw [List.mem_append, List.mem_reverse, mem_slotsWhere hw.size_le, hw.mem_free, slot?_drain]
    cases t.slot? n with
    | none => simp
    | some s =>
      obtain ⟨generation, value⟩ := s
      cases value with
      | none => simp [Slot.holds]
      | some a => by_cases hp : p a <;> simp [Slot.holds, Slot.emptied, hp]
  refine ⟨?_, hmem, by simpa [SlotTable.drain] using hw.size_le⟩
  refine List.Nodup.append (List.nodup_reverse.2 (slotsWhere_nodup hw.size_le p)) hw.free_nodup ?_
  -- A slot that is emptied held a value, so it was not free before.
  intro n hn hfree
  obtain ⟨s, hs, hp⟩ := (mem_slotsWhere hw.size_le).1 (List.mem_reverse.1 hn)
  obtain ⟨s', hs', hv⟩ := (hw.mem_free n).1 hfree
  rw [hs] at hs'
  cases hs'
  simp [Slot.holds, hv] at hp

end SlotTable

end RecordStore
