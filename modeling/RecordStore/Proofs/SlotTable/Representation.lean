import RecordStore.Proofs.SlotTable.Entries
import RecordStore.Proofs.SlotTable.Generations
/-!
# Slot tables — what every table of a run keeps

A table that begins empty is sound after any run of changes
(`Sound.after`): its free list holds the empty slots, each once, and its
count is the number of the others. From this each operation is exact. An
insertion takes a slot that holds nothing, a removal takes out one value,
and a drain takes out what satisfies the predicate, slot by slot; no other
key finds anything else than before (`tables_store_exactly`).
-/

namespace RecordStore

namespace SlotTable

variable {α : Type} {t : SlotTable α}

/-! ## Runs -/

theorem Sound.change (hs : t.Sound) (c : Change α) : (t.change c).Sound := by
  cases c with
  | insert a =>
    simp only [SlotTable.change]
    cases h : t.insert? a with
    | none => exact hs
    | some found => exact hs.insert h
  | replace key a => exact hs.replace key a
  | remove key =>
    simp only [SlotTable.change]
    cases h : t.remove? key with
    | none => exact hs
    | some found => exact hs.remove h
  | drain p => exact hs.drain p

/-- **A run keeps a table sound.** -/
theorem Sound.after (hs : t.Sound) (run : List (Change α)) : (t.after run).Sound := by
  induction run generalizing t with
  | nil => exact hs
  | cons c run ih => exact ih (hs.change c)

/-! ## The slots that are in use -/

/-- An entry for each slot that holds a value. -/
theorem length_entries (t : SlotTable α) :
    t.entries.length = t.slots.countP fun s => s.value.isSome := by
  simp only [entries, ← Array.countP_toList]
  generalize t.slots.toList = l
  generalize 0 = i
  induction l generalizing i with
  | nil => rfl
  | cons s rest ih =>
    obtain ⟨generation, value⟩ := s
    have ih := ih (i + 1)
    cases value with
    | none => simpa using ih
    | some v => simpa using ih

/-! ## What the operations do -/

/-- **An insertion is exact**: it is refused where all slots that there can be are in use, and
else takes a slot in which no key found anything; the new key finds the new value, and every other
key what it found before. -/
def InsertsExactly (t : SlotTable α) : Prop :=
  ∀ a, (t.insert? a = none ↔ t.slots.size = maxSlots ∧ t.free = []) ∧
    ∀ key t', t.insert? a = some (key, t') →
      (∀ other : SlotKey, other.slot = key.slot → t.get? other = none) ∧
      ∀ other, t'.get? other = if other = key then some a else t.get? other

/-- **A removal is exact**: it takes out the value that its key finds, and every other key finds
what it found before. -/
def RemovesExactly (t : SlotTable α) : Prop :=
  ∀ key, (t.remove? key = none ↔ t.get? key = none) ∧
    ∀ a t', t.remove? key = some (a, t') →
      t.get? key = some a ∧ ∀ other, t'.get? other = if other = key then none else t.get? other

/-- **A drain is exact**: it takes out the values that satisfy the predicate, in the order of their
slots, and leaves these slots empty under their next generations; every other key finds what it
found before. -/
def DrainsExactly (t : SlotTable α) : Prop :=
  ∀ p, ∃ taken : List (SlotKey × α), (t.drain p).1 = taken.map Prod.snd ∧
    (taken.Pairwise fun e e' => e.1.slot < e'.1.slot) ∧
    (∀ key a, (key, a) ∈ taken ↔ t.get? key = some a ∧ p a = true) ∧
    (∀ key, (∀ a, (key, a) ∉ taken) → (t.drain p).2.get? key = t.get? key) ∧
    ∀ key a, (key, a) ∈ taken →
      (t.drain p).2.slot? key.slot = some ⟨key.generation + 1, none⟩

theorem Sound.insertsExactly (hs : t.Sound) : t.InsertsExactly := by
  have hw := hs.toWellFormed
  intro a
  refine ⟨?_, fun key t' h => ⟨fun other => get?_of_slot_insert hw h, fun other =>
    get?_insert hw h⟩⟩
  rw [insert?_eq_none_iff hs]
  have hiff := count_eq_size_iff hs
  have hle := count_le_size hs
  have hsize := hs.size_le
  constructor
  · intro hfull
    exact ⟨by omega, hiff.1 (by omega)⟩
  · rintro ⟨hfull, hfree⟩
    rw [hiff.2 hfree, hfull]

theorem removesExactly (t : SlotTable α) : t.RemovesExactly := fun _ =>
  ⟨remove?_eq_none_iff, fun _ _ h => ⟨(remove?_eq_some_iff.1 h).1, fun _ => get?_remove h⟩⟩

theorem Sound.drainsExactly (hs : t.Sound) : t.DrainsExactly := by
  intro p
  have hmem : ∀ key a, (key, a) ∈ t.entries.filter (fun e => p e.2) ↔
      t.get? key = some a ∧ p a = true := by
    intro key a
    rw [List.mem_filter, mem_entries hs.size_le]
  refine ⟨t.entries.filter fun e => p e.2, drain_fst t p, (entries_ascending hs.size_le).filter _,
    hmem, fun key hnot => ?_, fun key a htaken => ?_⟩
  · rw [get?_drain]
    cases hget : t.get? key with
    | none => rfl
    | some a =>
      have hp : p a = false := by simpa [hmem, hget] using hnot a
      simp [Option.filter, hp]
  · obtain ⟨hget, hp⟩ := (hmem key a).1 htaken
    rw [slot?_drain, get?_eq_some_iff.1 hget, Option.map_some, if_pos (by simp [Slot.holds, hp])]
    rfl

/-- **Every table of a run stores values exactly.** A table that begins empty goes through any run
of insertions, replacements, removals and drains. After it the free list holds the empty slots,
each of them once, and the count is the number of slots that hold a value. So an insertion never
takes a slot that holds one, and is refused only where there are no more slots to be had; a removal
takes out the value under its key, and a drain the values that satisfy its predicate. What any
other key finds is what it found before. -/
theorem tables_store_exactly (run : List (Change α)) :
    let t := (empty : SlotTable α).after run
    t.slots.size ≤ maxSlots ∧ t.free.Nodup ∧
      (∀ n, n ∈ t.free ↔ ∃ s, t.slot? n = some s ∧ s.value = none) ∧
      t.count = t.slots.countP (fun s => s.value.isSome) ∧
      t.InsertsExactly ∧ t.RemovesExactly ∧ t.DrainsExactly := by
  intro t
  have hs : t.Sound := sound_empty.after run
  exact ⟨hs.size_le, hs.free_nodup, hs.mem_free, hs.count_eq.trans t.length_entries,
    hs.insertsExactly, t.removesExactly, hs.drainsExactly⟩

/-- A value that comes into a slot that was emptied is not found under the slot's first key, and
its neighbour is. -/
theorem tables_store_exactly_reused :
    let t : SlotTable Nat := empty.after [.insert 10, .insert 21, .insert 30, .remove ⟨1, 0⟩]
    t.free = [1] ∧ ∃ t', t.insert? 40 = some (⟨1, 1⟩, t') ∧ t'.get? ⟨1, 1⟩ = some 40 ∧
      t'.get? ⟨1, 0⟩ = none ∧ t'.get? ⟨2, 0⟩ = some 30 := by
  intro t
  obtain ⟨-, -, -, -, hinserts, -, -⟩ :=
    @tables_store_exactly Nat [.insert 10, .insert 21, .insert 30, .remove ⟨1, 0⟩]
  have hinsert : t.insert? 40 = some (⟨1, 1⟩, _) := rfl
  obtain ⟨-, hget⟩ := (hinserts 40).2 _ _ hinsert
  exact ⟨rfl, _, hinsert, hget ⟨1, 1⟩, (hget ⟨1, 0⟩).trans rfl, (hget ⟨2, 0⟩).trans rfl⟩

end SlotTable

end RecordStore
