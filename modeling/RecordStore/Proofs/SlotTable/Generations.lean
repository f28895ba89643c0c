import Mathlib.Algebra.Order.Ring.Nat
import RecordStore.Proofs.SlotTable.Lookup
/-!
# Slot tables — generations over a run

A run is a list of changes of a table (`after`). Each time a slot is emptied
its generation goes up by one, in 32 bits (`slot?_after`), so a key that was
given out is current again exactly when its slot is occupied and has been
emptied a multiple of 2^32 times since (`get?_after_isSome_iff`). Short of
the first of these multiples a key whose value is gone stays without one.
-/

namespace RecordStore

namespace SlotTable

variable {α : Type} {t t' : SlotTable α} {key : SlotKey} {a b : α} {n : UInt32} {s : Slot α}

/-- A change of a table. -/
inductive Change (α : Type) where
  | insert (a : α)
  | replace (key : SlotKey) (a : α)
  | remove (key : SlotKey)
  | drain (p : α → Bool)

/-- The table after a change, which does nothing where it cannot be made. -/
def change (t : SlotTable α) : Change α → SlotTable α
  | .insert a => ((t.insert? a).map Prod.snd).getD t
  | .replace key a => t.replace key a
  | .remove key => ((t.remove? key).map Prod.snd).getD t
  | .drain p => (t.drain p).2

/-- The table after a run. -/
def after (t : SlotTable α) (run : List (Change α)) : SlotTable α := run.foldl change t

theorem after_cons (t : SlotTable α) (c : Change α) (run : List (Change α)) :
    t.after (c :: run) = (t.change c).after run := rfl

theorem after_append (t : SlotTable α) (run later : List (Change α)) :
    t.after (run ++ later) = (t.after run).after later :=
  List.foldl_append

/-- A value that can be stored is. -/
theorem after_insert (h : t.insert? a = some (key, t')) : t.after [.insert a] = t' := by
  simp only [after, List.foldl_cons, List.foldl_nil, change, h, Option.map_some, Option.getD_some]

/-- A value that can be removed is. -/
theorem after_remove (h : t.remove? key = some (a, t')) : t.after [.remove key] = t' := by
  simp only [after, List.foldl_cons, List.foldl_nil, change, h, Option.map_some, Option.getD_some]

theorem WellFormed.change (hw : t.WellFormed) (c : Change α) : (t.change c).WellFormed := by
  cases c with
  | insert a =>
    simp only [SlotTable.change]
    cases h : t.insert? a with
    | none => exact hw
    | some found => exact hw.insert h
  | replace key a => exact hw.replace key a
  | remove key =>
    simp only [SlotTable.change]
    cases h : t.remove? key with
    | none => exact hw
    | some found => exact hw.remove h
  | drain p => exact hw.drain p

theorem WellFormed.after (hw : t.WellFormed) (run : List (Change α)) :
    (t.after run).WellFormed := by
  induction run generalizing t with
  | nil => exact hw
  | cons c run ih => exact ih (hw.change c)

/-! ## How often a slot is emptied -/

/-- Whether a slot is occupied. -/
def isOccupied (t : SlotTable α) (n : UInt32) : Bool := (t.slot? n).any fun s => s.value.isSome

/-- Whether a change empties a slot. -/
def empties (t : SlotTable α) (n : UInt32) (c : Change α) : Bool :=
  t.isOccupied n && !(t.change c).isOccupied n

/-- How often a slot is emptied in a run. -/
def emptied (t : SlotTable α) (n : UInt32) : List (Change α) → Nat
  | [] => 0
  | c :: run => (t.empties n c).toNat + (t.change c).emptied n run

theorem emptied_append (t : SlotTable α) (n : UInt32) (run later : List (Change α)) :
    t.emptied n (run ++ later) = t.emptied n run + (t.after run).emptied n later := by
  induction run generalizing t with
  | nil => simp [emptied, after]
  | cons c run ih => simp only [List.cons_append, emptied, ih, after_cons, Nat.add_assoc]

/-- A change empties a slot at most once. -/
theorem emptied_le_length (t : SlotTable α) (n : UInt32) (run : List (Change α)) :
    t.emptied n run ≤ run.length := by
  induction run generalizing t with
  | nil => exact Nat.le_refl 0
  | cons c run ih =>
    have hrest := ih (t.change c)
    have hone := Bool.toNat_le (t.empties n c)
    simp only [emptied, List.length_cons]
    omega

theorem isOccupied_eq (h : t.slot? n = some s) : t.isOccupied n = s.value.isSome := by
  rw [isOccupied, h, Option.any_some]

/-- A current key occupies its slot. -/
theorem isOccupied_of_get? (h : t.get? key = some a) : t.isOccupied key.slot = true :=
  isOccupied_eq (get?_eq_some_iff.1 h)

/-- **What a change makes of a slot**: it stays as it is, or holds a value under its generation,
or it held one and is empty under the next generation. -/
theorem slot?_change_cases (hw : t.WellFormed) (c : Change α) (h : t.slot? n = some s) :
    (t.change c).slot? n = some s ∨ (∃ a, (t.change c).slot? n = some ⟨s.generation, some a⟩) ∨
      (s.value.isSome = true ∧ (t.change c).slot? n = some s.emptied) := by
  cases c with
  | insert a =>
    simp only [change]
    cases hins : t.insert? a with
    | none => exact .inl h
    | some found =>
      have hafter := slot?_insert hw hins n
      by_cases hn : n = found.1.slot
      · have hgeneration := (slot_of_insert hw hins s (hn ▸ h)).2
        rw [if_pos hn, ← hgeneration] at hafter
        exact .inr (.inl ⟨a, hafter⟩)
      · rw [if_neg hn, h] at hafter
        exact .inl hafter
  | replace key a =>
    simp only [change, replace]
    split
    · rename_i hcurrent
      obtain ⟨b, hb⟩ := Option.isSome_iff_exists.1 hcurrent
      have hkey := get?_eq_some_iff.1 hb
      rw [slot?_putSlot (by simp [hkey])]
      split
      · rename_i hn
        rw [hn, hkey, Option.some.injEq] at h
        exact .inr (.inl ⟨a, by rw [← h]⟩)
      · exact .inl h
    · exact .inl h
  | remove key =>
    simp only [change]
    cases hrem : t.remove? key with
    | none => exact .inl h
    | some found =>
      obtain ⟨hb, hafter⟩ := remove?_eq_some_iff.1 hrem
      have hkey := get?_eq_some_iff.1 hb
      simp only [Option.map_some, Option.getD_some, hafter]
      rw [slot?_putSlot (by simp [hkey])]
      split
      · rename_i hn
        rw [hn, hkey, Option.some.injEq] at h
        subst h
        exact .inr (.inr ⟨rfl, rfl⟩)
      · exact .inl h
  | drain p =>
    simp only [change]
    rw [slot?_drain, h, Option.map_some]
    by_cases hp : s.holds p = true
    · obtain ⟨hb, -⟩ := (Option.any_eq_true_iff_get p s.value).1 hp
      exact .inr (.inr ⟨hb, by rw [if_pos hp]⟩)
    · exact .inl (by rw [if_neg hp])

/-- **A slot after a change** is under the next generation if the change emptied it, and else
under the same. -/
theorem slot?_change (hw : t.WellFormed) (c : Change α) (h : t.slot? n = some s) :
    ∃ s', (t.change c).slot? n = some s' ∧
      s'.generation = s.generation + UInt32.ofNat (t.empties n c).toNat := by
  rcases slot?_change_cases hw c h with hafter | ⟨a, hafter⟩ | ⟨hheld, hafter⟩
  · have hnot : t.empties n c = false := by
      rw [empties, isOccupied_eq h, isOccupied_eq hafter, Bool.and_not_self]
    exact ⟨s, hafter, by simp [hnot]⟩
  · have hnot : t.empties n c = false := by
      rw [empties, isOccupied_eq hafter, Option.isSome_some, Bool.not_true, Bool.and_false]
    exact ⟨_, hafter, by simp [hnot]⟩
  · have hyes : t.empties n c = true := by
      rw [empties, isOccupied_eq h, isOccupied_eq hafter, hheld]
      rfl
    exact ⟨_, hafter, by simp [hyes, Slot.emptied]⟩

/-- **A slot after a run** is as many generations further as it was emptied. -/
theorem slot?_after (hw : t.WellFormed) (run : List (Change α)) (h : t.slot? n = some s) :
    ∃ s', (t.after run).slot? n = some s' ∧
      s'.generation = s.generation + UInt32.ofNat (t.emptied n run) := by
  induction run generalizing t s with
  | nil => exact ⟨s, h, by simp [emptied]⟩
  | cons c run ih =>
    obtain ⟨s₁, hs₁, hfirst⟩ := slot?_change hw c h
    obtain ⟨s₂, hs₂, hrest⟩ := ih (hw.change c) hs₁
    refine ⟨s₂, hs₂, ?_⟩
    rw [hrest, hfirst, emptied, UInt32.ofNat_add, UInt32.add_assoc]

/-! ## Keys that were given out -/

/-- Adding to a number of 32 bits leads back to it after full turns only. -/
theorem add_ofNat_eq_self_iff (g : UInt32) (k : Nat) :
    g + UInt32.ofNat k = g ↔ 2 ^ 32 ∣ k := by
  have hg := g.toNat_lt
  rw [← UInt32.toNat_inj, UInt32.toNat_add, UInt32.toNat_ofNat']
  omega

/-- **A key that was current is current** exactly if its slot is occupied and was emptied a
multiple of 2^32 times. -/
theorem get?_after_isSome_iff (hw : t.WellFormed) (run : List (Change α))
    (h : t.get? key = some a) :
    ((t.after run).get? key).isSome = true ↔
      (t.after run).isOccupied key.slot = true ∧ 2 ^ 32 ∣ t.emptied key.slot run := by
  obtain ⟨s, hs, hgeneration⟩ := slot?_after hw run (get?_eq_some_iff.1 h)
  rw [isOccupied_eq hs, ← add_ofNat_eq_self_iff key.generation, ← hgeneration]
  unfold get?
  rw [hs, Option.bind_some]
  by_cases hg : s.generation = key.generation <;> simp [hg]

/-- A slot that was not emptied in a run still holds the value under the key. -/
theorem isOccupied_after (h : t.isOccupied n = true) (run : List (Change α))
    (hzero : t.emptied n run = 0) : (t.after run).isOccupied n = true := by
  induction run generalizing t with
  | nil => exact h
  | cons c run ih =>
    simp only [emptied, Nat.add_eq_zero_iff, Bool.toNat_eq_zero, empties, h, Bool.true_and,
      Bool.not_eq_false'] at hzero
    exact ih hzero.1 hzero.2

/-- A key whose value is gone has had its slot emptied. -/
theorem emptied_pos (hw : t.WellFormed) (h : t.get? key = some a) (run : List (Change α))
    (hgone : (t.after run).get? key = none) : 0 < t.emptied key.slot run := by
  rcases Nat.eq_zero_or_pos (t.emptied key.slot run) with hzero | hpos
  · have hoccupied := isOccupied_after (isOccupied_of_get? h) run hzero
    have hcurrent := (get?_after_isSome_iff hw run h).2 ⟨hoccupied, hzero ▸ Nat.dvd_zero _⟩
    rw [hgone] at hcurrent
    cases hcurrent
  · exact hpos

/-- **A stale key finds nothing** until its slot has been emptied 2^32 times. -/
theorem get?_stale (hw : t.WellFormed) (h : t.get? key = some a) (run later : List (Change α))
    (hgone : (t.after run).get? key = none)
    (hfew : t.emptied key.slot (run ++ later) < 2 ^ 32) :
    (t.after (run ++ later)).get? key = none := by
  have hpos := emptied_pos hw h run hgone
  have happend := t.emptied_append key.slot run later
  cases hget : (t.after (run ++ later)).get? key with
  | none => rfl
  | some b =>
    have hcurrent := (get?_after_isSome_iff hw (run ++ later) h).1 (by simp [hget])
    have hle := Nat.le_of_dvd (by omega) hcurrent.2
    omega

/-- What finds nothing cannot be removed or replaced either. -/
theorem inert_of_get? (h : t.get? key = none) :
    t.contains key = false ∧ t.remove? key = none ∧ ∀ b, t.replace key b = t := by
  have hcontains : t.contains key = false := by rw [contains, h, Option.isSome_none]
  refine ⟨hcontains, remove?_eq_none_iff.2 h, fun b => ?_⟩
  rw [replace, if_neg (by simp [hcontains])]

end SlotTable

end RecordStore
