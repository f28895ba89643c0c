import RecordStore.Proofs.Engine.Attachments
import RecordStore.Proofs.Engine.Tokens
import RecordStore.Proofs.Records.Changes
import RecordStore.Proofs.SlotTable.Generations
/-!
# Staleness — how long a key stays without a value

A call changes each of the two tables of a region at most once
(`Change.records_run`, `Change.queries_run`), so what holds of keys over
runs of a table holds of handles over runs of an engine. A key whose value
is gone finds nothing until its slot has been emptied 2^32 times since it
was given out (`stale_keys_find_nothing`). Then its generation has come
round, and it stands for whatever is stored there (`stale_key_comes_round`).
-/

namespace RecordStore

namespace Region

variable {r r' : Region} {most : Nat}

/-! ## What a call does to the tables -/

/-- **The records of a region change at most once in a call.** -/
theorem Change.records_run (h : Change most r r') :
    ∃ run, run.length ≤ 1 ∧ r'.records = r.records.after run := by
  cases h with
  | kept => exact ⟨[], Nat.zero_le 1, rfl⟩
  | attached => exact ⟨[], Nat.zero_le 1, rfl⟩
  | detached connection => exact ⟨[], Nat.zero_le 1, rfl⟩
  | created _ h =>
    obtain ⟨records, hins, -, -, rfl⟩ := create_eq_done h
    exact ⟨[.insert _], Nat.le_refl 1, (SlotTable.after_insert hins).symm⟩
  | brokenOff _ h =>
    obtain ⟨used, rfl⟩ := used_of_panicked h
    exact ⟨[], Nat.zero_le 1, rfl⟩
  | deleted h =>
    obtain ⟨rec, records, hrem, rfl⟩ := delete_eq_ok h
    exact ⟨[.remove _], Nat.le_refl 1, (SlotTable.after_remove hrem).symm⟩
  | written h =>
    obtain ⟨rec, old, -, -, -, rfl⟩ := set_eq_ok h
    exact ⟨[.replace _ _], Nat.le_refl 1, rfl⟩
  | built h =>
    obtain ⟨plan, queries, -, -, rfl⟩ := buildQuery_eq_ok h
    exact ⟨[], Nat.zero_le 1, rfl⟩
  | fetched h =>
    obtain ⟨cursor, -, -, -, rfl⟩ := fetch_eq_ok h
    exact ⟨[], Nat.zero_le 1, rfl⟩
  | freed h =>
    obtain ⟨cursor, queries, -, -, rfl⟩ := freeQuery_eq_ok h
    exact ⟨[], Nat.zero_le 1, rfl⟩
  | locked lock => exact ⟨[], Nat.zero_le 1, rfl⟩

/-- **And so do its queries.** -/
theorem Change.queries_run (h : Change most r r') :
    ∃ run, run.length ≤ 1 ∧ r'.queries = r.queries.after run := by
  cases h with
  | kept => exact ⟨[], Nat.zero_le 1, rfl⟩
  | attached => exact ⟨[], Nat.zero_le 1, rfl⟩
  | detached connection => exact ⟨[.drain _], Nat.le_refl 1, rfl⟩
  | created _ h =>
    obtain ⟨records, -, -, -, rfl⟩ := create_eq_done h
    exact ⟨[], Nat.zero_le 1, rfl⟩
  | brokenOff _ h =>
    obtain ⟨used, rfl⟩ := used_of_panicked h
    exact ⟨[], Nat.zero_le 1, rfl⟩
  | deleted h =>
    obtain ⟨rec, records, -, rfl⟩ := delete_eq_ok h
    exact ⟨[], Nat.zero_le 1, rfl⟩
  | written h =>
    obtain ⟨rec, old, -, -, -, rfl⟩ := set_eq_ok h
    exact ⟨[], Nat.zero_le 1, rfl⟩
  | built h =>
    obtain ⟨plan, queries, -, hins, rfl⟩ := buildQuery_eq_ok h
    exact ⟨[.insert _], Nat.le_refl 1, (SlotTable.after_insert hins).symm⟩
  | fetched h =>
    obtain ⟨cursor, -, -, -, rfl⟩ := fetch_eq_ok h
    exact ⟨[.replace _ _], Nat.le_refl 1, rfl⟩
  | freed h =>
    obtain ⟨cursor, queries, hrem, -, rfl⟩ := freeQuery_eq_ok h
    exact ⟨[.remove _], Nat.le_refl 1, (SlotTable.after_remove hrem).symm⟩
  | locked lock => exact ⟨[], Nat.zero_le 1, rfl⟩

end Region

namespace Engine

variable {α : Type} {e : Engine} {place : Nat} {r : Region} {key : SlotKey} {a : α}
variable {table : Region → SlotTable α}

/-- **A region that was there changes in a call** in one of the ways listed. -/
theorem exists_change_of_perform (call : Call) (h : e.regions[place]? = some r) :
    ∃ most r', (e.perform call).2.regions[place]? = some r' ∧ Region.Change most r r' := by
  -- The length of a record that is created is the bound, and other calls need none.
  obtain ⟨most, hmost⟩ : ∃ most, ∀ d length, call = .create d length → length ≤ most := by
    cases call with
    | create d length =>
      refine ⟨length, fun _ _ heq => ?_⟩
      cases heq
      exact Nat.le_refl length
    | _ => exact ⟨0, by nofun⟩
  obtain ⟨r', hr', hcases⟩ := exists_region_of_perform call h
  refine ⟨most, r', hr', ?_⟩
  rcases hcases with rfl | rfl | ⟨connection, rfl⟩ | ⟨db, rfl⟩
  · exact .kept
  · exact .attached
  · exact .detached connection
  · exact r.serve_change db hmost

section Tables

variable (hchange : ∀ {most r r'}, Region.Change most r r' →
  ∃ run, run.length ≤ 1 ∧ table r' = (table r).after run)
include hchange

/-- **A table of a region after a run of calls** has gone through no more changes. -/
theorem table_run (calls : List Call) (h : e.regions[place]? = some r) :
    ∃ r' run, (e.run calls).regions[place]? = some r' ∧ run.length ≤ calls.length ∧
      table r' = (table r).after run := by
  induction calls generalizing e r with
  | nil => exact ⟨r, [], h, Nat.le_refl 0, rfl⟩
  | cons call calls ih =>
    obtain ⟨most, r₁, hr₁, hfirst⟩ := exists_change_of_perform call h
    obtain ⟨run₁, hone, htable₁⟩ := hchange hfirst
    obtain ⟨r₂, run₂, hr₂, hrest, htable₂⟩ := ih hr₁
    refine ⟨r₂, run₁ ++ run₂, hr₂, ?_, ?_⟩
    · simp only [List.length_append, List.length_cons]
      omega
    · rw [htable₂, htable₁, SlotTable.after_append]

/-- **A handle whose object is gone finds nothing** for as long as there have been fewer than
2^32 calls since the object was there. -/
theorem stale_in_run (hw : (table r).WellFormed) (h : e.regions[place]? = some r)
    (hheld : (table r).get? key = some a) (calls later : List Call) {r₁ r₂ : Region}
    (hr₁ : (e.run calls).regions[place]? = some r₁) (hgone : (table r₁).get? key = none)
    (hfew : (calls ++ later).length < 2 ^ 32)
    (hr₂ : (e.run (calls ++ later)).regions[place]? = some r₂) :
    (table r₂).get? key = none := by
  obtain ⟨s₁, run₁, hs₁, hlength₁, htable₁⟩ := table_run hchange calls h
  rw [hr₁, Option.some.injEq] at hs₁
  subst hs₁
  obtain ⟨s₂, run₂, hs₂, hlength₂, htable₂⟩ := table_run hchange later hr₁
  rw [run_append, hs₂, Option.some.injEq] at hr₂
  subst hr₂
  rw [htable₁] at hgone
  rw [htable₂, htable₁, ← SlotTable.after_append]
  refine SlotTable.get?_stale hw hheld run₁ run₂ hgone ?_
  have hemptied := (table r).emptied_le_length key.slot (run₁ ++ run₂)
  rw [List.length_append] at hemptied hfew
  omega

end Tables

/-- **A stale key finds nothing until its generation comes round.** In every table that was
reached from the empty one, a key that was given out and whose value is gone finds nothing,
removes nothing and replaces nothing, whatever is inserted, replaced, removed and drained, as
long as its slot has been emptied fewer than 2^32 times since; and it is current again exactly
where the slot is occupied and that number is a multiple of 2^32. So the handle of a record or a
query whose object is gone finds nothing in any run of an engine with fewer than 2^32 calls since
the object was there. -/
theorem stale_keys_find_nothing (settings : EngineSettings) (before : List Call) :
    (∀ (made : List (SlotTable.Change α)) a key t,
      (SlotTable.empty.after made).insert? a = some (key, t) →
      ∀ run later, (t.after run).get? key = none →
        let t' := t.after (run ++ later)
        let k := t.emptied key.slot (run ++ later)
        (k < 2 ^ 32 → t'.get? key = none ∧ t'.contains key = false ∧ t'.remove? key = none ∧
          ∀ b, t'.replace key b = t') ∧
        ((t'.get? key).isSome = true ↔ t'.isOccupied key.slot = true ∧ 2 ^ 32 ∣ k)) ∧
      ∀ (place : Nat) r calls r₁ later r₂ key,
        let e := (start settings).run before
        e.regions[place]? = some r → (e.run calls).regions[place]? = some r₁ →
        (e.run (calls ++ later)).regions[place]? = some r₂ → (calls ++ later).length < 2 ^ 32 →
        (∀ rec, r.records.get? key = some rec → r₁.records.get? key = none →
          r₂.records.get? key = none) ∧
        ∀ cursor, r.queries.get? key = some cursor → r₁.queries.get? key = none →
          r₂.queries.get? key = none := by
  refine ⟨fun made a key t h run later hgone => ?_, ?_⟩
  · have hw : (SlotTable.empty.after made).WellFormed := SlotTable.wellFormed_empty.after made
    have hheld : t.get? key = some a := by rw [SlotTable.get?_insert hw h, if_pos rfl]
    refine ⟨fun hfew => ?_, SlotTable.get?_after_isSome_iff (hw.insert h) _ hheld⟩
    have hnone := SlotTable.get?_stale (hw.insert h) hheld run later hgone hfew
    exact ⟨hnone, SlotTable.inert_of_get? hnone⟩
  · intro place r calls r₁ later r₂ key e hr hr₁ hr₂ hfew
    have hc : r.Coherent := coherent_run hr
    refine ⟨fun rec hheld hgone => ?_, fun cursor hheld hgone => ?_⟩
    · exact stale_in_run Region.Change.records_run hc.records.toWellFormed hr hheld calls later
        hr₁ hgone hfew hr₂
    · exact stale_in_run Region.Change.queries_run hc.queries.toWellFormed hr hheld calls later
        hr₁ hgone hfew hr₂

/-- The key of a value that was removed while its slot was used for others finds neither of them,
and the handle of a record that was deleted does not find the one in its place. -/
theorem stale_keys_find_nothing_reused :
    let made : SlotTable Nat := { slots := #[⟨0, some 0⟩], free := [], count := 1 }
    let later : List (SlotTable.Change Nat) := [.insert 1, .drain fun n => n == 1, .insert 2]
    let e := (start {}).run [.openDatabase none 0 true, .create firstLocal 1]
    let calls := [.delete firstLocal (firstLocal.record ⟨0, 0⟩)]
    (made.after ([.remove ⟨0, 0⟩] ++ later)).get? ⟨0, 0⟩ = none ∧
      (made.after ([.remove ⟨0, 0⟩] ++ later)).get? ⟨0, 2⟩ = some 2 ∧
      ∃ r, (e.run (calls ++ [.create firstLocal 1])).regions[0]? = some r ∧
        r.records.get? ⟨0, 0⟩ = none ∧ r.records.get? ⟨0, 1⟩ = some ⟨1, #[none]⟩ := by
  intro made later e calls
  obtain ⟨htables, hhandles⟩ := @stale_keys_find_nothing Nat {}
    [.openDatabase none 0 true, .create firstLocal 1]
  have hcount : made.emptied 0 ([.remove ⟨0, 0⟩] ++ later) < 2 ^ 32 := by decide +kernel
  obtain ⟨hstale, -⟩ := htables [] 0 ⟨0, 0⟩ made rfl [.remove ⟨0, 0⟩] later rfl
  obtain ⟨hrecord, -⟩ := hhandles 0 _ calls _ [.create firstLocal 1] _ ⟨0, 0⟩ rfl rfl rfl
    (by decide)
  exact ⟨(hstale hcount).1, by decide +kernel, _, rfl, hrecord _ rfl rfl, rfl⟩

/-! ## A generation that comes round -/

/-- The table with one slot, which was filled for the n-th time after the first. -/
def renewed (n : Nat) : SlotTable Nat :=
  { slots := #[⟨UInt32.ofNat n, some n⟩], free := [], count := 1 }

/-- A run that empties this slot and fills it again so many times. -/
def renewals (n : Nat) : Nat → List (SlotTable.Change Nat)
  | 0 => []
  | count + 1 => .remove ⟨0, UInt32.ofNat n⟩ :: .insert (n + 1) :: renewals (n + 1) count

/-- The slot after it was emptied and filled once more. -/
theorem renewed_change (n : Nat) :
    ((renewed n).change (.remove ⟨0, UInt32.ofNat n⟩)).change (.insert (n + 1)) =
      renewed (n + 1) := by
  simp [SlotTable.change, SlotTable.remove?, SlotTable.get?, SlotTable.slot?, SlotTable.insert?,
    SlotTable.putSlot, Slot.emptied, renewed, UInt32.ofNat_add]

theorem after_renewals (n count : Nat) :
    (renewed n).after (renewals n count) = renewed (n + count) := by
  induction count generalizing n with
  | zero => rfl
  | succ count ih =>
    rw [renewals, SlotTable.after_cons, SlotTable.after_cons, renewed_change, ih]
    congr 1
    omega

/-- **A stale key finds a value that is not its own** after its slot has been emptied and filled
again 2^32 times. -/
theorem stale_key_comes_round :
    let made := renewed 0
    let later := .insert 1 :: renewals 1 (2 ^ 32 - 1)
    (SlotTable.empty.after []).insert? 0 = some (⟨0, 0⟩, made) ∧
      (made.after [.remove ⟨0, 0⟩]).get? ⟨0, 0⟩ = none ∧
      (made.after ([.remove ⟨0, 0⟩] ++ later)).get? ⟨0, 0⟩ = some (2 ^ 32) := by
  intro made later
  refine ⟨rfl, rfl, ?_⟩
  have hrun : [.remove ⟨0, 0⟩] ++ later = renewals 0 (2 ^ 32 - 1 + 1) := rfl
  have hafter := after_renewals 0 (2 ^ 32 - 1 + 1)
  rw [hrun, hafter]
  simp [renewed, SlotTable.get?, SlotTable.slot?]

end Engine

end RecordStore
