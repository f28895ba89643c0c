import Mathlib.Data.List.Forall2
import Mathlib.Data.List.TakeWhile
import RecordStore.Query.Cursor
/-!
# Cursors — what successive fetches return

Each fetch passes over the rows that are dead at that moment and returns
the first one that is live. `yields` says this of a whole series of fetches,
given what is live at each of them: nothing but the rows and these moments
counts. The rows come in their order, no row comes twice, and after the end
there is nothing more (`exact_yields`).
-/

namespace RecordStore

namespace Cursor

variable {isLive : SlotKey → Bool} {rows : List SlotKey} {moments : List (SlotKey → Bool)}

/-- The rows from the first live one on. -/
def fromLive (isLive : SlotKey → Bool) (rows : List SlotKey) : List SlotKey :=
  rows.dropWhile fun key => !isLive key

/-- What fetches return, one after the other, by what is live at the moment of each. -/
def yields (rows : List SlotKey) : List (SlotKey → Bool) → List (Option SlotKey)
  | [] => []
  | isLive :: later => (fromLive isLive rows).head? :: yields (fromLive isLive rows).tail later

/-- **Fetches return exactly the rows that are live when they are passed**, by what is live at
the moment of each fetch. -/
structure Exact (rows : List SlotKey) (moments : List (SlotKey → Bool))
    (returned : List (Option SlotKey)) : Prop where
  /-- The rows come in their order. -/
  ordered : (returned.filterMap id).Sublist rows
  /-- No row comes twice. -/
  once : (returned.filterMap id).Nodup
  /-- Each fetch passes some rows. Of these the row that it returns is live, and no other is.
  When a fetch finds nothing, all rows have been passed. -/
  passes : ∃ passed : List (List SlotKey),
    List.Forall₂ (fun (f : (SlotKey → Bool) × Option SlotKey) keys =>
      keys.filter f.1 = f.2.toList) (moments.zip returned) passed ∧
    passed.flatten <+: rows ∧ (none ∈ returned → passed.flatten = rows)
  /-- Nothing comes after the end. -/
  ended : returned.Pairwise fun row later => row = none → later = none

/-! ## One fetch -/

theorem fromLive_cons (key : SlotKey) (rest : List SlotKey) :
    fromLive isLive (key :: rest) = if isLive key then key :: rest else fromLive isLive rest := by
  by_cases hlive : isLive key <;> simp [fromLive, hlive]

theorem seek_fst (isLive : SlotKey → Bool) (rows : List SlotKey) :
    (seek isLive rows).1 = (fromLive isLive rows).head? := by
  induction rows with
  | nil => rfl
  | cons key rest ih =>
    rw [seek, fromLive_cons]
    by_cases hlive : isLive key
    · simp [hlive]
    · simpa [hlive] using ih

theorem drop_seek (isLive : SlotKey → Bool) (rows : List SlotKey) :
    rows.drop (seek isLive rows).2 = (fromLive isLive rows).tail := by
  induction rows with
  | nil => rfl
  | cons key rest ih =>
    rw [seek, fromLive_cons]
    by_cases hlive : isLive key
    · simp [hlive]
    · simpa [hlive] using ih

/-- **A fetch returns the first live row**, -/
theorem advance_fst (c : Cursor) (isLive : SlotKey → Bool) :
    (c.advance isLive).1 = (fromLive isLive c.remaining).head? :=
  seek_fst isLive c.remaining

/-- **and the rows behind it remain.** -/
theorem remaining_advance (c : Cursor) (isLive : SlotKey → Bool) :
    (c.advance isLive).2.remaining = (fromLive isLive c.remaining).tail := by
  rw [← drop_seek, remaining, remaining, List.drop_drop]
  rfl

/-- A cursor that is at its end does not move. -/
theorem advance_of_remaining_nil {c : Cursor} (h : c.remaining = []) (isLive : SlotKey → Bool) :
    c.advance isLive = (none, c) := by
  simp only [advance, h, seek, Nat.add_zero]

theorem fromLive_eq_nil (h : (fromLive isLive rows).head? = none) : fromLive isLive rows = [] :=
  List.head?_eq_none_iff.1 h

/-- What is returned is live at that moment. -/
theorem isLive_of_head {key : SlotKey} (h : (fromLive isLive rows).head? = some key) :
    isLive key = true := by
  have hlive := List.head?_dropWhile_not (fun key => !isLive key) rows
  rw [fromLive] at h
  rw [h] at hlive
  simpa using hlive

/-! ## All fetches -/

/-- Past the end every fetch finds nothing. -/
theorem yields_nil (moments : List (SlotKey → Bool)) : ∀ row ∈ yields [] moments, row = none := by
  induction moments with
  | nil => simp [yields]
  | cons isLive later ih =>
    intro row hrow
    rcases List.mem_cons.1 hrow with rfl | hrow
    · rfl
    · exact ih row hrow

/-- Nothing comes after the end. -/
theorem yields_pairwise (rows : List SlotKey) (moments : List (SlotKey → Bool)) :
    (yields rows moments).Pairwise fun row later => row = none → later = none := by
  induction moments generalizing rows with
  | nil => exact .nil
  | cons isLive later ih =>
    refine .cons (fun row hrow hend => ?_) (ih _)
    rw [fromLive_eq_nil hend] at hrow
    exact yields_nil later row hrow

/-- The rows come in their order, and each at most as often as it was prefetched. -/
theorem yields_sublist (rows : List SlotKey) (moments : List (SlotKey → Bool)) :
    ((yields rows moments).filterMap id).Sublist rows := by
  induction moments generalizing rows with
  | nil => exact List.nil_sublist _
  | cons isLive later ih =>
    have hleft : (fromLive isLive rows).Sublist rows := List.dropWhile_sublist _
    refine List.Sublist.trans ?_ hleft
    rw [yields, List.filterMap_cons]
    have hrest := ih (fromLive isLive rows).tail
    cases hrows : fromLive isLive rows with
    | nil => simpa [hrows] using hrest
    | cons key rest => simpa [hrows] using hrest

/-- The rows that a fetch passes are, but for the one it returns, dead at that moment; and
when a fetch finds nothing, all rows have been passed. -/
theorem yields_passes (rows : List SlotKey) (moments : List (SlotKey → Bool)) :
    ∃ passed : List (List SlotKey),
      List.Forall₂ (fun (f : (SlotKey → Bool) × Option SlotKey) keys =>
        keys.filter f.1 = f.2.toList) (moments.zip (yields rows moments)) passed ∧
      passed.flatten <+: rows ∧ (none ∈ yields rows moments → passed.flatten = rows) := by
  induction moments generalizing rows with
  | nil => exact ⟨[], .nil, List.nil_prefix, by simp [yields]⟩
  | cons isLive later ih =>
    obtain ⟨passed, hpassed, hprefix, hend⟩ := ih (fromLive isLive rows).tail
    have hsplit : rows.takeWhile (fun key => !isLive key) ++ fromLive isLive rows = rows :=
      List.takeWhile_append_dropWhile
    have hdead : (rows.takeWhile fun key => !isLive key).filter isLive = [] := by
      rw [List.filter_eq_nil_iff]
      intro key hkey
      simpa using List.mem_takeWhile_imp hkey
    have hhead : (fromLive isLive rows).head?.toList ++ (fromLive isLive rows).tail =
        fromLive isLive rows := by
      cases fromLive isLive rows <;> rfl
    refine ⟨((rows.takeWhile fun key => !isLive key) ++ (fromLive isLive rows).head?.toList) ::
      passed, .cons ?_ hpassed, ?_, ?_⟩
    · rw [List.filter_append, hdead, List.nil_append]
      cases hrow : (fromLive isLive rows).head? with
      | none => rfl
      | some key => simp [isLive_of_head hrow]
    · rw [List.flatten_cons, List.append_assoc]
      conv_rhs => rw [← hsplit, ← hhead]
      exact (List.prefix_append_right_inj _).2 ((List.prefix_append_right_inj _).2 hprefix)
    · intro hnone
      have hall : passed.flatten = (fromLive isLive rows).tail := by
        rcases List.mem_cons.1 hnone with hrow | hlater
        · -- This fetch found nothing, so nothing is left to be passed.
          rw [fromLive_eq_nil hrow.symm] at hprefix ⊢
          exact List.prefix_nil.1 hprefix
        · exact hend hlater
      rw [List.flatten_cons, List.append_assoc, hall, hhead, hsplit]

/-- **What a cursor yields is exactly what is live when it is passed.** -/
theorem exact_yields (hrows : rows.Nodup) (moments : List (SlotKey → Bool)) :
    Exact rows moments (yields rows moments) where
  ordered := yields_sublist rows moments
  once := (yields_sublist rows moments).nodup hrows
  passes := yields_passes rows moments
  ended := yields_pairwise rows moments

end Cursor

end RecordStore
