import Mathlib.Data.List.Nodup
import RecordStore.Directory
/-!
# Directories — how many keys are bound to a value

A directory whose keys were bound one at a time binds each of them once
(`Distinct`). Then every binding can be found, and the number of keys that
are bound to a value goes up and down by one as keys are bound and taken
out.
-/

namespace RecordStore

namespace Directory

variable {κ α : Type} [DecidableEq κ] {d : Directory κ α} {key other : κ} {a b : α}

/-- Each key is bound at most once. -/
def Distinct (d : Directory κ α) : Prop := d.keys.Nodup

omit [DecidableEq κ] in
theorem distinct_empty : (empty : Directory κ α).Distinct := List.nodup_nil

/-! ## What is bound -/

theorem lookup_eq_none_iff {l : List (κ × α)} : lookup key l = none ↔ key ∉ l.map Prod.fst := by
  induction l with
  | nil => simp [lookup]
  | cons b rest ih =>
    by_cases hb : b.1 = key
    · simp [lookup, hb]
    · simp [lookup, hb, ih, Ne.symm hb]

theorem find?_eq_none_iff : d.find? key = none ↔ key ∉ d.keys := lookup_eq_none_iff

theorem mem_of_lookup {l : List (κ × α)} (h : lookup key l = some a) : (key, a) ∈ l := by
  induction l with
  | nil => cases h
  | cons b rest ih =>
    simp only [lookup] at h
    split at h
    · rename_i hb
      cases h
      exact hb ▸ List.mem_cons_self
    · exact List.mem_cons_of_mem b (ih h)

/-- What is found for a key is bound to it. -/
theorem mem_bindings (h : d.find? key = some a) : (key, a) ∈ d.bindings := mem_of_lookup h

/-- Where keys are distinct, what is bound to a key is found for it. -/
theorem lookup_of_mem {l : List (κ × α)} (hd : (l.map Prod.fst).Nodup) (h : (key, a) ∈ l) :
    lookup key l = some a := by
  induction l with
  | nil => cases h
  | cons b rest ih =>
    obtain ⟨hb, hrest⟩ := List.nodup_cons.1 hd
    rcases List.mem_cons.1 h with rfl | hmem
    · simp only [lookup, if_true]
    · have hne : b.1 ≠ key := fun heq => hb (heq ▸ List.mem_map_of_mem (f := Prod.fst) hmem)
      simp only [lookup, if_neg hne, ih hrest hmem]

/-- A key that is not bound cannot be taken out. -/
theorem filter_of_lookup_eq_none {l : List (κ × α)} (h : lookup key l = none) :
    (l.filter fun x => x.1 ≠ key) = l := by
  rw [List.filter_eq_self]
  intro x hx
  refine decide_eq_true fun heq => lookup_eq_none_iff.1 h ?_
  exact heq ▸ List.mem_map_of_mem hx

/-! ## Binding a key that is not bound -/

theorem update_of_lookup_eq_none {l : List (κ × α)} (h : lookup key l = none) :
    update key a l = l ++ [(key, a)] := by
  induction l with
  | nil => rfl
  | cons b rest ih =>
    simp only [lookup] at h
    split at h
    · cases h
    · rename_i hb
      simp only [update, if_neg hb, ih h, List.cons_append]

/-- The value that is bound last counts. -/
theorem update_update (l : List (κ × α)) (key : κ) (a b : α) :
    update key b (update key a l) = update key b l := by
  induction l with
  | nil => simp [update]
  | cons x rest ih =>
    by_cases hx : x.1 = key
    · simp [update, hx]
    · simp [update, hx, ih]

/-- A key that is not bound is bound behind the others. -/
theorem bindings_insert (h : d.find? key = none) :
    (d.insert key a).bindings = d.bindings ++ [(key, a)] :=
  update_of_lookup_eq_none h

theorem keys_insert (h : d.find? key = none) : (d.insert key a).keys = d.keys ++ [key] := by
  simp only [keys, bindings_insert h, List.map_append, List.map_singleton]

theorem Distinct.insert (hd : d.Distinct) (h : d.find? key = none) :
    (d.insert key a).Distinct := by
  unfold Distinct
  rw [keys_insert h]
  exact List.concat_eq_append ▸ hd.concat (find?_eq_none_iff.1 h)

theorem Distinct.erase (hd : d.Distinct) (key : κ) : (d.erase key).Distinct :=
  hd.sublist (List.filter_sublist.map Prod.fst)

/-! ## Counting -/

variable [DecidableEq α]

/-- The number of keys that are bound to a value. -/
def count (d : Directory κ α) (a : α) : Nat := d.bindings.countP fun b => b.2 = a

/-- A key that is bound anew counts for the value it is bound to. -/
theorem count_insert (h : d.find? key = none) (b : α) :
    (d.insert key a).count b = d.count b + if a = b then 1 else 0 := by
  simp [count, bindings_insert h, List.countP_append, List.countP_singleton]

/-- A value that is found is counted. -/
theorem count_pos (h : d.find? key = some a) : 0 < d.count a :=
  List.countP_pos_iff.2 ⟨(key, a), mem_bindings h, decide_eq_true rfl⟩

/-- A value that is not found is not counted. -/
theorem count_eq_zero (hd : d.Distinct) (h : ∀ key, d.find? key ≠ some a) : d.count a = 0 := by
  refine List.countP_eq_zero.2 fun b hb heq => h b.1 ?_
  have ha : b.2 = a := of_decide_eq_true heq
  exact ha ▸ lookup_of_mem hd hb

/-- Without a key that is bound once, the bindings to its value are one less. -/
theorem countP_filter_key {l : List (κ × α)} (hd : (l.map Prod.fst).Nodup) (key : κ) (b : α) :
    ((l.filter fun x => x.1 ≠ key).countP fun x => x.2 = b) +
      (if lookup key l = some b then 1 else 0) = l.countP fun x => x.2 = b := by
  induction l with
  | nil => rfl
  | cons x rest ih =>
    obtain ⟨hx, hrest⟩ := List.nodup_cons.1 hd
    by_cases hkey : x.1 = key
    · -- The key is bound here, and so nowhere else.
      have hnone : lookup key rest = none := lookup_eq_none_iff.2 (hkey ▸ hx)
      have hfilter : ((x :: rest).filter fun x => x.1 ≠ key) = rest := by
        rw [List.filter_cons_of_neg (by simp [hkey]), filter_of_lookup_eq_none hnone]
      rw [hfilter, List.countP_cons]
      simp only [lookup, if_pos hkey, Option.some.injEq, decide_eq_true_eq]
    · rw [List.filter_cons_of_pos (by simp [hkey]), List.countP_cons, List.countP_cons, ← ih hrest]
      simp only [lookup, if_neg hkey]
      omega

/-- A key that is taken out no longer counts for the value it was bound to. -/
theorem count_erase (hd : d.Distinct) (h : d.find? key = some a) (b : α) :
    (d.erase key).count b + (if a = b then 1 else 0) = d.count b := by
  have hone := countP_filter_key hd key b
  rw [show lookup key d.bindings = some a from h] at hone
  simp only [Option.some.injEq] at hone
  exact hone

end Directory

end RecordStore
