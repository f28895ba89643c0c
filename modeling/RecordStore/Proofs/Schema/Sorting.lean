import RecordStore.Schema.Tuple
/-!
# Sorted names — the layout is a matter of the names alone

The byte order of names is total and tells different names apart, so
different names have one sorted arrangement, whichever order they were
declared in (`sortedNames_eq_of_perm`). In it a name stands behind as many
others as come before it (`getElem?_rank`). Where no name is declared twice,
both ways to make a schema keep all attributes.
-/

namespace RecordStore

namespace Schema

variable {α : Type} {names names' : List String} {a b c name : String}

/-! ## The order of names -/

/-- Whether a name comes before another in byte order. -/
def nameLt (a b : String) : Bool := (Ord.compare (nameBytes a) (nameBytes b)).isLT

/-- The number of names that come before one. -/
def rank (names : List String) (name : String) : Nat := names.countP fun other => nameLt other name

/-- The names in byte order. -/
def sortedNames (names : List String) : List String := names.mergeSort nameLe

/-- Different names have different bytes. -/
theorem nameBytes_inj (h : nameBytes a = nameBytes b) : a = b :=
  String.toByteArray_inj.1 (ByteArray.ext (Array.toList_inj.1 h))

theorem nameLe_trans (a b c : String) (hab : nameLe a b = true) (hbc : nameLe b c = true) :
    nameLe a c = true :=
  Std.TransOrd.isLE_trans hab hbc

theorem nameLe_total (a b : String) : (nameLe a b || nameLe b a) = true := by
  have hswap := Std.OrientedOrd.eq_swap (a := nameBytes a) (b := nameBytes b)
  unfold nameLe
  rw [hswap]
  cases Ord.compare (nameBytes b) (nameBytes a) <;> rfl

theorem nameLe_antisymm (hab : nameLe a b = true) (hba : nameLe b a = true) : a = b := by
  have hswap := Std.OrientedOrd.eq_swap (a := nameBytes a) (b := nameBytes b)
  unfold nameLe at hab hba
  have heq : Ord.compare (nameBytes a) (nameBytes b) = .eq := by
    cases hcmp : Ord.compare (nameBytes b) (nameBytes a) <;> rw [hcmp] at hswap hba
    · rw [hswap] at hab
      cases hab
    · exact hswap
    · cases hba
  exact nameBytes_inj (Std.LawfulEqOrd.eq_of_compare heq)

theorem nameLt_irrefl (a : String) : nameLt a a = false := by
  rw [nameLt, Std.ReflOrd.compare_self]
  rfl

/-- A name that comes before another does not come after it. -/
theorem nameLt_asymm (h : nameLt a b = true) : nameLt b a = false := by
  unfold nameLt at h ⊢
  rw [Std.OrientedOrd.eq_swap]
  cases hcmp : Ord.compare (nameBytes a) (nameBytes b) <;> rw [hcmp] at h
  · rfl
  · cases h
  · cases h

/-- Of two different names the one that comes first comes before the other. -/
theorem nameLt_of_nameLe (hle : nameLe a b = true) (hne : a ≠ b) : nameLt a b = true := by
  unfold nameLe at hle
  unfold nameLt
  cases hcmp : Ord.compare (nameBytes a) (nameBytes b) with
  | lt => rfl
  | eq => exact absurd (nameBytes_inj (Std.LawfulEqOrd.eq_of_compare hcmp)) hne
  | gt =>
    rw [hcmp] at hle
    cases hle

/-! ## Sorting -/

theorem sortedNames_perm (names : List String) : (sortedNames names).Perm names :=
  List.mergeSort_perm names nameLe

theorem pairwise_sortedNames (names : List String) :
    (sortedNames names).Pairwise fun a b => nameLe a b = true :=
  List.pairwise_mergeSort nameLe_trans nameLe_total names

/-- **The same names are sorted in one way.** -/
theorem sortedNames_eq_of_perm (h : names'.Perm names) : sortedNames names' = sortedNames names :=
  List.Perm.eq_of_pairwise (fun _ _ _ _ => nameLe_antisymm) (pairwise_sortedNames names')
    (pairwise_sortedNames names)
    ((sortedNames_perm names').trans (h.trans (sortedNames_perm names).symm))

/-- Different names strictly rise when they are sorted. -/
theorem strict_sortedNames (h : names.Nodup) :
    (sortedNames names).Pairwise fun a b => nameLt a b = true := by
  have hnodup : (sortedNames names).Nodup := (sortedNames_perm names).nodup_iff.2 h
  exact (pairwise_sortedNames names).imp₂ (fun _ _ => nameLt_of_nameLe) hnodup

/-- In a list that rises a name stands behind as many names as come before it. -/
theorem rank_getElem (h : names.Pairwise fun a b => nameLt a b = true) {k : Nat}
    (hk : k < names.length) : rank names names[k] = k := by
  have hbefore : ∀ a ∈ names.take k, nameLt a names[k] = true := by
    intro a ha
    obtain ⟨i, hi, rfl⟩ := List.mem_take_iff_getElem.1 ha
    exact List.pairwise_iff_getElem.1 h i k _ hk (by omega)
  have hafter : ∀ a ∈ names.drop k, ¬ nameLt a names[k] = true := by
    intro a ha
    obtain ⟨i, hi, rfl⟩ := List.mem_drop_iff_getElem.1 ha
    rcases Nat.eq_zero_or_pos i with rfl | hpos
    · simp [nameLt_irrefl]
    · have hlt := List.pairwise_iff_getElem.1 h k (k + i) hk (by omega) (by omega)
      simp [nameLt_asymm hlt]
  have hsplit : rank names names[k] = (names.take k).countP (fun a => nameLt a names[k]) +
      (names.drop k).countP (fun a => nameLt a names[k]) := by
    rw [rank, ← List.countP_append, List.take_append_drop]
  rw [hsplit, List.countP_eq_length.2 hbefore, List.countP_eq_zero.2 hafter, List.length_take]
  omega

/-- **Where a name stands** among different names in byte order. -/
theorem getElem?_rank (hnodup : names.Nodup) (h : name ∈ names) :
    (sortedNames names)[rank names name]? = some name := by
  have hmem : name ∈ sortedNames names := (sortedNames_perm names).mem_iff.2 h
  obtain ⟨k, hk, rfl⟩ := List.mem_iff_getElem.1 hmem
  have hrank : rank names (sortedNames names)[k] = k := by
    rw [rank, ← (sortedNames_perm names).countP_eq]
    exact rank_getElem (strict_sortedNames hnodup) hk
  rw [hrank]
  exact List.getElem?_eq_getElem hk

/-! ## Schemas of different names -/

theorem names_sorted (attributes : List (Attribute α)) :
    (sorted attributes).map Attribute.name = sortedNames (attributes.map Attribute.name) :=
  List.map_mergeSort fun _ _ _ _ => rfl

theorem firstRepeated?_eq_none : ∀ {names : List String}, names.Nodup → firstRepeated? names = none
  | [], _ => rfl
  | [_], _ => rfl
  | a :: b :: rest, h => by
    obtain ⟨hnot, hrest⟩ := List.nodup_cons.1 h
    have hne : a ≠ b := fun heq => hnot (heq ▸ List.mem_cons_self)
    rw [firstRepeated?, if_neg hne]
    exact firstRepeated?_eq_none hrest

/-- Nothing is dropped where no name comes twice. -/
theorem dropRepeated_eq {before : Option String} {attributes : List (Attribute α)}
    (hnodup : (attributes.map Attribute.name).Nodup)
    (hbefore : ∀ name, before = some name → name ∉ attributes.map Attribute.name) :
    dropRepeated before attributes = attributes := by
  induction attributes generalizing before with
  | nil => rfl
  | cons a rest ih =>
    obtain ⟨hnot, hrest⟩ := List.nodup_cons.1 hnodup
    have hne : before ≠ some a.name := fun heq => hbefore a.name heq List.mem_cons_self
    have hnext : ∀ name, some a.name = some name → name ∉ rest.map Attribute.name := by
      rintro name heq
      cases heq
      exact hnot
    rw [dropRepeated, if_neg hne, ih hrest hnext]

/-- **Attributes with different names** give a schema in both ways, the same one. -/
theorem new?_eq_declared (typeName : String) (blank : α) {attributes : List (Attribute α)}
    (h : (attributes.map Attribute.name).Nodup) :
    new? typeName blank attributes = .ok ⟨typeName, blank, sorted attributes⟩ ∧
      declared typeName blank attributes = ⟨typeName, blank, sorted attributes⟩ := by
  have hnodup : ((sorted attributes).map Attribute.name).Nodup := by
    rw [names_sorted]
    exact (sortedNames_perm _).nodup_iff.2 h
  refine ⟨?_, ?_⟩
  · rw [new?, firstRepeated?_eq_none hnodup]
  · rw [declared, dropRepeated_eq hnodup (by nofun)]

end Schema

namespace TupleType

open Schema (sortedNames)

variable {t : TupleType}

theorem names_attributes (t : TupleType) : t.attributes.map Attribute.name = t.names := by
  rw [attributes, List.map_map]
  exact List.zipIdx_map_fst 0 t.names

/-- An attribute stands for the entry at the place of its name. -/
theorem mem_attributes_iff {a : Attribute (Array Int32)} :
    a ∈ t.attributes ↔ ∃ k name, t.names[k]? = some name ∧ a = .entry name k := by
  simp only [attributes, List.mem_map, Prod.exists, List.mk_mem_zipIdx_iff_getElem?]
  constructor
  · rintro ⟨name, k, hk, rfl⟩
    exact ⟨k, name, hk, rfl⟩
  · rintro ⟨k, name, hk, rfl⟩
    exact ⟨name, k, hk, rfl⟩

/-- **The schema of different names.** -/
theorem schema?_eq (h : t.names.Nodup) :
    t.schema? = .ok ⟨t.typeName, t.blank, Schema.sorted t.attributes⟩ := by
  have hnodup : (t.attributes.map Attribute.name).Nodup := by rwa [names_attributes]
  obtain ⟨hnew, hdeclared⟩ := Schema.new?_eq_declared t.typeName t.blank hnodup
  rw [schema?, hnew, hdeclared, ite_self]

end TupleType

end RecordStore
