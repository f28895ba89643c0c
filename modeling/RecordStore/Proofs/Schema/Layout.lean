import RecordStore.Client.Mapper
import RecordStore.Proofs.Schema.Sorting
/-!
# Layouts — the integers that objects come to

The integers of an object stand in the order of its names, with the
fingerprint behind them (`Schema.layout`), so that two schemas with the same
names have the same layout. A type of arrays with different names gets all of
its entries back from a layout (`TupleType.assigned_sortedSchema`).
-/

namespace RecordStore

namespace Schema

variable {α β : Type} {s : Schema α} {s' : Schema β} {value : String → Int32} {object : α}
variable {withFingerprint : Bool}

/-- The integers of an object with the given values of its names. -/
def layout (s : Schema α) (withFingerprint : Bool) (value : String → Int32) : List Int32 :=
  s.names.map value ++ if withFingerprint then [s.fingerprint] else []

/-- The object that is given a value for each name. -/
def assigned (s : Schema α) (value : String → Int32) : α :=
  s.attributes.foldl (fun object a => a.set object (value a.name)) s.blank

theorem length_layout :
    (s.layout withFingerprint value).length = s.recordLength withFingerprint := by
  cases withFingerprint <;> simp [layout, recordLength, names, size]

/-- The integer of a name stands where the name does. -/
theorem getElem?_layout {k : Nat} {name : String} (h : s.names[k]? = some name) :
    (s.layout withFingerprint value)[k]? = some (value name) := by
  have hk : k < (s.names.map value).length := by
    rw [List.length_map]
    exact (List.getElem?_eq_some_iff.1 h).1
  rw [layout, List.getElem?_append_left hk, List.getElem?_map, h, Option.map_some]

/-- The fingerprint stands behind the names. -/
theorem getElem?_layout_size : (s.layout true value)[s.size]? = some s.fingerprint := by
  have hsize : s.size = (s.names.map value).length := by simp [size, names]
  rw [layout, hsize, if_pos rfl, List.getElem?_append_right (Nat.le_refl _), Nat.sub_self]
  rfl

/-- **The layout is a matter of the names.** -/
theorem layout_congr (h : s'.names = s.names) :
    s'.layout withFingerprint value = s.layout withFingerprint value := by
  simp only [layout, fingerprint, h]

theorem encode_eq_layout (h : ∀ a ∈ s.attributes, a.get object = value a.name) :
    s.encode withFingerprint object = s.layout withFingerprint value := by
  rw [encode, layout, names, List.map_map, List.map_congr_left h]
  rfl

end Schema

namespace TupleType

variable {t : TupleType} {value : String → Int32}

/-- The object with the given values of its names. -/
def object (t : TupleType) (value : String → Int32) : Array Int32 := (t.names.map value).toArray

/-- The schema that the names have if they are different. -/
def sortedSchema (t : TupleType) : Schema (Array Int32) :=
  ⟨t.typeName, t.blank, Schema.sorted t.attributes⟩

theorem names_sortedSchema (t : TupleType) :
    t.sortedSchema.names = Schema.sortedNames t.names := by
  rw [Schema.names, sortedSchema, Schema.names_sorted, names_attributes]

/-- Names that are in byte order are left as they are. -/
theorem names_sortedSchema_of_pairwise
    (h : t.names.Pairwise fun a b => Schema.nameLe a b = true) : t.sortedSchema.names = t.names :=
  t.names_sortedSchema.trans (List.mergeSort_of_pairwise h)

theorem size_sortedSchema (t : TupleType) : t.sortedSchema.size = t.names.length := by
  have hlength := congrArg List.length t.names_sortedSchema
  rwa [(Schema.sortedNames_perm t.names).length_eq, Schema.names, List.length_map] at hlength

theorem recordLength_sortedSchema (t : TupleType) (withFingerprint : Bool) :
    t.sortedSchema.recordLength withFingerprint = t.names.length + withFingerprint.toNat := by
  have hsize := t.size_sortedSchema
  cases withFingerprint <;> simp [Schema.recordLength, hsize]

/-- **The same names** are in the same order. -/
theorem names_sortedSchema_of_perm {t' : TupleType} (h : t'.names.Perm t.names) :
    t'.sortedSchema.names = t.sortedSchema.names := by
  rw [names_sortedSchema, names_sortedSchema, Schema.sortedNames_eq_of_perm h]

theorem mem_sortedSchema_iff {a : Attribute (Array Int32)} :
    a ∈ t.sortedSchema.attributes ↔ a ∈ t.attributes :=
  (List.mergeSort_perm _ _).mem_iff

/-- An attribute reads the value of its name. -/
theorem get_object {a : Attribute (Array Int32)} (h : a ∈ t.attributes) :
    a.get (t.object value) = value a.name := by
  obtain ⟨k, name, hk, rfl⟩ := mem_attributes_iff.1 h
  simp [Attribute.entry, object, hk]

/-- **Entries that were assigned** have the values of their names, and the others are as they
were. -/
theorem getElem?_assigned (hnodup : t.names.Nodup) {attributes : List (Attribute (Array Int32))}
    (hsub : ∀ a ∈ attributes, a ∈ t.attributes) {entries : Array Int32}
    (hsize : entries.size = t.names.length) {k : Nat} {name : String}
    (hk : t.names[k]? = some name)
    (h : name ∈ attributes.map Attribute.name ∨ entries[k]? = some (value name)) :
    (attributes.foldl (fun object a => a.set object (value a.name)) entries)[k]? =
      some (value name) := by
  induction attributes generalizing entries with
  | nil => simpa using h
  | cons a rest ih =>
    obtain ⟨i, other, hi, rfl⟩ := mem_attributes_iff.1 (hsub a List.mem_cons_self)
    have hrest : ∀ a ∈ rest, a ∈ t.attributes := fun a ha => hsub a (List.mem_cons_of_mem _ ha)
    rw [List.foldl_cons]
    refine ih hrest (by simpa [Attribute.entry] using hsize) ?_
    by_cases hik : i = k
    · -- This is the entry that is assigned now.
      subst hik
      rw [hi, Option.some.injEq] at hk
      have hlt := (List.getElem?_eq_some_iff.1 hi).1
      exact .inr (by simp [Attribute.entry, hk, hsize, hlt])
    · have hne : other ≠ name := by
        rintro rfl
        have hlt := (List.getElem?_eq_some_iff.1 hi).1
        exact hik (List.getElem?_inj hlt hnodup |>.1 (hi.trans hk.symm))
      rcases h with hmem | hbefore
      · exact .inl ((List.mem_cons.1 hmem).resolve_left (Ne.symm hne))
      · refine .inr ?_
        simp only [Attribute.entry]
        rw [Array.getElem?_setIfInBounds_ne hik, hbefore]

theorem size_assigned {attributes : List (Attribute (Array Int32))}
    (hsub : ∀ a ∈ attributes, a ∈ t.attributes) (entries : Array Int32) :
    (attributes.foldl (fun object a => a.set object (value a.name)) entries).size =
      entries.size := by
  induction attributes generalizing entries with
  | nil => rfl
  | cons a rest ih =>
    obtain ⟨i, name, -, rfl⟩ := mem_attributes_iff.1 (hsub a List.mem_cons_self)
    rw [List.foldl_cons, ih fun a ha => hsub a (List.mem_cons_of_mem _ ha)]
    exact Array.size_setIfInBounds

/-- **Every entry is assigned** where the schema has all names. -/
theorem assigned_sortedSchema (hnodup : t.names.Nodup) :
    t.sortedSchema.assigned value = t.object value := by
  have hsub : ∀ a ∈ t.sortedSchema.attributes, a ∈ t.attributes := fun a => mem_sortedSchema_iff.1
  have hblank : t.sortedSchema.blank.size = t.names.length := Array.size_replicate
  apply Array.ext_getElem?
  intro k
  rcases Nat.lt_or_ge k t.names.length with hk | hk
  · have hname : t.names[k]? = some t.names[k] := List.getElem?_eq_getElem hk
    have hmem : t.names[k] ∈ t.sortedSchema.attributes.map Attribute.name := by
      have hnames := t.names_sortedSchema
      rw [Schema.names] at hnames
      rw [hnames, (Schema.sortedNames_perm t.names).mem_iff]
      exact List.getElem_mem hk
    rw [Schema.assigned, getElem?_assigned hnodup hsub hblank hname (.inl hmem)]
    simp [object, hk]
  · have hsize : (t.sortedSchema.assigned value).size = t.names.length :=
      (size_assigned hsub _).trans hblank
    rw [Array.getElem?_eq_none (by omega), Array.getElem?_eq_none (by simpa [object] using hk)]

end TupleType

end RecordStore
