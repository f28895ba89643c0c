import Mathlib.Data.List.Dedup
import Mathlib.Data.List.Duplicate
import RecordStore.Proofs.Schema.Sorting
/-!
# Construction — which schema a declaration comes to

A declaration lists attributes in any order. Its schema has the declared
names in byte order, each of them once (`names_declared`) and with the
attribute that was declared first under it (`mem_declared_iff`), so that the
names, their fields and the fingerprint are a matter of the set of names. The
strict way to make a schema gives the same one, or refuses a declaration in
which a name comes twice (`construction_sorts_names`).
-/

namespace RecordStore

namespace Schema

variable {α : Type} {name : String} {names names' : List String} {before : Option String}
variable {attributes : List (Attribute α)}

theorem nameLe_refl (a : String) : nameLe a a = true := by
  simpa only [Bool.or_self] using nameLe_total a a

/-! ## Names that come twice -/

/-- In byte order the same names are neighbours, so that it is enough to compare neighbours. -/
theorem firstRepeated?_eq_none_iff (h : names.Pairwise fun a b => nameLe a b = true) :
    firstRepeated? names = none ↔ names.Nodup := by
  refine ⟨fun hnone => ?_, firstRepeated?_eq_none⟩
  induction names with
  | nil => exact List.nodup_nil
  | cons a rest ih =>
    cases rest with
    | nil => exact List.nodup_singleton a
    | cons b rest =>
      obtain ⟨hle, hrest⟩ := List.pairwise_cons.1 h
      rw [firstRepeated?] at hnone
      split at hnone
      · cases hnone
      · rename_i hne
        refine List.nodup_cons.2 ⟨fun hmem => hne ?_, ih hrest hnone⟩
        -- Between a name and itself there is no other one.
        rcases List.mem_cons.1 hmem with rfl | hmem
        · rfl
        · exact nameLe_antisymm (hle b List.mem_cons_self)
            ((List.pairwise_cons.1 hrest).1 a hmem)

/-- The name that is found does come twice. -/
theorem duplicate_of_firstRepeated? (h : firstRepeated? names = some name) :
    names.Duplicate name := by
  induction names with
  | nil => cases h
  | cons a rest ih =>
    cases rest with
    | nil => cases h
    | cons b rest =>
      rw [firstRepeated?] at h
      split at h
      · rename_i heq
        cases h
        rw [heq]
        exact .cons_mem List.mem_cons_self
      · exact .cons_duplicate (ih h)

/-! ## Attributes that are dropped -/

theorem dropRepeated_sublist : (dropRepeated before attributes).Sublist attributes := by
  induction attributes generalizing before with
  | nil => exact .slnil
  | cons a rest ih =>
    rw [dropRepeated]
    split
    · exact ih.cons a
    · exact ih.cons_cons a

/-- **The first attribute of a name is kept**, unless the name was the one before. -/
theorem find?_dropRepeated (h : before ≠ some name) :
    (dropRepeated before attributes).find? (fun a => a.name = name) =
      attributes.find? fun a => a.name = name := by
  induction attributes generalizing before with
  | nil => rfl
  | cons a rest ih =>
    rw [dropRepeated]
    by_cases hname : a.name = name
    · rw [if_neg (hname ▸ h), List.find?_cons_of_pos (by simpa using hname),
        List.find?_cons_of_pos (by simpa using hname)]
    · rw [List.find?_cons_of_neg (by simpa using hname)]
      split
      · exact ih h
      · rw [List.find?_cons_of_neg (by simpa using hname)]
        exact ih fun heq => hname (Option.some.inj heq)

/-- Of attributes in byte order none is kept that has the name before. -/
theorem not_mem_dropRepeated
    (h : attributes.Pairwise fun a b => nameLe a.name b.name = true)
    (hbefore : ∀ a ∈ attributes, nameLe name a.name = true) :
    ∀ a ∈ dropRepeated (some name) attributes, a.name ≠ name := by
  induction attributes with
  | nil => exact fun _ ha => absurd ha List.not_mem_nil
  | cons a rest ih =>
    obtain ⟨hle, hrest⟩ := List.pairwise_cons.1 h
    intro b hb
    rw [dropRepeated] at hb
    split at hb
    · exact ih hrest (fun c hc => hbefore c (List.mem_cons_of_mem _ hc)) b hb
    · rename_i hne
      rintro rfl
      refine hne (congrArg some (nameLe_antisymm (hbefore a List.mem_cons_self) ?_))
      rcases List.mem_cons.1 hb with rfl | hb
      · exact nameLe_refl _
      · exact hle b (dropRepeated_sublist.subset hb)

/-- **Each name is kept once.** -/
theorem nodup_dropRepeated (h : attributes.Pairwise fun a b => nameLe a.name b.name = true) :
    ((dropRepeated before attributes).map Attribute.name).Nodup := by
  induction attributes generalizing before with
  | nil => exact List.nodup_nil
  | cons a rest ih =>
    obtain ⟨hle, hrest⟩ := List.pairwise_cons.1 h
    rw [dropRepeated]
    split
    · exact ih hrest
    · refine List.nodup_cons.2 ⟨fun hmem => ?_, ih hrest⟩
      obtain ⟨b, hb, hname⟩ := List.mem_map.1 hmem
      exact not_mem_dropRepeated hrest hle b hb hname

/-! ## Attributes that are sorted -/

theorem pairwise_sorted (attributes : List (Attribute α)) :
    (sorted attributes).Pairwise fun a b => nameLe a.name b.name = true :=
  List.pairwise_mergeSort (fun a b c => nameLe_trans a.name b.name c.name)
    (fun a b => nameLe_total a.name b.name) attributes

/-- **Attributes of one name keep their order** when they are sorted. -/
theorem filter_sorted (attributes : List (Attribute α)) (name : String) :
    (sorted attributes).filter (fun a => a.name = name) =
      attributes.filter fun a => a.name = name := by
  have hsorted : (attributes.filter fun a => a.name = name).Pairwise
      fun a b => nameLe a.name b.name = true := by
    refine List.pairwise_of_forall_mem_list fun a ha b hb => ?_
    have hsame : a.name = b.name := by
      rw [of_decide_eq_true (List.mem_filter.1 ha).2, of_decide_eq_true (List.mem_filter.1 hb).2]
    exact hsame ▸ nameLe_refl a.name
  have hsub : (attributes.filter fun a => a.name = name).Sublist (sorted attributes) :=
    List.sublist_mergeSort (fun a b c => nameLe_trans a.name b.name c.name)
      (fun a b => nameLe_total a.name b.name) hsorted List.filter_sublist
  have hfiltered := hsub.filter fun a => decide (a.name = name)
  rw [List.filter_filter] at hfiltered
  simp only [Bool.and_self] at hfiltered
  exact (hfiltered.eq_of_length
    ((List.mergeSort_perm attributes _).filter _).length_eq.symm).symm

/-- The first attribute of a name stays the first one of it. -/
theorem find?_sorted (attributes : List (Attribute α)) (name : String) :
    (sorted attributes).find? (fun a => a.name = name) =
      attributes.find? fun a => a.name = name := by
  rw [← List.head?_filter, filter_sorted, List.head?_filter]

/-! ## The schema of a declaration -/

section Declared

variable (typeName : String) (blank : α) (attributes : List (Attribute α))

/-- **A name stands for the attribute that was declared first under it.** -/
theorem find?_declared (name : String) :
    (declared typeName blank attributes).attributes.find? (fun a => a.name = name) =
      attributes.find? fun a => a.name = name :=
  (find?_dropRepeated (Option.some_ne_none name).symm).trans (find?_sorted attributes name)

theorem nodup_names_declared : (declared typeName blank attributes).names.Nodup :=
  nodup_dropRepeated (pairwise_sorted attributes)

theorem mem_declared_iff {a : Attribute α} :
    a ∈ (declared typeName blank attributes).attributes ↔
      attributes.find? (fun b => b.name = a.name) = some a := by
  rw [← find?_declared typeName blank attributes a.name]
  refine ⟨fun ha => ?_, List.mem_of_find?_eq_some⟩
  have hsome : ((declared typeName blank attributes).attributes.find?
      fun b => b.name = a.name).isSome := List.find?_isSome.2 ⟨a, ha, by simp⟩
  obtain ⟨b, hb⟩ := Option.isSome_iff_exists.1 hsome
  have hname : b.name = a.name := by simpa using List.find?_some hb
  have hsame : b = a := List.inj_on_of_nodup_map (nodup_names_declared typeName blank attributes)
    (List.mem_of_find?_eq_some hb) ha hname
  rw [hb, hsame]

theorem mem_names_declared {name : String} :
    name ∈ (declared typeName blank attributes).names ↔ name ∈ attributes.map Attribute.name := by
  have hfound : ∀ l : List (Attribute α),
      name ∈ l.map Attribute.name ↔ (l.find? fun a => a.name = name).isSome = true := by
    intro l
    simp only [List.mem_map, List.find?_isSome, decide_eq_true_eq]
  rw [names, hfound, hfound, find?_declared]

/-- **The names of a schema** are the declared ones, sorted and each of them once. -/
theorem names_declared :
    (declared typeName blank attributes).names =
      sortedNames (attributes.map Attribute.name).dedup := by
  have hperm : (declared typeName blank attributes).names.Perm
      (sortedNames (attributes.map Attribute.name).dedup) := by
    refine .trans ((List.perm_ext_iff_of_nodup (nodup_names_declared _ _ _)
      (List.nodup_dedup _)).2 fun name => ?_) (sortedNames_perm _).symm
    rw [mem_names_declared, List.mem_dedup]
  have hsorted : (declared typeName blank attributes).names.Pairwise
      fun a b => nameLe a b = true :=
    List.pairwise_map.2 ((pairwise_sorted attributes).sublist dropRepeated_sublist)
  exact List.Perm.eq_of_pairwise (fun _ _ _ _ => nameLe_antisymm) hsorted
    (pairwise_sortedNames _) hperm

/-- **The field of a name** is the number of names that come before it. -/
theorem indexOf?_declared (name : String) :
    (declared typeName blank attributes).indexOf? name =
      if name ∈ attributes.map Attribute.name then
        some (rank (attributes.map Attribute.name).dedup name)
      else none := by
  have hnodup := List.nodup_dedup (attributes.map Attribute.name)
  rw [indexOf?, names_declared]
  split
  · rename_i hmem
    have hrank := getElem?_rank hnodup (List.mem_dedup.2 hmem)
    obtain ⟨hlt, hname⟩ := List.getElem?_eq_some_iff.1 hrank
    refine List.idxOf?_eq_some_iff.2 ⟨hlt, hname, fun j hj hsame => ?_⟩
    -- Different names stand in different places.
    have hplace := (List.Nodup.getElem_inj_iff ((sortedNames_perm _).nodup_iff.2 hnodup)).1
      (hsame.trans hname.symm)
    omega
  · rename_i hnot
    refine List.idxOf?_eq_none_iff.2 fun hmem => hnot ?_
    exact List.mem_dedup.1 ((sortedNames_perm _).mem_iff.1 hmem)

/-- **The strict way** to make a schema fails exactly where a name was declared twice. -/
theorem new?_eq :
    new? typeName blank attributes =
      match firstRepeated? (sortedNames (attributes.map Attribute.name)) with
      | some name => .error (.invalidSchema typeName (.declaredTwice name))
      | none => .ok (declared typeName blank attributes) := by
  rw [new?, names_sorted]
  cases hrepeated : firstRepeated? (sortedNames (attributes.map Attribute.name)) with
  | some name => rfl
  | none =>
    have hnodup := (sortedNames_perm _).nodup_iff.1
      ((firstRepeated?_eq_none_iff (pairwise_sortedNames _)).1 hrepeated)
    exact congrArg Except.ok (new?_eq_declared typeName blank hnodup).2.symm

theorem new?_eq_ok_iff {s : Schema α} :
    new? typeName blank attributes = .ok s ↔
      (attributes.map Attribute.name).Nodup ∧ s = declared typeName blank attributes := by
  have hnodup := (firstRepeated?_eq_none_iff (pairwise_sortedNames _)).trans
    (sortedNames_perm (attributes.map Attribute.name)).nodup_iff
  rw [new?_eq, ← hnodup]
  cases firstRepeated? (sortedNames (attributes.map Attribute.name)) with
  | some name => simp
  | none => simp [eq_comm]

/-- The name in a refusal was declared twice. -/
theorem duplicate_of_new? {err : ClientError} (h : new? typeName blank attributes = .error err) :
    ∃ name, (attributes.map Attribute.name).Duplicate name ∧
      err = .invalidSchema typeName (.declaredTwice name) := by
  rw [new?_eq] at h
  cases hrepeated : firstRepeated? (sortedNames (attributes.map Attribute.name)) with
  | none =>
    rw [hrepeated] at h
    cases h
  | some name =>
    rw [hrepeated] at h
    have htwice := List.duplicate_iff_two_le_count.1 (duplicate_of_firstRepeated? hrepeated)
    rw [(sortedNames_perm _).count_eq] at htwice
    exact ⟨name, List.duplicate_iff_two_le_count.2 htwice, (Except.error.inj h).symm⟩

/-- **The schema of a declaration.** The strict way to make a schema succeeds exactly where no
name was declared twice, and makes the same schema as the other way; else its failure names one
that was. The names of a schema strictly rise in byte order. They are the declared ones, each with
the attribute that was declared first under it. So schemas of the same names, declared in any
order and any number of times, have the same names in the same fields and the same fingerprint.
The field of a name is the number of different declared names that come before it. -/
theorem construction_sorts_names :
    let names := attributes.map Attribute.name
    let s := declared typeName blank attributes
    ((∃ s', new? typeName blank attributes = .ok s') ↔ names.Nodup) ∧
      (∀ s', new? typeName blank attributes = .ok s' →
        s'.attributes = s.attributes ∧ s'.fingerprint = s.fingerprint) ∧
      (∀ err, new? typeName blank attributes = .error err →
        ∃ name, names.Duplicate name ∧ err = .invalidSchema typeName (.declaredTwice name)) ∧
      s.names.Pairwise (fun a b => nameLt a b = true) ∧
      (∀ name, name ∈ s.names ↔ name ∈ names) ∧
      (∀ a, a ∈ s.attributes ↔ attributes.find? (fun b => b.name = a.name) = some a) ∧
      (∀ {β : Type} (otherType : String) (otherBlank : β) (others : List (Attribute β)),
        (∀ name, name ∈ others.map Attribute.name ↔ name ∈ names) →
          let s' := declared otherType otherBlank others
          s'.names = s.names ∧ (∀ name, s'.indexOf? name = s.indexOf? name) ∧
            s'.fingerprint = s.fingerprint) ∧
      ∀ name, s.indexOf? name = if name ∈ names then some (rank names.dedup name) else none := by
  intro names s
  refine ⟨?_, fun s' hs' => ?_, fun err herr => duplicate_of_new? _ _ _ herr, ?_, fun name =>
    mem_names_declared _ _ _, fun a => mem_declared_iff _ _ _, ?_, indexOf?_declared _ _ _⟩
  · simp only [new?_eq_ok_iff, exists_and_left, exists_eq, and_true, names]
  · rw [((new?_eq_ok_iff _ _ _).1 hs').2]
    exact ⟨rfl, rfl⟩
  · have hstrict := strict_sortedNames (List.nodup_dedup names)
    rwa [← names_declared typeName blank attributes] at hstrict
  · intro β otherType otherBlank others hsame s'
    have hnames : s'.names = s.names := by
      rw [names_declared, names_declared]
      refine sortedNames_eq_of_perm ((List.perm_ext_iff_of_nodup (List.nodup_dedup _)
        (List.nodup_dedup _)).2 fun name => ?_)
      rw [List.mem_dedup, List.mem_dedup, hsame]
    refine ⟨hnames, fun name => ?_, ?_⟩
    · rw [indexOf?, indexOf?, hnames]
    · rw [fingerprint, fingerprint, hnames]

end Declared

/-- Four names of which two are the same: the first of them counts, a capital letter comes before
the other signs, and the names are those of another order without the repetition. -/
theorem construction_sorts_names_repeated :
    let t : TupleType := ⟨"Cases", ["b", "B", "_x", "b"], true⟩
    let t' : TupleType := ⟨"Other", ["_x", "b", "B"], true⟩
    let s := declared t.typeName t.blank t.attributes
    ¬ (∃ s', t.schema? = .ok s') ∧ Attribute.entry "b" 0 ∈ s.attributes ∧
      s.indexOf? "B" = some 0 ∧ s.indexOf? "b" = some 2 ∧ s.indexOf? "c" = none ∧
      (declared t'.typeName t'.blank t'.attributes).fingerprint = s.fingerprint := by
  intro t t' s
  obtain ⟨hnew, -, -, -, -, hfirst, hsame, hindex⟩ :=
    construction_sorts_names t.typeName t.blank t.attributes
  obtain ⟨-, -, hfingerprint⟩ := hsame t'.typeName t'.blank t'.attributes (fun name => by
    simp only [TupleType.names_attributes, t, t', List.mem_cons, List.not_mem_nil, or_false]
    tauto)
  refine ⟨fun h => ?_, (hfirst _).2 rfl, (hindex "B").trans ?_, (hindex "b").trans ?_,
    (hindex "c").trans ?_, hfingerprint⟩
  · exact absurd (hnew.1 h) (by decide)
  · decide
  · decide
  · decide

end Schema

end RecordStore
