import Mathlib.Data.Nat.Bitwise
import RecordStore.Query.Plan
/-!
# Matching — what a plan accepts, said without plans

A template is matched field by field, a condition by the comparisons whose
bits are set, in the order in which unset fields come before integers,
integers before texts and texts before blobs. `Matches` says this of the
fields of a record; a plan that is built accepts just these fields. A query
is refused if it has both forms or a comparator that makes no sense
(`Refused`), and for no other reason.
-/

namespace RecordStore

/-! ## Fields against integers -/

namespace Field

variable {f : Field} {n : Int32}

/-- The field comes before the integer: it is unset or a smaller integer. -/
def IsBelow (f : Field) (n : Int32) : Prop :=
  match f with
  | none => True
  | some (.int m) => m.toInt < n.toInt
  | some (.string _) => False
  | some (.blob _) => False

/-- The field comes behind the integer: it is a greater integer, a text or a blob. -/
def IsAbove (f : Field) (n : Int32) : Prop :=
  match f with
  | none => False
  | some (.int m) => n.toInt < m.toInt
  | some (.string _) => True
  | some (.blob _) => True

instance : Decidable (f.IsBelow n) := by
  unfold IsBelow
  split <;> infer_instance

instance : Decidable (f.IsAbove n) := by
  unfold IsAbove
  split <;> infer_instance

theorem compare_int_eq_lt : f.compare (some (.int n)) = .lt ↔ f.IsBelow n := by
  rcases f with _ | (m | s | bytes)
  · simp [compare, IsBelow]
  · simp only [compare, FieldValue.compare, IsBelow, Std.compare_eq_lt, Int32.lt_iff_toInt_lt]
  · exact iff_of_false (by decide : Ord.compare (2 : Nat) 1 ≠ .lt) id
  · exact iff_of_false (by decide : Ord.compare (3 : Nat) 1 ≠ .lt) id

theorem compare_int_eq_gt : f.compare (some (.int n)) = .gt ↔ f.IsAbove n := by
  rcases f with _ | (m | s | bytes)
  · simp [compare, IsAbove]
  · simp only [compare, FieldValue.compare, IsAbove, Std.compare_eq_gt, Int32.lt_iff_toInt_lt]
  · exact iff_of_true (by decide : Ord.compare (2 : Nat) 1 = .gt) trivial
  · exact iff_of_true (by decide : Ord.compare (3 : Nat) 1 = .gt) trivial

end Field

namespace FieldValue

variable {a b : FieldValue}

/-- Values of two types never compare as equal. -/
theorem compare_ne_eq (h : a.type ≠ b.type) : a.compare b ≠ .eq := by
  have hrank : a.compare b = Ord.compare a.type.rank b.type.rank := by
    cases a <;> cases b <;> first | rfl | exact absurd rfl h
  rw [hrank, ne_eq, Std.compare_eq_iff_eq, FieldType.rank_inj]
  exact h

/-- **Values compare as equal if they are equal**, in type and in content. -/
theorem compare_eq_iff : a.compare b = .eq ↔ a = b := by
  by_cases htype : a.type = b.type
  · cases a with
    | int x =>
      cases b with
      | int y => simp only [compare, Std.compare_eq_iff_eq, int.injEq]
      | string t => cases htype
      | blob c => cases htype
    | string s =>
      cases b with
      | int y => cases htype
      | string t =>
        simp only [compare, Std.compare_eq_iff_eq, Array.toList_inj, string.injEq]
        rw [← ByteArray.ext_iff, String.toByteArray_inj]
      | blob c => cases htype
    | blob x =>
      cases b with
      | int y => cases htype
      | string t => cases htype
      | blob c =>
        simp only [compare, Std.compare_eq_iff_eq, Array.toList_inj, blob.injEq]
        rw [← ByteArray.ext_iff]
  · exact iff_of_false (compare_ne_eq htype) fun h => htype (congrArg type h)

end FieldValue

theorem Field.compare_some_eq_iff {f : Field} {value : FieldValue} :
    f.compare (some value) = .eq ↔ f = some value := by
  cases f with
  | none => simp [compare]
  | some a => rw [compare_some, FieldValue.compare_eq_iff, Option.some.injEq]

/-! ## Comparators -/

namespace Comparator

variable {cmp : Comparator} {o : Ordering}

/-- Whether any of the bits is set. -/
def Has (cmp : Comparator) (bits : UInt32) : Prop := cmp.bits &&& bits ≠ 0

instance (bits : UInt32) : Decidable (cmp.Has bits) := inferInstanceAs (Decidable (_ ≠ _))

/-- The comparator makes no sense: it has no bit, or one that stands for no comparison. -/
def IsInvalid (cmp : Comparator) : Prop := cmp.bits = 0 ∨ cmp.Has (~~~0x3F)

instance : Decidable cmp.IsInvalid := inferInstanceAs (Decidable (_ ∨ _))

/-- A single bit is either not set at all or set in full. -/
theorem and_bit (bits : UInt32) (c : Comparison) : bits &&& c.bit = 0 ∨ bits &&& c.bit = c.bit := by
  -- On numbers the bit is a power of two, and the conjunction tests that one digit.
  have hpow : ∃ i, c.bit.toNat = 2 ^ i := by
    cases c with
    | equal => exact ⟨0, rfl⟩
    | notEqual => exact ⟨1, rfl⟩
    | less => exact ⟨2, rfl⟩
    | greater => exact ⟨3, rfl⟩
    | lessOrEqual => exact ⟨4, rfl⟩
    | greaterOrEqual => exact ⟨5, rfl⟩
  obtain ⟨i, hi⟩ := hpow
  simp only [← UInt32.toNat_inj, UInt32.toNat_and, hi, Nat.and_two_pow]
  cases bits.toNat.testBit i <;> simp

theorem contains_iff {c : Comparison} : cmp.contains c = true ↔ cmp.Has c.bit := by
  have hne : c.bit ≠ 0 := by cases c <;> decide
  simp only [contains, Has, beq_iff_eq]
  rcases and_bit cmp.bits c with h | h
  · rw [h]
    exact iff_of_false (Ne.symm hne) (by simp)
  · rw [h]
    exact iff_of_true rfl hne

/-- **A comparator accepts an outcome** if a comparison whose bit is set is true of it. -/
theorem accepts_iff :
    cmp.accepts o = true ↔ (cmp.Has 0x01 ∧ o = .eq) ∨ (cmp.Has 0x02 ∧ o ≠ .eq) ∨
      (cmp.Has 0x04 ∧ o = .lt) ∨ (cmp.Has 0x08 ∧ o = .gt) ∨ (cmp.Has 0x10 ∧ o ≠ .gt) ∨
      (cmp.Has 0x20 ∧ o ≠ .lt) := by
  simp only [accepts, comparisons, List.any_filter, Comparison.all, List.any_cons, List.any_nil,
    Bool.or_false, Bool.or_eq_true, Bool.and_eq_true, contains_iff, Comparison.bit,
    Comparison.holds, beq_iff_eq, bne_iff_ne]

theorem single_equal_accepts : (single .equal).accepts o = true ↔ o = .eq := by
  cases o <;> decide

theorem ofBits?_eq (bits : UInt32) :
    ofBits? bits =
      if IsInvalid ⟨bits⟩ then .error (.invalidQuery (.comparator bits)) else .ok ⟨bits⟩ := by
  simp only [ofBits?, IsInvalid, Has, knownBits]
  by_cases hzero : bits = 0
  · simp [hzero]
  · by_cases hknown : bits &&& ~~~0x3F = 0 <;> simp [hzero, hknown]

end Comparator

namespace Condition

variable {c : Condition} {f : Field}

/-- **At least one comparison whose bit is set is true of the field and the operand.** -/
def Holds (c : Condition) (f : Field) : Prop :=
  (c.comparator.Has 0x01 ∧ f = some (.int c.operand)) ∨
  (c.comparator.Has 0x02 ∧ f ≠ some (.int c.operand)) ∨
  (c.comparator.Has 0x04 ∧ f.IsBelow c.operand) ∨
  (c.comparator.Has 0x08 ∧ f.IsAbove c.operand) ∨
  (c.comparator.Has 0x10 ∧ (f.IsBelow c.operand ∨ f = some (.int c.operand))) ∨
  (c.comparator.Has 0x20 ∧ (f.IsAbove c.operand ∨ f = some (.int c.operand)))

instance : Decidable (c.Holds f) := inferInstanceAs (Decidable (_ ∨ _))

theorem accepts_iff : c.accepts f = true ↔ c.Holds f := by
  -- Of three outcomes, to differ from one is to be one of the others.
  have hle : ∀ o : Ordering, o ≠ .gt ↔ o = .lt ∨ o = .eq := by decide
  have hge : ∀ o : Ordering, o ≠ .lt ↔ o = .gt ∨ o = .eq := by decide
  simp only [accepts, Comparator.accepts_iff, Holds, hle, hge, Field.compare_int_eq_lt,
    Field.compare_int_eq_gt, Field.compare_some_eq_iff, ne_eq]

theorem validate_eq (c : Condition) :
    c.validate = if c.comparator.IsInvalid then
      .error (.invalidQuery (.comparator c.comparator.bits)) else .ok () := by
  rw [validate, Comparator.ofBits?_eq]
  split <;> rfl

end Condition

/-! ## Queries -/

/-- Every set field of the template is set to the same value. -/
def Fits (template fields : Array Field) : Prop :=
  ∀ (i : Nat) (value : FieldValue), template[i]? = some (some value) →
    fields[i]? = some (some value)

/-- **What it means for the fields of a record to match** a query of either form. -/
def Matches (template : Option (Array Field)) (conditions : List Condition)
    (fields : Array Field) : Prop :=
  (∀ t ∈ template, Fits t fields) ∧
    ∀ c ∈ conditions, ∃ f ∈ fields[c.column]?, c.Holds f

instance (template fields : Array Field) : Decidable (Fits template fields) :=
  decidable_of_iff (∀ i : Fin template.size, ∀ value ∈ template[i], fields[i.val]? = some value) (by
    constructor
    · intro h i value hi
      obtain ⟨hlt, hi⟩ := Array.getElem?_eq_some_iff.1 hi
      exact h ⟨i, hlt⟩ value hi
    · intro h i value hi
      exact h i value (Array.getElem?_eq_some_iff.2 ⟨i.isLt, hi⟩))

instance (template : Option (Array Field)) (conditions : List Condition) (fields : Array Field) :
    Decidable (Matches template conditions fields) := inferInstanceAs (Decidable (_ ∧ _))

/-- **Why a query is refused**: it has both forms, or a comparator that makes no sense. -/
def Refused {α : Type} (template : Option α) (conditions : List Condition) : Prop :=
  (template.isSome ∧ conditions ≠ []) ∨ ∃ c ∈ conditions, c.comparator.IsInvalid

instance {α : Type} (template : Option α) (conditions : List Condition) :
    Decidable (Refused template conditions) := inferInstanceAs (Decidable (_ ∨ _))

/-- Whether a query is refused depends on whether there is a template, not on which. -/
theorem refused_congr {α β : Type} {template : Option α} {other : Option β}
    {conditions : List Condition} (h : template.isSome = other.isSome) :
    Refused template conditions ↔ Refused other conditions := by
  simp only [Refused, h]

/-! ## Plans -/

namespace QueryPlan

variable {fields template : Array Field} {conditions : List Condition} {args : List MatchArg}

theorem mem_templateArgs {arg : MatchArg} {column : Nat} {l : List Field} :
    arg ∈ templateArgs column l ↔
      ∃ i value, l[i]? = some (some value) ∧ arg = ⟨column + i, .single .equal, value⟩ := by
  induction l generalizing column with
  | nil => simp [templateArgs]
  | cons f rest ih =>
    -- A field of the rest is a field of the whole one place further on.
    have hrest : (∃ i value, rest[i]? = some (some value) ∧
        arg = ⟨column + 1 + i, .single .equal, value⟩) ↔
        ∃ i value, (f :: rest)[i + 1]? = some (some value) ∧
          arg = ⟨column + (i + 1), .single .equal, value⟩ := by
      simp only [List.getElem?_cons_succ, Nat.add_assoc, Nat.add_comm 1]
    cases f with
    | none =>
      rw [templateArgs, ih, hrest]
      constructor
      · rintro ⟨i, hi⟩
        exact ⟨i + 1, hi⟩
      · rintro ⟨i, value, hi, rfl⟩
        cases i with
        | zero => cases hi
        | succ i => exact ⟨i, value, hi, rfl⟩
    | some first =>
      rw [templateArgs, List.mem_cons, ih, hrest]
      constructor
      · rintro (rfl | ⟨i, hi⟩)
        · exact ⟨0, first, rfl, rfl⟩
        · exact ⟨i + 1, hi⟩
      · rintro ⟨i, value, hi, rfl⟩
        cases i with
        | zero =>
          cases hi
          exact .inl rfl
        | succ i => exact .inr ⟨i, value, hi, rfl⟩

theorem accepts_equal_iff {column : Nat} {value : FieldValue} :
    MatchArg.accepts ⟨column, .single .equal, value⟩ fields = true ↔
      fields[column]? = some (some value) := by
  unfold MatchArg.accepts
  cases h : fields[column]? with
  | none => simp
  | some f =>
    simp only [Comparator.single_equal_accepts, Field.compare_some_eq_iff, Option.some.injEq]

/-- **The plan of a template accepts what the template fits.** -/
theorem ofTemplate_accepts_iff :
    (ofTemplate template).accepts fields = true ↔ Fits template fields := by
  simp only [accepts, ofTemplate, List.all_eq_true, mem_templateArgs, Array.getElem?_toList, Fits]
  constructor
  · intro h i value hi
    exact accepts_equal_iff.1 (by simpa using h _ ⟨i, value, hi, rfl⟩)
  · rintro h arg ⟨i, value, hi, rfl⟩
    exact accepts_equal_iff.2 (by simpa using h i value hi)

/-- The argument that a condition stands for. -/
def argOf (c : Condition) : MatchArg := ⟨c.column, c.comparator, .int c.operand⟩

theorem argOf_accepts_iff {c : Condition} :
    (argOf c).accepts fields = true ↔ ∃ f ∈ fields[c.column]?, c.Holds f := by
  simp only [MatchArg.accepts, argOf]
  cases fields[c.column]? with
  | none => simp
  | some f =>
    simp only [Option.mem_some, exists_eq_left']
    exact Condition.accepts_iff

/-- Conditions have a plan unless one of their comparators makes no sense. -/
theorem conditionArgs_eq_ok_iff :
    conditionArgs conditions = .ok args ↔
      (∀ c ∈ conditions, ¬ c.comparator.IsInvalid) ∧ args = conditions.map argOf := by
  induction conditions generalizing args with
  | nil => simp [conditionArgs, eq_comm]
  | cons c rest ih =>
    rw [conditionArgs, Condition.validate_eq]
    by_cases hc : c.comparator.IsInvalid
    · simp [hc]
    · rw [if_neg hc]
      simp only [List.forall_mem_cons, hc, not_false_eq_true, true_and]
      cases hrest : conditionArgs rest with
      | error err =>
        simp only [Except.map, reduceCtorEq, false_iff, not_and]
        intro hvalid _
        have hok := ih.2 ⟨hvalid, rfl⟩
        rw [hrest] at hok
        cases hok
      | ok found =>
        obtain ⟨hvalid, rfl⟩ := ih.1 hrest
        simp only [Except.map, Except.ok.injEq, List.map_cons, argOf]
        exact ⟨fun h => ⟨hvalid, h.symm⟩, fun h => h.2.symm⟩

/-- Why conditions have no plan. -/
theorem conditionArgs_error {err : Error} (h : conditionArgs conditions = .error err) :
    ∃ fault, err = .invalidQuery fault := by
  induction conditions with
  | nil => cases h
  | cons c rest ih =>
    rw [conditionArgs, Condition.validate_eq] at h
    split at h
    · rename_i heq
      split at heq
      · cases heq
        cases h
        exact ⟨_, rfl⟩
      · cases heq
    · cases hrest : conditionArgs rest with
      | error err' =>
        rw [hrest] at h
        cases h
        exact ih hrest
      | ok found =>
        rw [hrest] at h
        cases h

/-- **A plan that is built accepts exactly the fields that match.** -/
theorem build?_accepts_iff {template : Option (Array Field)} {plan : QueryPlan}
    (h : build? template conditions = .ok plan) :
    plan.accepts fields = true ↔ Matches template conditions fields := by
  cases template with
  | some t =>
    simp only [build?] at h
    split at h
    · rename_i hempty
      cases h
      rw [List.isEmpty_iff.1 hempty, ofTemplate_accepts_iff]
      simp [Matches]
    · cases h
  | none =>
    simp only [build?, ofConditions?] at h
    cases hargs : conditionArgs conditions with
    | error err => rw [hargs] at h; cases h
    | ok args =>
      rw [hargs] at h
      cases h
      obtain ⟨-, rfl⟩ := conditionArgs_eq_ok_iff.1 hargs
      simp only [accepts, List.all_map, List.all_eq_true, Function.comp_apply, argOf_accepts_iff,
        Matches, Option.mem_def, reduceCtorEq, false_implies, implies_true, true_and]

/-- **A plan is built unless the query is refused.** -/
theorem build?_eq_error_iff {template : Option (Array Field)} :
    (∃ err, build? template conditions = .error err) ↔ Refused template conditions := by
  cases template with
  | some t =>
    cases conditions with
    | nil => simp [build?, Refused]
    | cons c rest => simp [build?, Refused]
  | none =>
    simp only [build?, ofConditions?, Refused, Option.isSome_none, Bool.false_eq_true, false_and,
      false_or]
    cases hargs : conditionArgs conditions with
    | ok args =>
      have hvalid := (conditionArgs_eq_ok_iff.1 hargs).1
      simpa [Except.map] using hvalid
    | error err =>
      refine iff_of_true ⟨err, rfl⟩ ?_
      by_contra hnone
      have hvalid : ∀ c ∈ conditions, ¬ c.comparator.IsInvalid := by simpa using hnone
      rw [conditionArgs_eq_ok_iff.2 ⟨hvalid, rfl⟩] at hargs
      cases hargs

theorem build?_error {template : Option (Array Field)} {err : Error}
    (h : build? template conditions = .error err) : ∃ fault, err = .invalidQuery fault := by
  cases template with
  | some t =>
    simp only [build?] at h
    split at h
    · cases h
    · cases h
      exact ⟨_, rfl⟩
  | none =>
    simp only [build?, ofConditions?] at h
    cases hargs : conditionArgs conditions with
    | error err' =>
      rw [hargs] at h
      cases h
      exact conditionArgs_error hargs
    | ok args =>
      rw [hargs] at h
      cases h

end QueryPlan

end RecordStore
