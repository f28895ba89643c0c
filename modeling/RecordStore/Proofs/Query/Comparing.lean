import RecordStore.Proofs.Query.Matching
/-!
# Comparing — fields in order, and the comparisons that hold of them

Every field has a place in one order (`Field.Before`): unset fields come
first, then integers by size, then texts and blobs, both byte by byte. To
compare two fields is to compare the ranks of their types, then their
integers, then their bytes (`Field.compare_eq_compareLex`), so that the
comparison is total and transitive because these three are. A single
comparison then holds of two fields as the order has it
(`fields_are_ordered`).
-/

namespace RecordStore

namespace Field

variable {a b c : Field}

/-! ## The order -/

/-- **What comes before what**: an unset field before every value, values of one type by what they
hold, and values of two types by the rank of their types. -/
inductive Before : Field → Field → Prop
  | unset (v : FieldValue) : Before none (some v)
  | int {m n : Int32} (h : m < n) : Before (some (.int m)) (some (.int n))
  | string {s t : String} (h : s.toByteArray.data.toList < t.toByteArray.data.toList) :
      Before (some (.string s)) (some (.string t))
  | blob {x y : ByteArray} (h : x.data.toList < y.data.toList) :
      Before (some (.blob x)) (some (.blob y))
  | type {v w : FieldValue} (h : v.type.rank < w.type.rank) : Before (some v) (some w)

/-- Bytes compare as lists are ordered: by the first byte in which they differ, and a part that
the other one begins with comes first. -/
theorem compare_bytes_eq_lt {x y : List UInt8} : Ord.compare x y = .lt ↔ x < y := by
  induction x generalizing y with
  | nil =>
    cases y with
    | nil => simp
    | cons v rest => simp
  | cons u rest ih =>
    cases y with
    | nil => simp
    | cons v rest' =>
      rw [List.compare_cons_cons, Ordering.then_eq_lt, List.cons_lt_cons_iff, ih,
        Std.compare_eq_lt, Std.compare_eq_iff_eq]

/-- The comparison of two fields finds the one that comes first. -/
theorem compare_eq_lt_iff : a.compare b = .lt ↔ a.Before b := by
  constructor
  · intro h
    rcases a with _ | v
    · rcases b with _ | w
      · cases h
      · exact .unset w
    · rcases b with _ | w
      · cases h
      · cases v <;> cases w
        case int.int m n => exact .int (Std.compare_eq_lt.1 h)
        case string.string s t => exact .string (compare_bytes_eq_lt.1 h)
        case blob.blob x y => exact .blob (compare_bytes_eq_lt.1 h)
        all_goals exact .type (Nat.compare_eq_lt.1 h)
  · intro h
    cases h with
    | unset w => rfl
    | int h => exact Std.compare_eq_lt.2 h
    | string h => exact compare_bytes_eq_lt.2 h
    | blob h => exact compare_bytes_eq_lt.2 h
    | @type v w h =>
      cases v <;> cases w
      case int.int => cases Nat.lt_irrefl _ h
      case string.string => cases Nat.lt_irrefl _ h
      case blob.blob => cases Nat.lt_irrefl _ h
      all_goals exact Nat.compare_eq_lt.2 h

/-! ## Its laws -/

/-- The rank of the type of a field; an unset field ranks below every type. -/
def rank (f : Field) : Nat := f.elim 0 fun v => v.type.rank

/-- The integer in a field, where it holds one. -/
def integer (f : Field) : Int32 := (f.bind FieldValue.asInt?).getD 0

/-- The bytes in a field, where it holds a text or a blob. -/
def bytes : Field → List UInt8
  | some (.string s) => s.toByteArray.data.toList
  | some (.blob x) => x.data.toList
  | _ => []

/-- **Fields compare by rank, then by integer, then by bytes.** What a field does not hold is the
same for all fields of its type. -/
theorem compare_eq_compareLex :
    compare = compareLex (compareOn rank) (compareLex (compareOn integer) (compareOn bytes)) := by
  funext a b
  rcases a with _ | (_ | _ | _)
  all_goals rcases b with _ | (_ | _ | _)
  all_goals simp [compare, FieldValue.compare, compareLex, compareOn, rank, integer, bytes,
    FieldValue.type, FieldType.rank, FieldValue.asInt?, Nat.compare_eq_ite_lt]

instance : Std.TransCmp compare := by
  rw [compare_eq_compareLex]
  infer_instance

theorem compare_eq_iff : a.compare b = .eq ↔ a = b := by
  cases b with
  | none => cases a <;> simp [compare]
  | some w => exact compare_some_eq_iff

end Field

/-! ## Single comparisons -/

namespace Comparator

/-- A comparator with one comparison accepts what the comparison holds of. -/
theorem single_accepts (c : Comparison) (o : Ordering) : (single c).accepts o = c.holds o := by
  cases c <;> cases o <;> rfl

end Comparator

/-- **Fields are in a total order, and the comparisons agree with it.** For all fields, unset ones
and those of different types among them, the comparison finds the one that comes first. Compared
the other way round the outcome is reversed; fields compare as equal exactly if they are equal; and
what comes before the same field, or is equal to it, comes before what follows. So of a field and
an operand exactly one of three comparisons is true, and the other three are what their signs
say. -/
theorem fields_are_ordered (a b c : Field) :
    let accepts := fun comparison => (Comparator.single comparison).accepts (a.compare b) = true
    (a.compare b = .lt ↔ a.Before b) ∧ b.compare a = (a.compare b).swap ∧
      (a.compare b = .eq ↔ a = b) ∧
      ((a.compare b).isLE = true → (b.compare c).isLE = true → (a.compare c).isLE = true) ∧
      (∃! comparison, comparison ∈ [.less, .equal, .greater] ∧ accepts comparison) ∧
      (accepts .lessOrEqual ↔ accepts .less ∨ accepts .equal) ∧
      (accepts .greaterOrEqual ↔ accepts .greater ∨ accepts .equal) ∧
      (accepts .notEqual ↔ ¬ accepts .equal) := by
  intro accepts
  refine ⟨Field.compare_eq_lt_iff, Std.OrientedCmp.eq_swap, Field.compare_eq_iff,
    Std.TransCmp.isLE_trans, ?_⟩
  simp only [accepts, Comparator.single_accepts]
  cases a.compare b with
  | lt => decide
  | eq => decide
  | gt => decide

/-- The largest integer comes before the empty text and this before a blob, so that the integer
comes before the blob. -/
theorem fields_are_ordered_across_types :
    let n : Field := some (.int 2147483647)
    let s : Field := some (.string "")
    let x : Field := some (.blob ⟨#[0xF9]⟩)
    (n.compare s).isLE = true ∧ (s.compare x).isLE = true ∧ (n.compare x).isLE = true := by
  intro n s x
  obtain ⟨-, -, -, htrans, -⟩ := fields_are_ordered n s x
  exact ⟨rfl, rfl, htrans rfl rfl⟩

end RecordStore
