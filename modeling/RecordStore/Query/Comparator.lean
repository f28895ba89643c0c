import RecordStore.Error.Basic
/-!
# Comparators — sets of comparisons

A comparator is a set of comparisons, one bit each. It accepts the outcome
of comparing a field with an operand if any comparison of the set holds of
that outcome. A comparator from outside is valid if it has at least one bit
and only known ones.
-/

namespace RecordStore

/-- A single comparison of a field with an operand. -/
inductive Comparison where
  | equal
  | notEqual
  | less
  | greater
  | lessOrEqual
  | greaterOrEqual
  deriving DecidableEq, Repr

namespace Comparison

/-- All comparisons, in increasing order of their bits. -/
def all : List Comparison := [equal, notEqual, less, greater, lessOrEqual, greaterOrEqual]

/-- The bit of the comparison. -/
def bit : Comparison → UInt32
  | equal => 0x01
  | notEqual => 0x02
  | less => 0x04
  | greater => 0x08
  | lessOrEqual => 0x10
  | greaterOrEqual => 0x20

/-- The sign of the comparison. -/
def symbol : Comparison → String
  | equal => "="
  | notEqual => "!="
  | less => "<"
  | greater => ">"
  | lessOrEqual => "<="
  | greaterOrEqual => ">="

/-- Whether the comparison holds of the outcome of comparing the field with the operand. -/
def holds : Comparison → Ordering → Bool
  | equal, o => o == .eq
  | notEqual, o => o != .eq
  | less, o => o == .lt
  | greater, o => o == .gt
  | lessOrEqual, o => o != .gt
  | greaterOrEqual, o => o != .lt

/-- The list of all comparisons leaves none out. -/
theorem mem_all (c : Comparison) : c ∈ all := by cases c <;> decide

end Comparison

/-- A set of comparisons, as bits. Unknown bits may be present. -/
structure Comparator where
  bits : UInt32
  deriving DecidableEq, Repr

namespace Comparator

/-- The comparator with one comparison. -/
def single (c : Comparison) : Comparator := ⟨c.bit⟩

/-- Whether the comparison is in the set. -/
def contains (cmp : Comparator) (c : Comparison) : Bool := cmp.bits &&& c.bit == c.bit

/-- The known bits, all together. -/
def knownBits : UInt32 := 0x3F

/-- The bits that stand for no comparison. -/
def unknownBits (cmp : Comparator) : UInt32 := cmp.bits &&& ~~~knownBits

/-- The comparisons of the set, in increasing order of their bits. -/
def comparisons (cmp : Comparator) : List Comparison := Comparison.all.filter cmp.contains

/-- A comparator from its bits, of which there must be some and all known. -/
def ofBits? (bits : UInt32) : Except Error Comparator :=
  if bits &&& ~~~knownBits = 0 ∧ bits ≠ 0 then
    .ok ⟨bits⟩
  else
    .error (.invalidQuery (.comparator bits))

/-- Whether any comparison of the set holds of the outcome. -/
def accepts (cmp : Comparator) (o : Ordering) : Bool :=
  cmp.comparisons.any fun c => c.holds o

/-- The signs of the comparisons, separated by bars; unknown bits, taken together, come last
as one question mark. -/
def text (cmp : Comparator) : String :=
  let unknown := if cmp.unknownBits = 0 then [] else ["?"]
  "|".intercalate (cmp.comparisons.map Comparison.symbol ++ unknown)

end Comparator

end RecordStore
