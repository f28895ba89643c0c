import RecordStore.Query.Comparator
import RecordStore.Field.Order
/-!
# Conditions — one column against an integer operand

A condition compares one field of a record with an integer. A field of
another type, or an unset one, compares by the order across types.
-/

namespace RecordStore

/-- The requirement that a field compares with the operand as the comparator allows. -/
structure Condition where
  column : Nat
  comparator : Comparator
  operand : Int32
  deriving DecidableEq

namespace Condition

/-- A condition with a comparator from its bits. -/
def ofBits? (column : Nat) (bits : UInt32) (operand : Int32) : Except Error Condition :=
  (Comparator.ofBits? bits).map fun comparator => ⟨column, comparator, operand⟩

/-- Fails unless the comparator is valid. -/
def validate (c : Condition) : Except Error Unit :=
  (Comparator.ofBits? c.comparator.bits).map fun _ => ()

/-- Whether a field meets the condition. -/
def accepts (c : Condition) (f : Field) : Bool :=
  c.comparator.accepts (f.compare (some (.int c.operand)))

/-- How messages show the condition. -/
def text (c : Condition) : String :=
  s!"field[{c.column}] {c.comparator.text} {c.operand.toInt}"

end Condition

end RecordStore
