import RecordStore.Query.Condition
/-!
# Query plans — what a record must satisfy to match

A query asks for records like a template, or for records that meet a list of
conditions. Either form reduces to a list of arguments, each on one column:
a set field of the template must be equalled, a condition must hold. A
record matches when it satisfies every argument; a column that the record
does not have is never satisfied.
-/

namespace RecordStore

/-- One requirement on one column. -/
structure MatchArg where
  column : Nat
  comparator : Comparator
  value : FieldValue
  deriving DecidableEq

namespace MatchArg

/-- Whether the fields of a record satisfy the argument. -/
def accepts (arg : MatchArg) (fields : Array Field) : Bool :=
  match fields[arg.column]? with
  | some field => arg.comparator.accepts (field.compare (some arg.value))
  | none => false

/-- How messages show the argument. -/
def text (arg : MatchArg) : String :=
  s!"field[{arg.column}] {arg.comparator.text} {arg.value.text}"

end MatchArg

/-- The requirements of a query, all of which a match satisfies. -/
structure QueryPlan where
  args : List MatchArg
  deriving DecidableEq

namespace QueryPlan

/-- The plan of a template: equality on every set field, from the given column on. -/
def templateArgs (column : Nat) : List Field → List MatchArg
  | [] => []
  | none :: rest => templateArgs (column + 1) rest
  | some value :: rest => ⟨column, .single .equal, value⟩ :: templateArgs (column + 1) rest

/-- The plan that a template record stands for. -/
def ofTemplate (fields : Array Field) : QueryPlan := ⟨templateArgs 0 fields.toList⟩

/-- The arguments of a list of conditions, unless a comparator in it is invalid. -/
def conditionArgs : List Condition → Except Error (List MatchArg)
  | [] => .ok []
  | c :: rest =>
    match c.validate with
    | .error e => .error e
    | .ok () =>
      (conditionArgs rest).map fun args => ⟨c.column, c.comparator, .int c.operand⟩ :: args

/-- The plan that a list of conditions stands for. -/
def ofConditions? (conditions : List Condition) : Except Error QueryPlan :=
  (conditionArgs conditions).map QueryPlan.mk

/-- The plan of a query in either form. A template and conditions exclude each other; with
neither, every record matches. -/
def build? (template : Option (Array Field)) (conditions : List Condition) :
    Except Error QueryPlan :=
  match template with
  | some fields =>
    if conditions.isEmpty then .ok (ofTemplate fields) else .error (.invalidQuery .conflict)
  | none => ofConditions? conditions

/-- Whether a record with these fields matches. -/
def accepts (plan : QueryPlan) (fields : Array Field) : Bool :=
  plan.args.all fun arg => arg.accepts fields

/-- The number of arguments. -/
def argCount (plan : QueryPlan) : Nat := plan.args.length

/-- How messages show the plan. -/
def text (plan : QueryPlan) : String :=
  if plan.args.isEmpty then "<all>" else " AND ".intercalate (plan.args.map MatchArg.text)

end QueryPlan

end RecordStore
