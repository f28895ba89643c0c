import RecordStore.Directory
/-!
# TOML nodes — the tree that a document stands for

A document is a table of keyed nodes. A table remembers how it came into
being, because that decides whether a later line may still add to it. Of a
number with a fraction and of a date nothing but its kind is kept, since no
setting is of these kinds.
-/

namespace RecordStore

namespace Toml

/-- The greatest integer of a document: integers have 64 bits with a sign. -/
def maxInteger : Nat := 0x7FFFFFFFFFFFFFFF

/-- How a table came into being. -/
inductive Origin where
  /-- It has a header of its own, or it is the document. -/
  | header
  /-- The header of a table below it mentions it. -/
  | implied
  /-- A dotted key mentions it. -/
  | dotted
  /-- It is written between braces. -/
  | inline
  deriving DecidableEq, Repr

/-- A value of a document. -/
inductive Node where
  | text (s : String)
  | integer (n : Int)
  | boolean (b : Bool)
  | float
  | dateTime
  | array (items : List Node)
  | table (origin : Origin) (entries : List (String × Node))
  /-- An array whose elements are tables with headers of their own. -/
  | tables (elements : List (List (String × Node)))

/-- The keyed nodes of a table. -/
abbrev Entries := List (String × Node)

namespace Node

/-- The text, where the node is one. -/
def asText? : Node → Option String
  | text s => some s
  | _ => none

/-- The truth value, where the node is one. -/
def asBoolean? : Node → Option Bool
  | boolean b => some b
  | _ => none

/-- The integer, where the node is one that is not negative. -/
def asNat? : Node → Option Nat
  | integer n => if 0 ≤ n then some n.toNat else none
  | _ => none

end Node

end Toml

end RecordStore
