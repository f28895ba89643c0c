import RecordStore.Toml.Node
/-!
# TOML tables — what may be added where

A key or header that leads through a table which does not exist yet makes
it. No name is given a value twice, and a table that is complete takes
nothing more: one between braces not at all, one with a header not through
dotted keys from elsewhere, and one made by dotted keys gets no header. A
name that stands for several tables stands for the last of them.
-/

namespace RecordStore

namespace Toml

/-- A key: the tables it leads through, and the name in the last of them. -/
structure Key where
  path : List String
  name : String
  deriving DecidableEq, Repr

namespace Origin

/-- Whether a dotted key may lead through a table of this origin, and end in it if it is the
last of its path. -/
def acceptsDotted (isLast : Bool) : Origin → Bool
  | dotted => true
  | implied => !isLast
  | header | inline => false

end Origin

/-- Changes the last element of a list. -/
def changeLast {α : Type} (f : α → Option α) : List α → Option (List α)
  | [] => none
  | [a] => (f a).map fun a => [a]
  | a :: rest => (changeLast f rest).map fun rest => a :: rest

/-- Adds a value under a name that is still free. -/
def addValue (name : String) (node : Node) (entries : Entries) : Option Entries :=
  if (Directory.lookup name entries).isSome then none else some (entries ++ [(name, node)])

/-- Adds a value under a dotted key: a path of tables and a name. -/
def addPair (name : String) (node : Node) : List String → Entries → Option Entries
  | [], entries => addValue name node entries
  | step :: path, entries =>
    let put (below : Node) := Directory.update step below entries
    match Directory.lookup step entries with
    | none => (addPair name node path []).map fun t => put (.table .dotted t)
    | some (.table origin t) =>
      if origin.acceptsDotted path.isEmpty then
        (addPair name node path t).map fun t => put (.table origin t)
      else
        none
    | some (.tables ts) =>
      if path.isEmpty then
        none
      else
        (changeLast (addPair name node path) ts).map fun ts => put (.tables ts)
    | some _ => none

/-- The table of key and value pairs, in their order. -/
def ofPairs (pairs : List (Key × Node)) : Option Entries :=
  pairs.foldlM (fun entries p => addPair p.1.name p.2 p.1.path entries) []

/-- Changes the table that the path of a header leads to. -/
def within (change : Entries → Option Entries) : List String → Entries → Option Entries
  | [], entries => change entries
  | step :: path, entries =>
    let put (below : Node) := Directory.update step below entries
    match Directory.lookup step entries with
    | none => (within change path []).map fun t => put (.table .implied t)
    | some (.table .inline _) => none
    | some (.table origin t) => (within change path t).map fun t => put (.table origin t)
    | some (.tables ts) => (changeLast (within change path) ts).map fun ts => put (.tables ts)
    | some _ => none

/-- Gives the table under a name its header. -/
def openTable (name : String) (entries : Entries) : Option Entries :=
  match Directory.lookup name entries with
  | none => some (Directory.update name (.table .header []) entries)
  | some (.table .implied t) => some (Directory.update name (.table .header t) entries)
  | some _ => none

/-- Adds a table to those under a name. -/
def addTable (name : String) (entries : Entries) : Option Entries :=
  match Directory.lookup name entries with
  | none => some (Directory.update name (.tables [[]]) entries)
  | some (.tables ts) => some (Directory.update name (.tables (ts ++ [[]])) entries)
  | some _ => none

end Toml

end RecordStore
