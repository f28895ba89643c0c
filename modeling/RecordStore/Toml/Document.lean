import RecordStore.Toml.Value
/-!
# TOML documents — lines, and the table they make

A document is a sequence of lines: key and value pairs, headers of tables,
and headers of further elements of arrays of tables. A pair belongs to the
table of the last header before it. Blank lines and comments count for
nothing, and neither does a byte order mark at the very beginning.
-/

namespace RecordStore

namespace Toml

/-- A line that says something. -/
inductive Line where
  /-- A value under a key. -/
  | pair (key : Key) (node : Node)
  /-- The header of a table. -/
  | table (key : Key)
  /-- The header of a further table of an array. -/
  | element (key : Key)

/-- Reads a line up to its end. -/
def line : Reader Line
  | '[' :: '[' :: rest => do
    let (key, s) ← key rest
    let s ← expectAll? [']', ']'] s
    return (.element key, ← lineEnd? s)
  | '[' :: rest => do
    let (key, s) ← key rest
    let s ← expect? ']' s
    return (.table key, ← lineEnd? s)
  | s => do
    let ((key, node), s) ← pair value s
    return (.pair key node, ← lineEnd? s)

/-- Reads all lines, as far as the fuel goes. -/
def linesWithin : Nat → List Char → Option (List Line)
  | 0, _ => none
  | fuel + 1, s =>
    match skipBlanks s with
    | [] => some []
    | s =>
      match lineEnd? s with
      | some rest => linesWithin fuel rest
      | none => (line s).bind fun (first, rest) => (linesWithin fuel rest).map (first :: ·)

/-- Reads all lines. Every line takes a character, so the characters bound the steps. -/
def lines (s : List Char) : Option (List Line) := linesWithin (s.length + 1) s

/-- A document in the making: its table, and the path of the last header. -/
structure Draft where
  root : Entries := []
  current : List String := []

namespace Draft

/-- Takes in one more line. -/
def add (d : Draft) : Line → Option Draft
  | .pair key node =>
    (within (addPair key.name node key.path) d.current d.root).map fun root => { d with root }
  | .table key =>
    (within (openTable key.name) key.path d.root).map fun root =>
      { root, current := key.path ++ [key.name] }
  | .element key =>
    (within (addTable key.name) key.path d.root).map fun root =>
      { root, current := key.path ++ [key.name] }

end Draft

/-- The table that lines make. -/
def ofLines (ls : List Line) : Option Entries := (ls.foldlM Draft.add {}).map Draft.root

/-- Drops a byte order mark. -/
def skipMark : List Char → List Char
  | '\uFEFF' :: rest => rest
  | s => s

/-- The table that a text stands for, if it is a document. -/
def parse? (s : String) : Option Entries := (lines (skipMark s.toList)).bind ofLines

end Toml

end RecordStore
