import RecordStore.Toml.Number
import RecordStore.Toml.Quotation
import RecordStore.Toml.Table
/-!
# Reading TOML keys and values

A key is a sequence of names with dots between them, all but the last of
which name tables. A value is a text, a number, a date, a truth value, an
array or an inline table; arrays and inline tables may contain one another,
but not too deeply.
-/

namespace RecordStore

namespace Toml

/-- The most names in one key. -/
def maxKeyNames : Nat := 79

/-- How deeply arrays and inline tables may be nested. -/
def maxDepth : Nat := 79

/-- Whether the character may stand in a name without quotes. -/
def isBareKey (c : Char) : Bool := c.isAlphanum || c == '_' || c == '-'

/-- Reads one name of a key. -/
def keyName (s : List Char) : Option (String × List Char) :=
  let bare := s.takeWhile isBareKey
  if bare.isEmpty then lineText s else some (String.ofList bare, s.dropWhile isBareKey)

/-- Reads a key of at most so many names, with the blanks around it. -/
def keyOfAtMost : Nat → Reader Key
  | 0, _ => none
  | count + 1, s =>
    (keyName (skipBlanks s)).bind fun (name, rest) =>
      match skipBlanks rest with
      | '.' :: rest =>
        (keyOfAtMost count rest).map fun (key, rest) => (⟨name :: key.path, key.name⟩, rest)
      | rest => some (⟨[], name⟩, rest)

/-- Reads a key. -/
def key : Reader Key := keyOfAtMost maxKeyNames

/-- Reads a key, an equals sign and a value. -/
def pair (item : Reader Node) (s : List Char) : Option ((Key × Node) × List Char) := do
  let (key, s) ← key s
  let s ← expect? '=' s
  let (node, s) ← item (skipBlanks s)
  return ((key, node), s)

/-- Reads the items of an array up to the closing bracket; a comma may follow the last. -/
def arrayItems (item : Reader Node) : Nat → Reader (List Node)
  | 0, _ => none
  | fuel + 1, s =>
    match skipFiller s with
    | ']' :: rest => some ([], rest)
    | s =>
      (item s).bind fun (node, rest) =>
        match skipFiller rest with
        | ',' :: rest =>
          (arrayItems item fuel rest).map fun (nodes, rest) => (node :: nodes, rest)
        | ']' :: rest => some ([node], rest)
        | _ => none

/-- Reads the pairs of an inline table up to the closing brace; no comma follows the last. -/
def inlinePairs (item : Reader Node) : Nat → Reader (List (Key × Node))
  | 0, _ => none
  | fuel + 1, s =>
    (pair item s).bind fun (p, rest) =>
      match skipBlanks rest with
      | ',' :: rest => (inlinePairs item fuel rest).map fun (ps, rest) => (p :: ps, rest)
      | '\x7d' :: rest => some ([p], rest)
      | _ => none

/-- Reads an inline table behind its opening brace. -/
def inlineTable (item : Reader Node) (s : List Char) : Option (Node × List Char) :=
  match skipBlanks s with
  | '\x7d' :: rest => some (.table .inline [], rest)
  | _ =>
    (inlinePairs item s.length s).bind fun (pairs, rest) =>
      (ofPairs pairs).map fun entries => (.table .inline entries, rest)

/-- Reads a value without parts. -/
def scalar (s : List Char) : Option (Node × List Char) :=
  ((quotedText s).map fun (text, rest) => (.text text, rest)).or (bareScalar s)

/-- Reads a value in which arrays and inline tables are nested at most so deeply. -/
def valueOfDepth : Nat → Reader Node
  | 0 => scalar
  | depth + 1 => fun s =>
    match s with
    | '[' :: rest =>
      (arrayItems (valueOfDepth depth) s.length rest).map fun (items, rest) =>
        (.array items, rest)
    | '\x7b' :: rest => inlineTable (valueOfDepth depth) rest
    | s => scalar s

/-- Reads a value. -/
def value : Reader Node := valueOfDepth maxDepth

end Toml

end RecordStore
