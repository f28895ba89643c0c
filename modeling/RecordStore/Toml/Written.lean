import RecordStore.Text.Hex
import RecordStore.Toml.Node
/-!
# Written TOML — the text of a document

A document is written line by line: a name, an equals sign and a value. A
text takes the first of five forms that can hold it: between double quotes
or single quotes as it is, the same with three quotes, and else between
double quotes with escapes. Only a form with three quotes holds line ends,
and it begins with one where the text has one.
-/

namespace RecordStore

namespace Toml

/-! ## What a text contains -/

/-- Whether the character must be escaped wherever it stands: a control character other than
the tab and the line feed. -/
def isControl (c : Char) : Bool := (c.toNat < 0x20 && c != '\t' && c != '\n') || c.toNat == 0x7F

/-- The length of the longest run of a character, given the length of a run right before. -/
def longestRun (c : Char) (before : Nat) : List Char → Nat
  | [] => before
  | d :: rest => if d = c then longestRun c (before + 1) rest else max before (longestRun c 0 rest)

/-! ## The five forms -/

/-- The upper-case hexadecimal digits of a code point, at least four. -/
def codeDigits (c : Char) : List Char :=
  List.leftpad 4 '0' ((Text.hexDigits c.toNat).map Char.toUpper)

/-- The escape of a character that cannot stand for itself between double quotes, quotes
and line feeds apart. -/
def escape? (c : Char) : Option (List Char) :=
  if c = '\t' then some ['\\', 't']
  else if c = '\x08' then some ['\\', 'b']
  else if c = '\x0c' then some ['\\', 'f']
  else if c = '\r' then some ['\\', 'r']
  else if c = '\\' then some ['\\', '\\']
  else if isControl c then some ('\\' :: 'u' :: codeDigits c)
  else none

/-- The inside of a text between double quotes. -/
def basicLine (s : List Char) : List Char :=
  s.flatMap fun c =>
    if c = '"' then ['\\', '"'] else if c = '\n' then ['\\', 'n'] else (escape? c).getD [c]

/-- The inside of a text between three double quotes, behind a run of quotes. Every third
quote of a run is escaped, and the run begins anew. -/
def basicLines (run : Nat) : List Char → List Char
  | [] => []
  | c :: rest =>
    if c = '"' then
      if run = 2 then '\\' :: '"' :: basicLines 0 rest else '"' :: basicLines (run + 1) rest
    else
      (escape? c).getD [c] ++ basicLines 0 rest

/-- The form in which a text is written. -/
inductive TextForm where
  /-- Between double quotes. -/
  | basic
  /-- Between single quotes. -/
  | literal
  /-- Between three double quotes. -/
  | basicTriple
  /-- Between three single quotes. -/
  | literalTriple
  deriving DecidableEq, Repr

namespace TextForm

/-- The first form that can hold the text, and where none can without escapes, the form for
a text on one line or on several. -/
def of (s : List Char) : TextForm :=
  let hasNewline := s.contains '\n'
  let hasControl := s.any isControl
  let hasBackslash := s.contains '\\'
  if !hasBackslash && !s.contains '"' && !hasNewline && !hasControl then .basic
  else if !s.contains '\'' && !hasNewline && !hasControl then .literal
  else if !hasBackslash && longestRun '"' 0 s ≤ 2 && !hasControl then .basicTriple
  else if !hasControl && longestRun '\'' 0 s ≤ 2 then .literalTriple
  else if hasNewline then .basicTriple
  else .basic

/-- The quotes around a text in the form. -/
def quotes : TextForm → List Char
  | basic => ['"']
  | literal => ['\'']
  | basicTriple => ['"', '"', '"']
  | literalTriple => ['\'', '\'', '\'']

/-- The inside of a text in the form. -/
def body (s : List Char) : TextForm → List Char
  | basic => basicLine s
  | literal | literalTriple => s
  | basicTriple => basicLines 0 s

/-- The line end behind the opening quotes, where the form and the text ask for one. -/
def lead (s : List Char) : TextForm → List Char
  | basic | literal => []
  | basicTriple | literalTriple => if s.contains '\n' then ['\n'] else []

end TextForm

/-- A text between quotes. -/
def writtenText (s : List Char) : List Char :=
  let form := TextForm.of s
  form.quotes ++ form.lead s ++ form.body s ++ form.quotes

/-! ## Lines -/

/-- A value that can be written. -/
inductive Plain where
  | text (s : String)
  | natural (n : Nat)
  | boolean (b : Bool)
  deriving DecidableEq, Repr

namespace Plain

/-- The value as it is written; an integer must fit into 64 bits with a sign. -/
def written? : Plain → Option (List Char)
  | text s => some (writtenText s.toList)
  | natural n => if n ≤ maxInteger then some (Nat.toDigits 10 n) else none
  | boolean b => some (if b then "true" else "false").toList

end Plain

/-- A line that gives a name its value. -/
def writtenPair? (name : String) (v : Plain) : Option (List Char) :=
  v.written?.map fun value => name.toList ++ [' ', '=', ' '] ++ value ++ ['\n']

/-- The lines that give names their values, if each can be written. -/
def writtenPairs? : List (String × Plain) → Option (List Char)
  | [] => some []
  | p :: rest => (writtenPair? p.1 p.2).bind fun line => (writtenPairs? rest).map (line ++ ·)

/-- The header of a table behind other lines. -/
def writtenHeader (name : String) : List Char := ['\n', '['] ++ name.toList ++ [']', '\n']

end Toml

end RecordStore
