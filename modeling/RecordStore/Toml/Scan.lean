/-!
# Scanning TOML — readers, blanks, comments and line ends

A reader takes what it reads from the front of the characters and gives it
with the characters that follow, or fails. Blanks separate the parts of a
line; inside an array line ends and comments separate as well.
-/

namespace RecordStore

namespace Toml

/-- Reads something from the front of the characters. -/
abbrev Reader (α : Type) := List Char → Option (α × List Char)

/-- Whether the character separates the parts of a line. -/
def isBlank (c : Char) : Bool := c == ' ' || c == '\t'

/-- Whether the character may stand in a comment, and with further exceptions in a string:
any but the control characters, of which the tab is allowed. -/
def isPlain (c : Char) : Bool := c == '\t' || (0x20 ≤ c.toNat && c.toNat != 0x7F)

/-- Drops blanks. -/
def skipBlanks (s : List Char) : List Char := s.dropWhile isBlank

/-- Drops a comment, where one begins. -/
def skipComment : List Char → List Char
  | '#' :: rest => rest.dropWhile isPlain
  | s => s

/-- Drops a line end: a line feed, or a carriage return with a line feed. -/
def newline? : List Char → Option (List Char)
  | '\n' :: rest => some rest
  | '\r' :: '\n' :: rest => some rest
  | _ => none

/-- Drops what may stand behind the last part of a line, with the end of the line or of the
document. -/
def lineEnd? (s : List Char) : Option (List Char) :=
  match skipComment (skipBlanks s) with
  | [] => some []
  | rest => newline? rest

/-- Drops blanks, comments and line ends, as far as the fuel goes. -/
def skipLines : Nat → List Char → List Char
  | 0, s => s
  | fuel + 1, s =>
    match newline? (skipComment (skipBlanks s)) with
    | some rest => skipLines fuel rest
    | none => skipBlanks s

/-- Drops all that may stand between the parts of an array. -/
def skipFiller (s : List Char) : List Char := skipLines s.length s

/-- Drops the given character. -/
def expect? (c : Char) : List Char → Option (List Char)
  | d :: rest => if d = c then some rest else none
  | [] => none

/-- Drops the given characters, one after the other. -/
def expectAll? : List Char → List Char → Option (List Char)
  | [], s => some s
  | c :: cs, s => (expect? c s).bind (expectAll? cs)

/-- The value of a hexadecimal digit. -/
def hexValue? (c : Char) : Option Nat :=
  if c.isDigit then some (c.toNat - '0'.toNat)
  else if 'a' ≤ c ∧ c ≤ 'f' then some (c.toNat - 'a'.toNat + 10)
  else if 'A' ≤ c ∧ c ≤ 'F' then some (c.toNat - 'A'.toNat + 10)
  else none

/-- The number whose digits in a base are given, most significant first. -/
def numberOf (base : Nat) (digits : List Nat) : Nat :=
  digits.foldl (fun n d => n * base + d) 0

end Toml

end RecordStore
