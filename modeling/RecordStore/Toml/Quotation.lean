import RecordStore.Toml.Scan
/-!
# Reading TOML strings — four ways to quote a text

A text stands between double or single quotes, one or three of them. With
three quotes it may run over several lines, and a line end right behind the
opening quotes does not count. Between double quotes a backslash begins an
escape. Every form is read piece by piece up to its closing quotes.
-/

namespace RecordStore

namespace Toml

/-- Reads pieces up to the closing quotes and joins them, with what the closing quotes
contribute themselves. -/
def readUntil (close piece : Reader (List Char)) : Nat → Reader (List Char)
  | 0, _ => none
  | fuel + 1, s =>
    match close s with
    | some closed => some closed
    | none =>
      (piece s).bind fun (front, rest) =>
        (readUntil close piece fuel rest).map fun (back, rest) => (front ++ back, rest)

/-- Reads a whole string. Every piece takes a character, so the characters bound the steps. -/
def readString (close piece : Reader (List Char)) (s : List Char) :
    Option (String × List Char) :=
  (readUntil close piece (s.length + 1) s).map fun (body, rest) => (String.ofList body, rest)

/-! ## Escapes -/

/-- The character with the given code point, where there is one. -/
def charOf? (n : Nat) : Option Char := if n.isValidChar then some (Char.ofNat n) else none

/-- Reads a code point of exactly so many hexadecimal digits. -/
def codePoint (count : Nat) (s : List Char) : Option (List Char × List Char) :=
  if s.length < count then
    none
  else
    ((s.take count).mapM hexValue?).bind fun digits =>
      (charOf? (numberOf 16 digits)).map fun c => ([c], s.drop count)

/-- Reads what follows a backslash as one character. -/
def escaped : Reader (List Char)
  | 'b' :: rest => some (['\x08'], rest)
  | 't' :: rest => some (['\t'], rest)
  | 'n' :: rest => some (['\n'], rest)
  | 'f' :: rest => some (['\x0c'], rest)
  | 'r' :: rest => some (['\r'], rest)
  | '"' :: rest => some (['"'], rest)
  | '\\' :: rest => some (['\\'], rest)
  | 'u' :: rest => codePoint 4 rest
  | 'U' :: rest => codePoint 8 rest
  | _ => none

/-- Drops blanks and line ends, as far as the fuel goes. -/
def skipSpace : Nat → List Char → List Char
  | 0, s => s
  | fuel + 1, s =>
    match newline? (skipBlanks s) with
    | some rest => skipSpace fuel rest
    | none => skipBlanks s

/-- Reads what follows a backslash at the end of a line: the line end and all the space up to
the next character count for nothing. -/
def continued (s : List Char) : Option (List Char × List Char) :=
  (newline? (skipBlanks s)).map fun rest => ([], skipSpace rest.length rest)

/-! ## The pieces and ends of the four forms -/

/-- Closes at one quote. -/
def closeSingle (quote : Char) (s : List Char) : Option (List Char × List Char) :=
  (expect? quote s).map fun rest => ([], rest)

/-- Closes at three quotes. Up to two more right before them belong to the text. -/
def closeTriple (quote : Char) (s : List Char) : Option (List Char × List Char) :=
  let run := min 5 (s.takeWhile (· == quote)).length
  if run < 3 then none else some (List.replicate (run - 3) quote, s.drop run)

/-- Reads a character that stands for itself. -/
def plainPiece (stands : Char → Bool) : Reader (List Char)
  | c :: rest => if isPlain c && stands c then some ([c], rest) else none
  | [] => none

/-- Reads a line end as a line feed. -/
def newlinePiece (s : List Char) : Option (List Char × List Char) :=
  (newline? s).map fun rest => (['\n'], rest)

/-- A piece of a text between double quotes. -/
def basicPiece : Reader (List Char)
  | '\\' :: rest => escaped rest
  | s => plainPiece (· != '"') s

/-- A piece of a text between single quotes. -/
def literalPiece : Reader (List Char) := plainPiece (· != '\'')

/-- A piece of a text between three double quotes. -/
def basicLinesPiece : Reader (List Char)
  | '\\' :: rest => (continued rest).or (escaped rest)
  | s => (newlinePiece s).or (plainPiece (fun _ => true) s)

/-- A piece of a text between three single quotes. -/
def literalLinesPiece (s : List Char) : Option (List Char × List Char) :=
  (newlinePiece s).or (plainPiece (fun _ => true) s)

/-- Drops the line end right behind opening quotes. -/
def skipFirstNewline (s : List Char) : List Char := (newline? s).getD s

/-- Reads a text that stands on one line. -/
def lineText : Reader String
  | '"' :: rest => readString (closeSingle '"') basicPiece rest
  | '\'' :: rest => readString (closeSingle '\'') literalPiece rest
  | _ => none

/-- Reads a text in any of the four forms. -/
def quotedText : Reader String
  | '"' :: '"' :: '"' :: rest =>
    readString (closeTriple '"') basicLinesPiece (skipFirstNewline rest)
  | '\'' :: '\'' :: '\'' :: rest =>
    readString (closeTriple '\'') literalLinesPiece (skipFirstNewline rest)
  | s => lineText s

end Toml

end RecordStore
