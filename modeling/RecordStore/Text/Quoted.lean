import RecordStore.Text.Hex
import RecordStore.Text.Unprintable
/-!
# Quoted texts — the form in which diagnostics show a text

A quoted text stands between double quotes. The quote, the backslash and
the common control characters have two-character escapes; every other
unprintable character is written as its code point in hexadecimal between
braces. The single quote stands for itself.
-/

namespace RecordStore

namespace Text

/-- What a character becomes inside a quoted text. -/
def quotedChar (c : Char) : List Char :=
  match c with
  | '\x00' => ['\\', '0']
  | '\t' => ['\\', 't']
  | '\r' => ['\\', 'r']
  | '\n' => ['\\', 'n']
  | '"' => ['\\', '"']
  | '\\' => ['\\', '\\']
  | c =>
    if isUnprintable c then ['\\', 'u', '\x7b'] ++ hexDigits c.toNat ++ ['\x7d'] else [c]

/-- A text between double quotes, with its special characters escaped. -/
def quoted (s : String) : String :=
  String.ofList ('"' :: (s.toList.flatMap quotedChar ++ ['"']))

/-- Texts quoted one by one, between brackets. -/
def quotedList (texts : List String) : String :=
  "[" ++ ", ".intercalate (texts.map quoted) ++ "]"

end Text

end RecordStore
