import Membrane.Text.Invisible
import Membrane.Text.Extending

/-!
# Quoted text

`quoted` writes a text between double quotes. Quotes and backslashes are preceded by a backslash,
the usual blanks have letters, and a character that could not be seen, or would merge with its
neighbour, is written by its code point.
-/

namespace Membrane

/-- A natural number in lower-case hexadecimal. -/
def hexadecimal (n : Nat) : String := String.ofList (Nat.toDigits 16 n)

/-- The escaped form of one character. -/
def escapeChar (c : Char) : String :=
  match c with
  | '\x00' => "\\0"
  | '\t' => "\\t"
  | '\r' => "\\r"
  | '\n' => "\\n"
  | '\\' => "\\\\"
  | '"' => "\\\""
  | c =>
    if isExtending c || isInvisible c then "\\u\x7b" ++ hexadecimal c.toNat ++ "\x7d"
    else String.singleton c

/-- A text between double quotes, with every character escaped that needs it. -/
def quoted (s : String) : String :=
  "\"" ++ String.join (s.toList.map escapeChar) ++ "\""

end Membrane
