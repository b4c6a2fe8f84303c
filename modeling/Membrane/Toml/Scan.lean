/-!
# Scanning: blanks, comments and text

The small parts of a document. A scanner takes the characters ahead and gives what it read with the
characters after it, or nothing. Text comes in four forms: between single or triple quotes, with
backslash escapes or without.
-/

namespace Membrane.Toml

/-- Reads from the characters ahead. -/
abbrev Scanner (α : Type) := List Char → Option (α × List Char)

/-! ## Blanks, ends of lines and comments -/

/-- A space or a tab. -/
def isBlank (c : Char) : Bool := c = ' ' || c = '\t'

/-- Skips spaces and tabs. -/
def skipBlanks (s : List Char) : List Char := s.dropWhile isBlank

/-- What follows a line break. -/
def afterLineBreak? : List Char → Option (List Char)
  | '\n' :: rest => some rest
  | '\r' :: '\n' :: rest => some rest
  | _ => none

/-- A character that may stand anywhere on a line: a tab, or no control character. -/
def isLineChar (c : Char) : Bool := c = '\t' || (32 ≤ c.toNat && c.toNat != 127)

/-- Skips a comment up to the end of its line. -/
def skipComment : List Char → List Char
  | '#' :: rest => rest.dropWhile isLineChar
  | s => s

/-- What follows the end of a line; the end of the document ends a line too. -/
def afterLineEnd? : List Char → Option (List Char)
  | [] => some []
  | s => afterLineBreak? s

/-- What follows the rest of a line that holds at most blanks and a comment. -/
def afterLine? (s : List Char) : Option (List Char) := afterLineEnd? (skipComment (skipBlanks s))

/-- Skips blanks, line breaks and whole comments, at most as many as given. -/
def skipGapsWithin : Nat → List Char → List Char
  | 0, s => s
  | n + 1, s =>
    match afterLineBreak? (skipComment (skipBlanks s)) with
    | some rest => skipGapsWithin n rest
    | none => skipBlanks s

/-- Skips blanks, line breaks and whole comments. -/
def skipGaps (s : List Char) : List Char := skipGapsWithin (s.length + 1) s

/-! ## Escapes -/

/-- The value of a hexadecimal digit. -/
def hexDigit? (c : Char) : Option Nat :=
  if c.isDigit then some (c.toNat - 48)
  else if 'a' ≤ c ∧ c ≤ 'f' then some (c.toNat - 87)
  else if 'A' ≤ c ∧ c ≤ 'F' then some (c.toNat - 55)
  else none

/-- The character of a code point written in exactly `count` hexadecimal digits. -/
def codePoint (count : Nat) : Scanner Char := fun s => do
  let digits := s.take count
  if digits.length = count then
    let n ← digits.foldlM (fun n c => (hexDigit? c).map (16 * n + ·)) 0
    if n.isValidChar then return (Char.ofNat n, s.drop count) else none
  else none

/-- The character that an escape stands for, after its backslash. -/
def escape : Scanner Char
  | 'b' :: rest => some ('\x08', rest)
  | 't' :: rest => some ('\t', rest)
  | 'n' :: rest => some ('\n', rest)
  | 'f' :: rest => some ('\x0c', rest)
  | 'r' :: rest => some ('\r', rest)
  | '"' :: rest => some ('"', rest)
  | '\\' :: rest => some ('\\', rest)
  | 'u' :: rest => codePoint 4 rest
  | 'U' :: rest => codePoint 8 rest
  | _ => none

/-! ## Text -/

/-- Text up to a closing double quote, with escapes, of at most as many characters as given. -/
def basicWithin : Nat → Scanner (List Char)
  | 0, _ => none
  | _ + 1, '"' :: rest => some ([], rest)
  | n + 1, '\\' :: rest => do
    let (c, rest) ← escape rest
    let (text, rest) ← basicWithin n rest
    return (c :: text, rest)
  | n + 1, c :: rest => do
    if isLineChar c then
      let (text, rest) ← basicWithin n rest
      return (c :: text, rest)
    else none
  | _ + 1, [] => none

/-- Text up to a closing single quote, without escapes. -/
def literal : Scanner (List Char)
  | [] => none
  | '\'' :: rest => some ([], rest)
  | c :: rest => do
    if isLineChar c then
      let (text, rest) ← literal rest
      return (c :: text, rest)
    else none

/-- The quotes before the closing three, of which there may be two at most. -/
def closingQuotes (quote : Char) : Scanner (List Char) := fun s =>
  match (s.takeWhile (· == quote)).length with
  | 0 | 1 | 2 => none
  | n + 3 => some (List.replicate (min n 2) quote, s.drop (min n 2 + 3))

/-- Text over several lines up to three double quotes, with escapes. After a backslash at the end of
a line, which `folding` remembers, everything up to the next visible character is left out. -/
def multiBasicWithin (folding : Bool) : Nat → Scanner (List Char)
  | 0, _ => none
  | n + 1, s =>
    match afterLineBreak? s, closingQuotes '"' s, s with
    | some rest, _, _ =>
      if folding then multiBasicWithin true n rest
      else (multiBasicWithin false n rest).map fun (text, rest) => ('\n' :: text, rest)
    | none, some closed, _ => some closed
    | none, none, '\\' :: rest =>
      if (afterLineBreak? (skipBlanks rest)).isSome then multiBasicWithin true n rest
      else do
        let (c, rest) ← escape rest
        let (text, rest) ← multiBasicWithin false n rest
        return (c :: text, rest)
    | none, none, c :: rest =>
      if folding && isBlank c then multiBasicWithin true n rest
      else if isLineChar c then
        (multiBasicWithin false n rest).map fun (text, rest) => (c :: text, rest)
      else none
    | none, none, [] => none

/-- Text over several lines up to three single quotes, without escapes. -/
def multiLiteralWithin : Nat → Scanner (List Char)
  | 0, _ => none
  | n + 1, s =>
    match afterLineBreak? s, closingQuotes '\'' s, s with
    | some rest, _, _ => (multiLiteralWithin n rest).map fun (text, rest) => ('\n' :: text, rest)
    | none, some closed, _ => some closed
    | none, none, c :: rest =>
      if isLineChar c then (multiLiteralWithin n rest).map fun (text, rest) => (c :: text, rest)
      else none
    | none, none, [] => none

/-- Text on one line between quotes. -/
def lineText : Scanner String
  | '"' :: rest => (basicWithin (rest.length + 1) rest).map fun (t, r) => (String.ofList t, r)
  | '\'' :: rest => (literal rest).map fun (t, r) => (String.ofList t, r)
  | _ => none

/-- Text in any of its forms. A line break right after three opening quotes is left out. -/
def text : Scanner String
  | '"' :: '"' :: '"' :: rest =>
    let body := (afterLineBreak? rest).getD rest
    (multiBasicWithin false (body.length + 1) body).map fun (t, r) => (String.ofList t, r)
  | '\'' :: '\'' :: '\'' :: rest =>
    let body := (afterLineBreak? rest).getD rest
    (multiLiteralWithin (body.length + 1) body).map fun (t, r) => (String.ofList t, r)
  | s => lineText s

end Membrane.Toml
