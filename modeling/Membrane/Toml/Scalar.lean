import Membrane.Number.Decimal
import Membrane.Toml.Item
import Membrane.Toml.Scan

/-!
# Scanning: numbers, dates and truth values

Digits may be grouped by single underscores between them. Integers are signed words of 64 bits,
written in decimal or with a base; floats have a fraction, an exponent or both, or are a special
value. Dates and times are checked to exist.
-/

namespace Membrane.Toml

/-! ## Digits -/

/-- The value of a digit in a base. -/
def digitIn? (base : Nat) (c : Char) : Option Nat := (hexDigit? c).filter (· < base)

/-- More digits of a base after the first, each of which an underscore may precede. -/
def moreDigits (base : Nat) : List Char → List Nat × List Char
  | [] => ([], [])
  | '_' :: c :: rest =>
    match digitIn? base c with
    | some d => let (ds, rest) := moreDigits base rest; (d :: ds, rest)
    | none => ([], '_' :: c :: rest)
  | c :: rest =>
    match digitIn? base c with
    | some d => let (ds, rest) := moreDigits base rest; (d :: ds, rest)
    | none => ([], c :: rest)

/-- At least one digit of a base. -/
def digits (base : Nat) : Scanner (List Nat)
  | c :: rest => do
    let d ← digitIn? base c
    let (ds, rest) := moreDigits base rest
    return (d :: ds, rest)
  | [] => none

/-- The number that digits of a base stand for. -/
def ofDigits (base : Nat) (ds : List Nat) : Nat := ds.foldl (fun n d => base * n + d) 0

/-- A sign, if there is one, and whether it is a minus. -/
def sign : List Char → Bool × List Char
  | '-' :: rest => (true, rest)
  | '+' :: rest => (false, rest)
  | s => (false, s)

/-- The digits of a whole number: a single zero, or digits that do not start with one. -/
def wholeDigits : Scanner (List Nat)
  | '0' :: rest => some ([0], rest)
  | s => digits 10 s

/-! ## Integers -/

/-- An integer, if it fits into a word. -/
def fitting (n : Int) : Option Item :=
  if Int64.minValue.toInt ≤ n ∧ n ≤ Int64.maxValue.toInt then some (.integer (Int64.ofInt n))
  else none

/-- A number in a base other than ten, after its mark. -/
def based (base : Nat) : Scanner Item := fun s => do
  let (ds, rest) ← digits base s
  return (← fitting (ofDigits base ds), rest)

/-- An integer. -/
def integer : Scanner Item
  | '0' :: 'x' :: rest => based 16 rest
  | '0' :: 'o' :: rest => based 8 rest
  | '0' :: 'b' :: rest => based 2 rest
  | s => do
    let (negative, s) := sign s
    let (ds, rest) ← wholeDigits s
    let n := ofDigits 10 ds
    return (← fitting (if negative then -n else n), rest)

/-! ## Floats -/

/-- The digits of a fraction, after its point. -/
def fractionDigits : Scanner (List Nat)
  | '.' :: rest => digits 10 rest
  | _ => none

/-- An exponent, after its mark. -/
def exponentPart : Scanner Int
  | c :: rest =>
    if c = 'e' || c = 'E' then do
      let (negative, rest) := sign rest
      let (ds, rest) ← digits 10 rest
      let n : Int := ofDigits 10 ds
      return (if negative then -n else n, rest)
    else none
  | [] => none

/-- A special value. -/
def specialFloat (negative : Bool) : Scanner Binary64
  | 'i' :: 'n' :: 'f' :: rest => some (if negative then .negInfinity else .infinity, rest)
  | 'n' :: 'a' :: 'n' :: rest =>
    some (if negative then ⟨0xfff8000000000000⟩ else Binary64.nan, rest)
  | _ => none

/-- A float. A positive one may not be too large to be finite. -/
def float : Scanner Item := fun s => do
  let (negative, s) := sign s
  match specialFloat negative s with
  | some (x, rest) => return (.float x, rest)
  | none =>
    let (whole, afterWhole) ← wholeDigits s
    let fraction := fractionDigits afterWhole
    let (fractionDs, afterFraction) := fraction.getD ([], afterWhole)
    let exponent := exponentPart afterFraction
    let (e, rest) := exponent.getD (0, afterFraction)
    if fraction.isNone && exponent.isNone then none
    else
      let d : Decimal := ⟨ofDigits 10 (whole ++ fractionDs), e - fractionDs.length⟩
      let x := d.nearest negative
      if x = Binary64.infinity then none else return (.float x, rest)

/-! ## Dates and times -/

/-- A number written in exactly `count` decimal digits. -/
def fixedDigits (count : Nat) : Scanner Nat := fun s =>
  let ds := s.take count
  if ds.length = count ∧ ds.all Char.isDigit then
    some (ofDigits 10 (ds.map fun c => c.toNat - 48), s.drop count)
  else none

/-- A number of two digits within bounds. -/
def twoDigits (low high : Nat) : Scanner Nat := fun s => do
  let (n, rest) ← fixedDigits 2 s
  if low ≤ n ∧ n ≤ high then return (n, rest) else none

/-- What follows a given character. -/
def after? (c : Char) : List Char → Option (List Char)
  | d :: rest => if c = d then some rest else none
  | [] => none

/-- The number of days of a month. -/
def daysIn (year month : Nat) : Nat :=
  if month = 2 then
    if year % 4 = 0 ∧ (year % 100 ≠ 0 ∨ year % 400 = 0) then 29 else 28
  else if month ∈ [4, 6, 9, 11] then 30 else 31

/-- What follows a date. -/
def afterDate? (s : List Char) : Option (List Char) := do
  let (year, s) ← fixedDigits 4 s
  let (month, s) ← twoDigits 1 12 (← after? '-' s)
  let (_, s) ← twoDigits 1 (daysIn year month) (← after? '-' s)
  return s

/-- What follows a time of day. -/
def afterTime? (s : List Char) : Option (List Char) := do
  let (_, s) ← twoDigits 0 23 s
  let (_, s) ← twoDigits 0 59 (← after? ':' s)
  let (_, s) ← twoDigits 0 60 (← after? ':' s)
  match s with
  | '.' :: rest =>
    if rest.head?.any Char.isDigit then return rest.dropWhile Char.isDigit else return s
  | _ => return s

/-- What follows an offset from universal time, if there is one. -/
def afterOffset? : List Char → Option (List Char)
  | 'Z' :: rest => some rest
  | 'z' :: rest => some rest
  | c :: rest =>
    if c = '+' || c = '-' then do
      let (_, s) ← twoDigits 0 23 rest
      let (_, s) ← twoDigits 0 59 (← after? ':' s)
      return s
    else some (c :: rest)
  | [] => some []

/-- A date, a time, or both with or without an offset. -/
def datetime : Scanner Item := fun s =>
  match afterDate? s with
  | some afterDate => do
    match afterDate with
    | c :: rest =>
      if c = 'T' || c = 't' || c = ' ' then
        match afterTime? rest with
        | some afterTime => return (.datetime, ← afterOffset? afterTime)
        | none => return (.datetime, afterDate)
      else return (.datetime, afterDate)
    | [] => return (.datetime, [])
  | none => (afterTime? s).map fun rest => (.datetime, rest)

/-- Whether the characters ahead start like a date: four digits and a dash. -/
def startsDate (s : List Char) : Bool := ((fixedDigits 4 s).bind fun (_, s) => after? '-' s).isSome

/-- A number, date or truth value. -/
def scalar : Scanner Item
  | 't' :: 'r' :: 'u' :: 'e' :: rest => some (.boolean true, rest)
  | 'f' :: 'a' :: 'l' :: 's' :: 'e' :: rest => some (.boolean false, rest)
  | s =>
    if startsDate s then datetime s
    else (datetime s).or ((float s).or (integer s))

end Membrane.Toml
