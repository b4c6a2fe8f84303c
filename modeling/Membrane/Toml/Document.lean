import Membrane.Toml.Scalar

/-!
# Documents

A document is a list of lines: entries `key = value`, headers of tables, and comments. `parse?`
reads a whole document into its root table, or nothing where it is malformed: bad spelling, a key
given twice, or a table opened that is already closed.
-/

namespace Membrane.Toml

/-- Values lie less deep than this inside each other, and dotted keys have fewer parts. -/
def depthLimit : Nat := 80

/-! ## Keys -/

/-- A character of a key without quotes. -/
def isBareKeyChar (c : Char) : Bool := c.isAlphanum || c = '-' || c = '_'

/-- One part of a key. -/
def keyPart : Scanner String := fun s =>
  match s with
  | c :: _ =>
    if c = '"' || c = '\'' then lineText s
    else if isBareKeyChar c then
      some (String.ofList (s.takeWhile isBareKeyChar), s.dropWhile isBareKeyChar)
    else none
  | [] => none

/-- The parts of a dotted key, of at most as many as given, with blanks around each. -/
def keyWithin : Nat → Scanner (List String)
  | 0, _ => none
  | n + 1, s => do
    let (part, rest) ← keyPart (skipBlanks s)
    match skipBlanks rest with
    | '.' :: rest =>
      let (parts, rest) ← keyWithin n rest
      return (part :: parts, rest)
    | rest => return ([part], rest)

/-- A key: the path before its last part, and the last part. -/
def key : Scanner (List String × String) := fun s => do
  let (parts, rest) ← keyWithin (depthLimit - 1) s
  return ((parts.dropLast, ← parts.getLast?), rest)

/-! ## Values -/

/-- The items of a list, after its bracket; at most as many as given. -/
def itemsWithin (value : Scanner Item) : Nat → Scanner (List Item)
  | 0, _ => none
  | n + 1, s => do
    let s := skipGaps s
    if let some rest := after? ']' s then return ([], rest)
    let (item, rest) ← value s
    let rest := skipGaps rest
    if let some rest := after? ']' rest then return ([item], rest)
    let (items, rest) ← itemsWithin value n (← after? ',' rest)
    return (item :: items, rest)

/-- The entries of an inline table, after a brace or a comma; at most as many as given. -/
def pairsWithin (value : Scanner Item) (entries : Entries) : Nat → Scanner Entries
  | 0, _ => none
  | n + 1, s => do
    let ((path, last), rest) ← key s
    let (item, rest) ← value (skipBlanks (← after? '=' rest))
    let entries ← Entries.add path last item .inline entries
    let rest := skipBlanks rest
    if let some rest := after? '}' rest then return (entries, rest)
    pairsWithin value entries n (← after? ',' rest)

/-- An inline table, after its brace. -/
def inlineTable (value : Scanner Item) : Scanner Item := fun s => do
  if let some rest := after? '}' (skipBlanks s) then return (.table .inline [], rest)
  let (entries, rest) ← pairsWithin value [] (s.length + 1) s
  return (.table .inline entries, rest)

/-- A value that lies less deep than given. -/
def valueWithin : Nat → Scanner Item
  | 0, _ => none
  | depth + 1, s =>
    match s with
    | '[' :: rest =>
      if depth = 0 then none
      else (itemsWithin (valueWithin depth) (rest.length + 1) rest).map fun (items, rest) =>
        (.array items, rest)
    | '{' :: rest => if depth = 0 then none else inlineTable (valueWithin depth) rest
    | c :: _ =>
      if c = '"' || c = '\'' then (text s).map fun (t, rest) => (.string t, rest) else scalar s
    | [] => none

/-- A value. -/
def value : Scanner Item := valueWithin depthLimit

/-! ## Lines -/

/-- A line of a document. -/
inductive Line where
  | blank
  | entry (path : List String) (key : String) (item : Item)
  | header (path : List String) (key : String)
  | member (path : List String) (key : String)

/-- One line, with its end. -/
def line : Scanner Line := fun s => do
  let s := skipBlanks s
  match s with
  | '[' :: '[' :: rest =>
    let ((path, last), rest) ← key rest
    let rest ← after? ']' (← after? ']' rest)
    return (.member path last, ← afterLine? rest)
  | '[' :: rest =>
    let ((path, last), rest) ← key rest
    return (.header path last, ← afterLine? (← after? ']' rest))
  | _ =>
    match afterLine? s with
    | some rest => return (.blank, rest)
    | none =>
      let ((path, last), rest) ← key s
      let (item, rest) ← value (skipBlanks (← after? '=' rest))
      return (.entry path last item, ← afterLine? rest)

/-- The root table so far, with the path of the table that takes the next entries. -/
structure Reading where
  root : Entries := []
  current : List String := []

/-- Takes a line in. -/
def Reading.take (r : Reading) (l : Line) : Option Reading :=
  match l with
  | .blank => some r
  | .entry path key item => do
    let root ← Entries.alterAt false (Entries.add path key item) r.current .header r.root
    return { r with root }
  | .header path key => do
    let root ← Entries.alterAt false (fun _ => Entries.openTable key) path .header r.root
    return { root, current := path ++ [key] }
  | .member path key => do
    let root ← Entries.alterAt false (fun _ => Entries.openMember key) path .header r.root
    return { root, current := path ++ [key] }

/-- Reads lines, at most as many as given. -/
def readWithin : Nat → Reading → List Char → Option Entries
  | _, r, [] => some r.root
  | 0, _, _ :: _ => none
  | n + 1, r, s => do
    let (l, rest) ← line s
    readWithin n (← r.take l) rest

/-- The root table of a document. A byte order mark before it is no part of it. -/
def parse? (document : String) : Option Entries :=
  let s := match document.toList with
    | '\ufeff' :: rest => rest
    | s => s
  readWithin (s.length + 1) {} s

end Membrane.Toml
