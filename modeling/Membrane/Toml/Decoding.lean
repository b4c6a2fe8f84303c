import Membrane.Decoder
import Membrane.Number.Layout
import Membrane.Text.Quoted
import Membrane.Toml.Document

/-!
# Decoding values

A decoder over the documents read here. A structure is decoded from a table, or from a list of the
values of its fields; a choice is a name, or a table with the name as its only key. The first fault
in the order of the document counts.
-/

namespace Membrane.Toml

/-- Why a document cannot be decoded. -/
inductive Fault where
  /-- The document is malformed. -/
  | malformed
  /-- A table has an entry that it should not have. -/
  | unknownField (name : String) (fields : List String)
  /-- A name is none of those that can be chosen. -/
  | unknownChoice (name : String) (choices : List String)
  /-- A value is of another kind than asked for. -/
  | unexpectedKind (found expected : String)
  /-- A choice is not written as one. -/
  | noChoice
deriving DecidableEq, Repr

/-! ## Messages -/

/-- A name as it stands in a message. -/
def ticked (name : String) : String := "\x60" ++ name ++ "\x60"

/-- One or more names to choose from. -/
def oneOf (names : List String) : String :=
  match names with
  | [a] => ticked a
  | [a, b] => ticked a ++ " or " ++ ticked b
  | _ => "one of " ++ ", ".intercalate (names.map ticked)

/-- The wording of a fault, for those that name what they found. -/
def Fault.message? : Fault → Option String
  | malformed | noChoice => none
  | unknownField name fields =>
    some ("unknown field " ++ ticked name ++ ", expected " ++ oneOf fields)
  | unknownChoice name choices =>
    some ("unknown variant " ++ ticked name ++ ", expected " ++ oneOf choices)
  | unexpectedKind found expected =>
    some ("invalid type: " ++ found ++ ", expected " ++ expected)

/-- The written form of a float in a message: finite ones keep a point. -/
def floatText (x : Binary64) : String :=
  let plain := Layout.plain.render x
  if x.isFinite && !plain.toList.contains '.' then plain ++ ".0" else plain

/-- What a value is, for a message. -/
def kindText : Item → String
  | .string text => "string " ++ quoted text
  | .integer value => "integer " ++ ticked (toString value.toInt)
  | .float value => "floating point " ++ ticked (floatText value)
  | .boolean value => "boolean " ++ ticked (toString value)
  | .array _ | .tables _ => "sequence"
  | .datetime | .table .. => "map"

/-! ## Texts and choices -/

/-- Whether a value holds nothing: an empty list or table. -/
def holdsNothing : Item → Bool
  | .array items => items.isEmpty
  | .tables members => members.isEmpty
  | .table _ entries => entries.isEmpty
  | _ => false

namespace Item

/-- The text that a value is. -/
def text? : Item → Option String
  | .string text => some text
  | _ => none

/-- The entries of the table that a value is. -/
def entries? : Item → Option Entries
  | .table _ entries => some entries
  | _ => none

/-- The name that a value gives: as a text, or as the only key of a table with nothing in it. -/
def variant? : Item → Option String
  | .string text => some text
  | .table _ [(text, content)] => if holdsNothing content then some text else none
  | _ => none

/-- A text. -/
def text : Item → Except Fault String
  | .string text => .ok text
  | other => .error (.unexpectedKind (kindText other) "a string")

/-- A choice by name: the name itself, or a table with the name as its only key and nothing in it.
-/
def choice {α : Type} (all : List α) (name : α → String) (item : Item) : Except Fault α :=
  match item with
  | .string text => find text
  | .table _ [(text, content)] => do
    let chosen ← find text
    if holdsNothing content then return chosen else throw .noChoice
  | _ => .error .noChoice
where
  /-- The choice of a name. -/
  find (text : String) : Except Fault α :=
    match all.find? fun a => name a = text with
    | some a => .ok a
    | none => .error (.unknownChoice text (all.map name))

/-! ## Structures -/

variable {S : Type}

/-- Puts what an entry gives into the field of its key. -/
def putEntry (d : Declaration Item Fault S) (s : S) (e : String × Item) : Except Fault S :=
  match d.fields.find? fun f => f.name = e.1 with
  | some f => do return f.put (← f.decode e.2) s
  | none => if d.closed then .error (.unknownField e.1 d.keys) else .ok s

/-- The single key of a date seen as a table. -/
def datetimeKey : String := "$__toml_private_datetime"

/-- A structure: the entries of a table are put one after the other, or the values of a list into the
fields in their order. -/
def record (d : Declaration Item Fault S) (item : Item) : Except Fault S :=
  match item with
  | .table _ entries => entries.foldlM (putEntry d) d.base
  | .array items => (d.keys.zip items).foldlM (putEntry d) d.base
  | .tables members => (d.keys.zip (members.map (.table .header))).foldlM (putEntry d) d.base
  | .datetime => putEntry d d.base (datetimeKey, .datetime)
  | other => .error (.unexpectedKind (kindText other) ("struct " ++ d.name))

end Item

/-- The decoder of the documents read here. -/
def decoder : Decoder where
  Value := Item
  Fault := Fault
  read document :=
    match parse? document with
    | some root => .ok (.table .header root)
    | none => .error .malformed
  text? := Item.text?
  entries? := Item.entries?
  variant? := Item.variant?
  text := Item.text
  choice := Item.choice
  record := Item.record

end Membrane.Toml
