/-!
# Decoding documents

Configuration comes out of documents through a library, of which `Decoder` is the interface. It reads
a document into values, and decodes a value at a type: as a text, as one of several named choices, or
as a structure. A structure is given by its declaration: the fields with their keys, what a field has
without an entry, and whether other entries are refused. `Decoder.Documented` is what the library
and the format promise, and all that may be relied on.
-/

namespace Membrane

/-! ## Declared structures -/

/-- A field of a structure: the key of its entry, how the value there is decoded, and the place of
the content in the structure. -/
structure Field (Value Fault S : Type) where
  name : String
  {Content : Type}
  decode : Value → Except Fault Content
  get : S → Content
  put : Content → S → S
  get_put : ∀ content s, get (put content s) = content

/-- Neither of two fields changes when the other is put. -/
structure Field.Apart {Value Fault S : Type} (f g : Field Value Fault S) : Prop where
  left : ∀ content s, f.get (g.put content s) = f.get s
  right : ∀ content s, g.get (f.put content s) = g.get s

/-- How a structure is decoded from a table. Its fields have different keys and lie apart, and there
is nothing in it but its fields. -/
structure Declaration (Value Fault S : Type) where
  /-- What the structure is called in messages. -/
  name : String
  fields : List (Field Value Fault S)
  /-- What the fields have that are given no entry. -/
  base : S
  /-- Whether entries under other keys than those of the fields are refused. -/
  closed : Bool
  nodup : (fields.map Field.name).Nodup
  apart : fields.Pairwise Field.Apart
  complete : ∀ s s', (∀ f ∈ fields, f.get s = f.get s') → s = s'

/-- The keys of the fields. -/
def Declaration.keys {Value Fault S : Type} (d : Declaration Value Fault S) : List String :=
  d.fields.map Field.name

/-! ## Decoders -/

/-- A library that decodes documents: the kinds of values and faults that it has, what it tells of a
value, and its decoding at each type. -/
structure Decoder where
  Value : Type
  Fault : Type
  /-- The value of a whole document. -/
  read : String → Except Fault Value
  /-- The text that a value is. -/
  text? : Value → Option String
  /-- The entries of the table that a value is, in order. -/
  entries? : Value → Option (List (String × Value))
  /-- The name that a value gives where a choice by name is asked for. -/
  variant? : Value → Option String
  /-- Decodes a text. -/
  text : Value → Except Fault String
  /-- Decodes one of several choices, each with its name. -/
  choice : {Choice : Type} → List Choice → (Choice → String) → Value → Except Fault Choice
  /-- Decodes a declared structure. -/
  record : {S : Type} → Declaration Value Fault S → Value → Except Fault S

namespace Decoder

/-- Decodes a document as a structure. -/
def decode (D : Decoder) {S : Type} (d : Declaration D.Value D.Fault S) (document : String) :
    Except D.Fault S := do
  D.record d (← D.read document)

/-- A value is there in another one: it is that value, or is inside an entry of it. -/
inductive Inside (D : Decoder) (outer : D.Value) : D.Value → Prop
  | self : Inside D outer outer
  | entry {inner : D.Value} {entries : List (String × D.Value)} {e : String × D.Value}
    (h : Inside D outer inner) (htable : D.entries? inner = some entries) (he : e ∈ entries) :
    Inside D outer e.2

/-- What is promised of a decoder. -/
structure Documented (D : Decoder) : Prop where
  /-- A document is a table. -/
  table {document : String} {root : D.Value} (h : D.read document = .ok root) :
    ∃ entries, D.entries? root = some entries
  /-- In no table of a document is a key defined twice. -/
  nodup {document : String} {root v : D.Value} {entries : List (String × D.Value)}
    (h : D.read document = .ok root) (hv : D.Inside root v) (htable : D.entries? v = some entries) :
    (entries.map Prod.fst).Nodup
  /-- As a text a value is decoded that is one. -/
  text_eq_ok_iff {v : D.Value} {text : String} : D.text v = .ok text ↔ D.text? v = some text
  /-- A text gives itself for the name of a choice. -/
  variant_text {v : D.Value} {text : String} (h : D.text? v = some text) : D.variant? v = some text
  /-- Of several choices a value is decoded as the one whose name it gives. -/
  choice_eq_ok_iff {Choice : Type} {all : List Choice} {name : Choice → String} {v : D.Value}
    {chosen : Choice} (hname : Function.Injective name) :
    D.choice all name v = .ok chosen ↔ chosen ∈ all ∧ D.variant? v = some (name chosen)
  /-- A field has the decoded value of its entry. -/
  record_field {S : Type} {d : Declaration D.Value D.Fault S} {v item : D.Value} {s : S}
    {entries : List (String × D.Value)} {f : Field D.Value D.Fault S}
    (htable : D.entries? v = some entries) (hkeys : (entries.map Prod.fst).Nodup)
    (h : D.record d v = .ok s) (hf : f ∈ d.fields) (hitem : (f.name, item) ∈ entries) :
    f.decode item = .ok (f.get s)
  /-- A field without an entry has what is declared for it. -/
  record_missing {S : Type} {d : Declaration D.Value D.Fault S} {v : D.Value} {s : S}
    {entries : List (String × D.Value)} {f : Field D.Value D.Fault S}
    (htable : D.entries? v = some entries) (h : D.record d v = .ok s) (hf : f ∈ d.fields)
    (hmissing : f.name ∉ entries.map Prod.fst) : f.get s = f.get d.base
  /-- An entry that belongs to no field is a fault, if such entries are refused. -/
  record_unknown {S : Type} {d : Declaration D.Value D.Fault S} {v : D.Value} {name : String}
    {entries : List (String × D.Value)} (htable : D.entries? v = some entries)
    (hclosed : d.closed = true) (hname : name ∈ entries.map Prod.fst) (hunknown : name ∉ d.keys) :
    ∃ fault, D.record d v = .error fault
  /-- Nothing else is a fault: a table is decoded if each field is that has an entry. -/
  record_ok {S : Type} {d : Declaration D.Value D.Fault S} {v : D.Value}
    {entries : List (String × D.Value)} (htable : D.entries? v = some entries)
    (hkeys : (entries.map Prod.fst).Nodup)
    (hfields : ∀ f ∈ d.fields, ∀ item, (f.name, item) ∈ entries →
      ∃ content, f.decode item = .ok content)
    (hknown : d.closed = true → ∀ name ∈ entries.map Prod.fst, name ∈ d.keys) :
    ∃ s, D.record d v = .ok s

end Decoder

end Membrane
