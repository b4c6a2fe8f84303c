import Membrane.Number.Binary64

/-!
# Documents as trees

What a document of tables holds. Beside its entries a table carries how it came about, since that
decides whether it may be opened again: by a header of its own, by the header of a table inside it,
by a dotted key, or written inline.
-/

namespace Membrane.Toml

/-- How a table came about. -/
inductive Origin where
  | header
  | implied
  | dotted
  | inline
deriving DecidableEq, Repr

/-- A value of a document, or a part of it. -/
inductive Item where
  | string (text : String)
  | integer (value : Int64)
  | float (value : Binary64)
  | boolean (value : Bool)
  | datetime
  | array (items : List Item)
  | table (origin : Origin) (entries : List (String × Item))
  /-- A list of tables with headers in double brackets. -/
  | tables (members : List (List (String × Item)))
deriving Repr

/-- The entries of a table, in order. -/
abbrev Entries := List (String × Item)

/-- Puts an item under a key that is there, in its place. -/
def Entries.replace (entries : Entries) (key : String) (item : Item) : Entries :=
  entries.map fun e => if e.1 = key then (key, item) else e

/-- Changes the table at the end of a path, making tables on the way where there are none. Inline
tables and plain values cannot be entered, and dotted keys do not enter a table with a header of its
own. In a list of tables the last one is entered. -/
def Entries.alterAt (dotted : Bool) (change : Origin → Entries → Option Entries) :
    List String → Origin → Entries → Option Entries
  | [], origin, entries => change origin entries
  | key :: path, _, entries =>
    match entries.lookup key with
    | none => do
      let origin := if dotted then .dotted else .implied
      let inner ← alterAt dotted change path origin []
      return entries ++ [(key, .table origin inner)]
    | some (.table origin inner) => do
      if origin = .inline || (dotted && origin = .header) then none
      else
        let changed ← alterAt dotted change path origin inner
        return Entries.replace entries key (.table origin changed)
    | some (.tables members) => do
      let last ← members.getLast?
      let changed ← alterAt dotted change path .header last
      return Entries.replace entries key (.tables (members.dropLast ++ [changed]))
    | some _ => none

/-- Adds an entry at a dotted key. The table that takes it must have come about by dotted keys
exactly if the key has dots, and must not have the key yet. -/
def Entries.add (path : List String) (key : String) (item : Item) (origin : Origin)
    (entries : Entries) : Option Entries :=
  Entries.alterAt true (fun reached inner =>
    if (reached = .dotted) == path.isEmpty then none
    else if (inner.lookup key).isSome then none
    else some (inner ++ [(key, item)])) path origin entries

/-- Opens the table of a header. It must be new, or have come about by the headers of tables in it;
in either case it comes last among the entries of its parent. -/
def Entries.openTable (key : String) (entries : Entries) : Option Entries :=
  match entries.lookup key with
  | none => some (entries ++ [(key, .table .header [])])
  | some (.table .implied inner) =>
    some (entries.filter (·.1 != key) ++ [(key, .table .header inner)])
  | some _ => none

/-- Opens a new table of a list of tables. -/
def Entries.openMember (key : String) (entries : Entries) : Option Entries :=
  match entries.lookup key with
  | none => some (entries ++ [(key, .tables [[]])])
  | some (.tables members) => some (Entries.replace entries key (.tables (members ++ [[]])))
  | some _ => none

end Membrane.Toml
