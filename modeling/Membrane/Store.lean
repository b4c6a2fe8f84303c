import Membrane.Error

/-!
# The own part of an object

A `Store` holds what an object has of itself: its properties in the order in which they were added,
whether it takes new ones, and the link to its prototype. Overwriting a property keeps its place;
erasing and adding it again moves it to the end.
-/

namespace Membrane

/-- The own properties of an object, its extensibility and its prototype. -/
structure Store where
  properties : List (PropertyKey × ScriptValue) := []
  extensible : Bool := true
  prototype : Option ObjectId := none
deriving DecidableEq, Repr

namespace Store

/-- The value of an own property. -/
def get? (s : Store) (key : PropertyKey) : Option ScriptValue := s.properties.lookup key

/-- Whether there is an own property of this key. -/
def contains (s : Store) (key : PropertyKey) : Bool := (s.get? key).isSome

/-- The keys of the own properties, in order of addition. -/
def keys (s : Store) : List PropertyKey := s.properties.map (·.1)

/-- Gives a property a value: in its place if there is one of this key, else at the end. -/
def define (s : Store) (key : PropertyKey) (value : ScriptValue) : Store :=
  if s.contains key then
    { s with properties := s.properties.map fun p => if p.1 = key then (key, value) else p }
  else { s with properties := s.properties ++ [(key, value)] }

/-- Gives a property a value, unless it would be new and the store takes no new ones. -/
def put (s : Store) (key : PropertyKey) (value : ScriptValue) : Except Fault Store :=
  if s.contains key || s.extensible then .ok (s.define key value) else .error (.notExtensible key)

/-- Removes a property, if there is one. -/
def erase (s : Store) (key : PropertyKey) : Store :=
  { s with properties := s.properties.filter fun p => p.1 != key }

/-- Refuses new properties and another prototype from now on. -/
def preventExtensions (s : Store) : Store := { s with extensible := false }

end Store

end Membrane
