/-!
# Property keys

A property is reached by a name or by an index. The two never coincide: the index `1` and the name
`"1"` are different keys. Names between double underscores belong to the engine.
-/

namespace Membrane

/-- The key of a property. -/
inductive PropertyKey where
  | name (text : String)
  | index (position : UInt32)
deriving DecidableEq, Repr

namespace PropertyKey

/-- The text of a name. -/
def name? : PropertyKey → Option String
  | name text => some text
  | index _ => none

/-- Whether the key is a name of at least four bytes that starts and ends with two underscores. Such
names belong to the engine and are never handed to a host. -/
def isInternal : PropertyKey → Bool
  | name text =>
    decide (4 ≤ text.utf8ByteSize) && ['_', '_'].isPrefixOf text.toList
      && ['_', '_'].isSuffixOf text.toList
  | index _ => false

/-- The written form of a key: the name itself, or the index in decimal. -/
def render : PropertyKey → String
  | name text => text
  | index position => toString position.toNat

end PropertyKey

end Membrane
