/-!
# Arities

The parameter shape of a callable, packed into one signed word. A word `a` that is not negative asks
for exactly `a` arguments; a negative one asks for at least `-1 - a` and takes any number more.
`Arity.fit` makes an argument list fit: too many arguments are dropped for a fixed arity, missing
ones are filled in for both.
-/

namespace Membrane

/-- The declared parameter shape of a callable. -/
structure Arity where
  word : Int32
deriving DecidableEq, Repr

namespace Arity

/-- A count of parameters, limited to the largest word. -/
def saturated (count : Nat) : Int32 := Int32.ofNat (min count (Nat.pow 2 31 - 1))

/-- Exactly `count` parameters. -/
def exactly (count : Nat) : Arity := ⟨saturated count⟩

/-- At least `count` parameters. -/
def atLeast (count : Nat) : Arity := ⟨-saturated count - 1⟩

/-- Whether the callable takes any number of further arguments. -/
def isVariadic (a : Arity) : Bool := decide (a.word < 0)

/-- The number of parameters that a call has to supply. -/
def required (a : Arity) : Nat :=
  if a.word < 0 then (a.word + 1).abs.toInt.toNat else a.word.toInt.toNat

/-- The arguments fitted to an arity: a fixed arity gets exactly its count, a variadic one at least
its required count, and what is missing is `filler`. -/
def fit {α : Type} (a : Arity) (filler : α) (args : List α) : List α :=
  (if a.isVariadic then args else args.take a.required)
    ++ List.replicate (a.required - args.length) filler

end Arity

end Membrane
