import Membrane.Catalog.Running
import Membrane.Operation
import Membrane.Proofs.Rounding

/-!
# Equality of integers

Both equalities of script code compare integers as floating-point numbers, so that they tell two
integers apart exactly if these are rounded to different ones. Below `2 ^ 53` nothing is rounded,
and the equalities agree with sameness. From there on distinct integers may be equal, if they are
close, while sameness and the host still tell them apart.
-/

namespace Membrane

open Binary64

theorem natAbs_toInt_lt (a : Int64) : a.toInt.natAbs < Nat.pow 2 64 := by
  have hlow := a.le_toInt
  have hhigh := a.toInt_lt
  have hroom : Nat.pow 2 64 = 18446744073709551616 := by decide
  omega

namespace ScriptValue

variable {a b : Int64}

/-- Integers are strictly equal exactly if they are rounded to one. -/
theorem strictlyEquals_integer (a b : Int64) :
    (number (.integer a)).strictlyEquals (.number (.integer b)) = true ↔
      roundedInt a.toInt = roundedInt b.toInt :=
  numericEq_ofInt (natAbs_toInt_lt a) (natAbs_toInt_lt b)

theorem same_integer (a b : Int64) :
    (number (.integer a)).same (.number (.integer b)) = true ↔ a = b :=
  beq_iff_eq

/-- If one of two integers is of 53 bits, strict equality is sameness. -/
theorem strictlyEquals_integer_of_lt
    (h : a.toInt.natAbs < Nat.pow 2 53 ∨ b.toInt.natAbs < Nat.pow 2 53) :
    (number (.integer a)).strictlyEquals (.number (.integer b)) =
      (number (.integer a)).same (.number (.integer b)) := by
  have hrounded : roundedInt a.toInt = roundedInt b.toInt ↔ a = b := by
    rcases h with ha | hb
    · rw [roundedInt_inj_of_lt ha, Int64.toInt_inj]
    · rw [eq_comm, roundedInt_inj_of_lt hb, Int64.toInt_inj, eq_comm]
  rw [Bool.eq_iff_iff, strictlyEquals_integer, same_integer, hrounded]

end ScriptValue

/-- **Integers are compared as numbers.** On integers the two equalities are one. Two integers are
equal exactly if they are rounded to one integer of 53 significant bits, and then they differ by one
part in `2 ^ 53` of their sum at most. If one of them has 53 bits, they are equal exactly if they
are the same. Sameness tells all integers apart, and so does the host. -/
theorem View.integers_equal {σ : Type} [Reflective σ] (v : View σ) (a b : Int64) :
    let x := ScriptValue.number (.integer a)
    let y := ScriptValue.number (.integer b)
    v.looselyEquals x y = x.strictlyEquals y ∧
    (x.strictlyEquals y = true ↔ roundedInt a.toInt = roundedInt b.toInt) ∧
    (x.strictlyEquals y = true →
      Nat.pow 2 53 * (a.toInt - b.toInt).natAbs ≤ a.toInt.natAbs + b.toInt.natAbs) ∧
    (a.toInt.natAbs < Nat.pow 2 53 ∨ b.toInt.natAbs < Nat.pow 2 53 →
      x.strictlyEquals y = x.same y) ∧
    (x.same y = true ↔ a = b) ∧
    ((v.heap.crossIn x).identical (v.heap.crossIn y) = true ↔ a = b) := by
  intro x y
  refine ⟨rfl, ScriptValue.strictlyEquals_integer a b, fun hequal => ?_,
    ScriptValue.strictlyEquals_integer_of_lt, ScriptValue.same_integer a b, beq_iff_eq⟩
  exact roundedInt_near ((ScriptValue.strictlyEquals_integer a b).1 hequal)

namespace Catalog

/-- What is seen where nothing was made yet. -/
def nothing : View Catalog := ⟨{}, {}⟩

/-- The largest integer of 53 bits differs from its neighbour, of 54 bits, for both equalities. -/
theorem integers_equal_safe :
    let x := ScriptValue.number (.integer 9007199254740991)
    let y := ScriptValue.number (.integer 9007199254740992)
    x.strictlyEquals y = false ∧ nothing.looselyEquals x y = false := by
  intro x y
  obtain ⟨hloose, -, -, hsafe, hsame, -⟩ :=
    nothing.integers_equal 9007199254740991 9007199254740992
  have hstrict : x.strictlyEquals y = false := by
    rw [hsafe (.inl (by decide))]
    exact Bool.eq_false_iff.2 (hsame.not.2 (by decide))
  exact ⟨hstrict, hloose.trans hstrict⟩

/-- Two neighbours of 54 bits are equal for both equalities, but not the same, and they become two
integers of the host. -/
theorem integers_collide :
    let x := ScriptValue.number (.integer 9007199254740992)
    let y := ScriptValue.number (.integer 9007199254740993)
    x.strictlyEquals y = true ∧ nothing.looselyEquals x y = true ∧ x.same y = false ∧
      nothing.heap.crossIn x = .int 9007199254740992 ∧
      nothing.heap.crossIn y = .int 9007199254740993 := by
  decide

end Catalog

end Membrane
