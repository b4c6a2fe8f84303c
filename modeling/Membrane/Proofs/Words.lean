import Membrane.Proofs.Fitting
import Mathlib.Logic.Function.Basic

/-!
# Arities as words

A signed word says two things at once: whether further arguments are taken, and how many are
required (`Arity.Shape`). Both halves of the words have the same room, counts up to the largest
word, since a negative word stands for one less than its distance from zero: the smallest word has
no negative of its own, but it stands for a count all the same. So words and shapes correspond one
to one, and none of the steps between them leaves the range of the words.
-/

namespace Membrane.Arity

/-! ## Counts as words -/

/-- The largest count that a word holds. -/
def limit : Nat := Nat.pow 2 31 - 1

/-- A count becomes the word of its value, or the largest word. -/
theorem toInt_saturated (count : Nat) : (saturated count).toInt = min (count : Int) limit := by
  have hroom : min count (Nat.pow 2 31 - 1) < 2 ^ 31 := by
    have hlimit : Nat.pow 2 31 - 1 < 2 ^ 31 := by decide
    omega
  rw [saturated, Int32.toInt_ofNat_of_lt hroom, limit]
  omega

/-- The negative of a count that became a word is a word. -/
theorem toInt_neg_saturated (count : Nat) :
    (-saturated count).toInt = -(saturated count).toInt := by
  have hcount := toInt_saturated count
  have hlimit : limit = 2147483647 := by decide
  rw [Int32.toInt_neg]
  exact Int.bmod_eq_of_le (by omega) (by omega)

/-- So is the one below it. -/
theorem toInt_neg_saturated_sub_one (count : Nat) :
    (-saturated count - 1).toInt = (-saturated count).toInt - 1 := by
  have hcount := toInt_saturated count
  have hneg := toInt_neg_saturated count
  have hlimit : limit = 2147483647 := by decide
  have hone : (1 : Int32).toInt = 1 := by decide
  rw [Int32.toInt_sub, hone]
  exact Int.bmod_eq_of_le (by omega) (by omega)

/-! ## What is required -/

variable {a : Arity} {count : Nat}

theorem word_neg_iff : a.word < 0 ↔ a.word.toInt < 0 := by
  rw [Int32.lt_iff_toInt_lt, Int32.toInt_zero]

theorem isVariadic_exactly (count : Nat) : (exactly count).isVariadic = false := by
  have hcount := toInt_saturated count
  refine Bool.eq_false_iff.2 fun hvariadic => ?_
  have hneg := word_neg_iff.1 (isVariadic_iff.1 hvariadic)
  have hword : (exactly count).word = saturated count := rfl
  rw [hword] at hneg
  omega

theorem isVariadic_atLeast (count : Nat) : (atLeast count).isVariadic = true := by
  have hcount := toInt_saturated count
  have hword : (atLeast count).word.toInt = -(saturated count).toInt - 1 := by
    rw [← toInt_neg_saturated]
    exact toInt_neg_saturated_sub_one count
  exact isVariadic_iff.2 (word_neg_iff.2 (by omega))

/-- A count is required as it is given, up to the limit. -/
theorem required_exactly (count : Nat) : (exactly count).required = min count limit := by
  have hcount := toInt_saturated count
  have hfixed : ¬ (exactly count).word < 0 :=
    isVariadic_iff.not.1 (by simp [isVariadic_exactly])
  have hrequired := required_eq (exactly count)
  rw [if_neg hfixed] at hrequired
  have hword : (exactly count).word = saturated count := rfl
  rw [hword] at hrequired
  omega

theorem required_atLeast (count : Nat) : (atLeast count).required = min count limit := by
  have hcount := toInt_saturated count
  have hneg := toInt_neg_saturated count
  have hrequired := required_eq (atLeast count)
  rw [if_pos (isVariadic_iff.1 (isVariadic_atLeast count))] at hrequired
  have hword : (atLeast count).word.toInt = (-saturated count).toInt - 1 :=
    toInt_neg_saturated_sub_one count
  omega

/-- No arity requires more than the limit. -/
theorem required_le (a : Arity) : a.required ≤ limit := by
  have hrequired := required_eq a
  have hlow := a.word.le_toInt
  have hhigh := a.word.toInt_lt
  have hlimit : limit = 2147483647 := by decide
  split at hrequired <;> omega

/-- Arities that take further arguments or not alike, and require the same, are one. -/
theorem eq_of_required {b : Arity} (hvariadic : a.isVariadic = b.isVariadic)
    (hrequired : a.required = b.required) : a = b := by
  have hwords : a.word < 0 ↔ b.word < 0 := by rw [← isVariadic_iff, ← isVariadic_iff, hvariadic]
  have ha := required_eq a
  have hb := required_eq b
  have hword : a.word.toInt = b.word.toInt := by
    by_cases hneg : a.word < 0
    · rw [if_pos hneg] at ha
      rw [if_pos (hwords.1 hneg)] at hb
      omega
    · rw [if_neg hneg] at ha
      rw [if_neg (hwords.not.1 hneg)] at hb
      omega
  exact congrArg mk (Int32.toInt_inj.1 hword)

/-! ## Words and shapes -/

/-- What an arity says: whether it takes further arguments, and how many it requires. -/
structure Shape where
  variadic : Bool
  required : Nat
  required_le : required ≤ limit

/-- The shape of an arity. -/
def shape (a : Arity) : Shape := ⟨a.isVariadic, a.required, a.required_le⟩

/-- The arity of a shape. -/
def ofShape (s : Shape) : Arity := if s.variadic then atLeast s.required else exactly s.required

theorem shape_ofShape (s : Shape) : (ofShape s).shape = s := by
  obtain ⟨variadic, required, hrequired⟩ := s
  cases variadic with
  | true =>
    simp only [ofShape, shape, if_true, isVariadic_atLeast, required_atLeast,
      Nat.min_eq_left hrequired]
  | false =>
    simp only [ofShape, shape, Bool.false_eq_true, if_false, isVariadic_exactly, required_exactly,
      Nat.min_eq_left hrequired]

theorem ofShape_shape (a : Arity) : ofShape a.shape = a := by
  have hshape := shape_ofShape a.shape
  exact eq_of_required (congrArg Shape.variadic hshape) (congrArg Shape.required hshape)

/-- **Words are shapes.** Any count is required as it is given, up to the largest word, by a fixed
arity and by a variadic one. Each word is the one that its own shape makes, so that words and shapes
correspond one to one. Negating a count that became a word, going one below that, going one above a
negative word and taking the absolute value of that give the integers that they give without any
bounds, and so none of them leaves the range of the words. -/
theorem word_shape :
    (∀ count, (exactly count).required = min count limit ∧
      (atLeast count).required = min count limit ∧
      (exactly count).isVariadic = false ∧ (atLeast count).isVariadic = true) ∧
    (∀ word : Int32, (⟨word⟩ : Arity) =
      if isVariadic ⟨word⟩ then atLeast (required ⟨word⟩) else exactly (required ⟨word⟩)) ∧
    (Function.Bijective fun word : Int32 => shape ⟨word⟩) ∧
    (∀ count, (saturated count).toInt = min (count : Int) limit ∧
      (-saturated count).toInt = -(saturated count).toInt ∧
      (-saturated count - 1).toInt = (-saturated count).toInt - 1) ∧
    (∀ word : Int32, word < 0 → (word + 1).toInt = word.toInt + 1 ∧
      (word + 1).abs.toInt = (word + 1).toInt.natAbs) := by
  refine ⟨fun count => ?_, fun word => ?_, ⟨fun v w hshape => ?_, fun s => ?_⟩, fun count => ?_,
    fun word hneg => ?_⟩
  · exact ⟨required_exactly count, required_atLeast count, isVariadic_exactly count,
      isVariadic_atLeast count⟩
  · exact (ofShape_shape ⟨word⟩).symm
  · have harity := congrArg ofShape hshape
    simp only [ofShape_shape] at harity
    exact congrArg Arity.word harity
  · exact ⟨(ofShape s).word, shape_ofShape s⟩
  · exact ⟨toInt_saturated count, toInt_neg_saturated count, toInt_neg_saturated_sub_one count⟩
  · exact ⟨toInt_add_one hneg, toInt_abs_add_one hneg⟩

/-- The largest count and the smallest word, where a further step would leave the range. -/
theorem word_shape_extremes :
    (exactly (Nat.pow 2 64 - 1)).required = limit ∧ (atLeast (Nat.pow 2 64 - 1)).required = limit ∧
      (⟨Int32.minValue⟩ : Arity) = atLeast limit ∧
      Int32.minValue < 0 ∧ (Int32.minValue + 1).abs.toInt = limit := by
  obtain ⟨hcount, hword, -, -, hsteps⟩ := word_shape
  obtain ⟨hexactly, hatLeast, -, -⟩ := hcount (Nat.pow 2 64 - 1)
  have hlimit : min (Nat.pow 2 64 - 1) limit = limit := by decide
  have hneg : Int32.minValue < 0 := by decide
  refine ⟨hexactly.trans hlimit, hatLeast.trans hlimit, ?_, hneg, ?_⟩
  · have hshape := hword Int32.minValue
    have hvariadic : isVariadic ⟨Int32.minValue⟩ = true := by decide
    have hrequired : required ⟨Int32.minValue⟩ = limit := by decide
    rwa [hvariadic, hrequired] at hshape
  · have habs := (hsteps Int32.minValue hneg).2
    have hnext : ((Int32.minValue + 1).toInt.natAbs : Int) = limit := by decide
    exact habs.trans hnext

end Membrane.Arity
