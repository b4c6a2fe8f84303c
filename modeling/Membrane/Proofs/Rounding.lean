import Membrane.Number.Binary64
import Mathlib.Data.Nat.Basic
import Mathlib.Logic.Basic
import Mathlib.Tactic.WLOG

/-!
# Whole numbers rounded to floating-point numbers

A floating-point number has 53 significant bits, so that from `2 ^ 53` on it cannot tell all whole
numbers apart. `rounded` is the whole number with so many bits that is nearest to a given one, and
the numbers that two integers become are equal exactly if the two are rounded to the same
(`ofInt_inj`). The word of a number grows with its value, from one power of two to the next without
a gap (`scale_inj`); this is all that is needed of the layout of the bits.
-/

namespace Membrane.Binary64

/-! ## Rounding a quotient -/

/-- A quotient is rounded down if what is left is at most half a unit, and up if it is at least
that. -/
theorem roundedQuotient_cases (num den : Nat) :
    roundedQuotient num den = num / den ∧ 2 * (num % den) ≤ den ∨
      roundedQuotient num den = num / den + 1 ∧ den ≤ 2 * (num % den) := by
  by_cases habove : den < 2 * (num % den)
  · exact .inr ⟨by simp [roundedQuotient, habove], by omega⟩
  · by_cases htie : 2 * (num % den) = den ∧ num / den % 2 = 1
    · exact .inr ⟨by simp [roundedQuotient, htie], by omega⟩
    · exact .inl ⟨by simp [roundedQuotient, habove, htie], by omega⟩

theorem roundedQuotient_zero (den : Nat) : roundedQuotient 0 den = 0 := by
  simp [roundedQuotient]

theorem roundedQuotient_one (num : Nat) : roundedQuotient num 1 = num := by
  simp [roundedQuotient, Nat.mod_one]

/-- The rounded quotient is at most half a unit away from the quotient. -/
theorem roundedQuotient_near (num : Nat) {den : Nat} (hden : 0 < den) :
    2 * (roundedQuotient num den * den) ≤ 2 * num + den ∧
      2 * num ≤ 2 * (roundedQuotient num den * den) + den := by
  have hsplit : num / den * den + num % den = num := by
    rw [Nat.mul_comm]
    exact Nat.div_add_mod num den
  have hrest : num % den < den := Nat.mod_lt num hden
  rcases roundedQuotient_cases num den with ⟨hdown, hhalf⟩ | ⟨hup, hhalf⟩
  · rw [hdown]
    omega
  · have hnext : (num / den + 1) * den = num / den * den + den := Nat.add_one_mul _ _
    rw [hup, hnext]
    omega

/-- A quotient is not rounded below a whole number that it reaches. -/
theorem le_roundedQuotient {num den low : Nat} (hden : 0 < den) (hlow : low * den ≤ num) :
    low ≤ roundedQuotient num den := by
  have hquotient : low ≤ num / den := (Nat.le_div_iff_mul_le hden).2 hlow
  rcases roundedQuotient_cases num den with ⟨hdown, -⟩ | ⟨hup, -⟩
  · omega
  · omega

/-- Nor is it rounded beyond a whole number that it does not reach. -/
theorem roundedQuotient_le {num den high : Nat} (hden : 0 < den) (hhigh : num < high * den) :
    roundedQuotient num den ≤ high := by
  have hquotient : num / den < high := (Nat.div_lt_iff_lt_mul hden).2 hhigh
  rcases roundedQuotient_cases num den with ⟨hdown, -⟩ | ⟨hup, -⟩
  · omega
  · omega

/-! ## Whole numbers of 53 bits -/

/-- The distance between neighbours among the whole numbers of 53 significant bits, from the power
of two below the given number on. -/
def unit (n : Nat) : Nat := Nat.pow 2 (n.log2 - 52)

/-- The nearest whole number of 53 significant bits, the one with an even last bit if there are two.
-/
def rounded (n : Nat) : Nat := roundedQuotient n (unit n) * unit n

theorem unit_pos (n : Nat) : 0 < unit n := Nat.pow_pos (by decide)

theorem unit_of_lt {n : Nat} (h : n < Nat.pow 2 53) : unit n = 1 := by
  have hlog : n.log2 ≤ 52 := by
    rcases Nat.eq_zero_or_pos n with rfl | hpos
    · decide
    · exact Nat.lt_succ_iff.1 ((Nat.log2_lt (Nat.ne_of_gt hpos)).2 h)
  rw [unit, Nat.sub_eq_zero_of_le hlog]

/-- From the first number of 54 bits on, the units of a number are at least as many as the numbers
of 52 bits. -/
theorem unit_mul_le {n : Nat} (h : Nat.pow 2 53 ≤ n) :
    unit n * Nat.pow 2 52 ≤ n ∧ 2 ≤ unit n := by
  have hpos : n ≠ 0 := by
    rintro rfl
    exact absurd h (by decide)
  have hlog : 53 ≤ n.log2 := (Nat.le_log2 hpos).2 h
  constructor
  · calc unit n * Nat.pow 2 52 = 2 ^ (n.log2 - 52 + 52) := (Nat.pow_add 2 _ 52).symm
      _ = 2 ^ n.log2 := by rw [Nat.sub_add_cancel (by omega)]
      _ ≤ n := Nat.log2_self_le hpos
  · calc 2 = 2 ^ 1 := rfl
      _ ≤ 2 ^ (n.log2 - 52) := Nat.pow_le_pow_right (by decide) (by omega)

/-- Numbers of 53 bits are left as they are. -/
theorem rounded_of_lt {n : Nat} (h : n < Nat.pow 2 53) : rounded n = n := by
  rw [rounded, unit_of_lt h, roundedQuotient_one, Nat.mul_one]

/-- Others stay as large as that. -/
theorem le_rounded {n : Nat} (h : Nat.pow 2 53 ≤ n) : Nat.pow 2 53 ≤ rounded n := by
  obtain ⟨hunits, htwo⟩ := unit_mul_le h
  have hleast : Nat.pow 2 52 * unit n ≤ n := by rwa [Nat.mul_comm]
  have hquotient := le_roundedQuotient (unit_pos n) hleast
  calc Nat.pow 2 53 = Nat.pow 2 52 * 2 := by decide
    _ ≤ rounded n := Nat.mul_le_mul hquotient htwo

/-- Rounding moves a number by at most one part in `2 ^ 53`. -/
theorem rounded_near (n : Nat) :
    Nat.pow 2 53 * rounded n ≤ Nat.pow 2 53 * n + n ∧
      Nat.pow 2 53 * n ≤ Nat.pow 2 53 * rounded n + n := by
  rcases Nat.lt_or_ge n (Nat.pow 2 53) with hsmall | hlarge
  · rw [rounded_of_lt hsmall]
    exact ⟨Nat.le_add_right _ _, Nat.le_add_right _ _⟩
  · obtain ⟨hunits, -⟩ := unit_mul_le hlarge
    obtain ⟨hup, hdown⟩ := roundedQuotient_near n (unit_pos n)
    have htwice : Nat.pow 2 53 = Nat.pow 2 52 * 2 := by decide
    have hpower : Nat.pow 2 52 = 4503599627370496 := by decide
    have hrounded : roundedQuotient n (unit n) * unit n = rounded n := rfl
    rw [hrounded] at hup hdown
    rw [htwice, hpower]
    rw [hpower] at hunits
    omega

/-! ## The words of whole numbers -/

/-- The significand of a whole number, with its leading bit in the fifty-third place. -/
def significand (n : Nat) : Nat :=
  roundedQuotient (n * Nat.pow 2 (52 - n.log2)) (Nat.pow 2 (n.log2 - 52))

theorem significand_of_le {n : Nat} (h : n.log2 ≤ 52) :
    significand n = n * Nat.pow 2 (52 - n.log2) := by
  rw [significand, Nat.sub_eq_zero_of_le h]
  exact roundedQuotient_one _

theorem significand_of_ge {n : Nat} (h : 52 ≤ n.log2) :
    significand n = roundedQuotient n (unit n) := by
  rw [significand, Nat.sub_eq_zero_of_le h]
  exact congrArg (roundedQuotient · _) (Nat.mul_one n)

theorem pow_mul_pow {i j k : Nat} (h : i + j = k) :
    Nat.pow 2 i * Nat.pow 2 j = Nat.pow 2 k := by
  rw [← h]
  exact (Nat.pow_add 2 i j).symm

/-- A significand has 53 bits, or it was rounded up to the next power of two. -/
theorem significand_between {n : Nat} (hn : n ≠ 0) :
    Nat.pow 2 52 ≤ significand n ∧ significand n ≤ Nat.pow 2 53 := by
  have hlow : Nat.pow 2 n.log2 ≤ n := Nat.log2_self_le hn
  have hhigh : n < Nat.pow 2 (n.log2 + 1) := Nat.lt_log2_self
  rcases Nat.le_total n.log2 52 with hshort | hlong
  · have hpos : 0 < Nat.pow 2 (52 - n.log2) := Nat.pow_pos (by decide)
    rw [significand_of_le hshort]
    constructor
    · rw [← pow_mul_pow (i := n.log2) (j := 52 - n.log2) (k := 52) (by omega)]
      exact Nat.mul_le_mul_right _ hlow
    · rw [← pow_mul_pow (i := n.log2 + 1) (j := 52 - n.log2) (k := 53) (by omega)]
      exact Nat.le_of_lt (Nat.mul_lt_mul_of_pos_right hhigh hpos)
  · rw [significand_of_ge hlong]
    constructor
    · apply le_roundedQuotient (unit_pos n)
      rwa [unit, pow_mul_pow (k := n.log2) (by omega)]
    · apply roundedQuotient_le (unit_pos n)
      rwa [unit, pow_mul_pow (k := n.log2 + 1) (by omega)]

/-- The significand in its place is the rounded number. -/
theorem significand_mul (n : Nat) :
    significand n * Nat.pow 2 n.log2 = rounded n * Nat.pow 2 52 := by
  rcases Nat.le_total n.log2 52 with hshort | hlong
  · have hunit : unit n = 1 := by
      rw [unit, Nat.sub_eq_zero_of_le hshort]
    rw [significand_of_le hshort, rounded, hunit, roundedQuotient_one, Nat.mul_one, Nat.mul_assoc,
      pow_mul_pow (k := 52) (by omega)]
  · rw [significand_of_ge hlong, rounded, unit, Nat.mul_assoc, pow_mul_pow (k := n.log2) (by omega)]

/-- Words of significands with their places are equal exactly if the numbers are, since where the
one power of two ends the next begins. -/
theorem scale_inj {a b j k : Nat} (ha : Nat.pow 2 52 ≤ a ∧ a ≤ Nat.pow 2 53)
    (hb : Nat.pow 2 52 ≤ b ∧ b ≤ Nat.pow 2 53) :
    j * Nat.pow 2 52 + a = k * Nat.pow 2 52 + b ↔ a * Nat.pow 2 j = b * Nat.pow 2 k := by
  wlog hjk : j ≤ k generalizing a b j k
  · rw [eq_comm, this hb ha (Nat.le_of_not_le hjk), eq_comm]
  obtain ⟨d, rfl⟩ := Nat.exists_eq_add_of_le hjk
  have hpos : 0 < Nat.pow 2 j := Nat.pow_pos (by decide)
  have hvalue : a * Nat.pow 2 j = b * Nat.pow 2 (j + d) ↔ a = b * Nat.pow 2 d := by
    rw [← pow_mul_pow (i := d) (j := j) (Nat.add_comm d j), ← Nat.mul_assoc]
    exact Nat.mul_left_inj (Nat.ne_of_gt hpos)
  have htwice : Nat.pow 2 53 = 2 * Nat.pow 2 52 := by decide
  have hroom : 0 < Nat.pow 2 52 := by decide
  rw [hvalue, Nat.add_mul]
  match d with
  | 0 =>
    have hone : Nat.pow 2 0 = 1 := rfl
    rw [hone]
    omega
  | 1 =>
    have htwo : Nat.pow 2 1 = 2 := rfl
    rw [htwo]
    omega
  | d + 2 =>
    -- the places are too far apart for either
    have hfour : Nat.pow 2 52 * 4 ≤ b * Nat.pow 2 (d + 2) := by
      refine Nat.mul_le_mul hb.1 ?_
      rw [← pow_mul_pow (i := d) (j := 2) rfl]
      exact Nat.le_mul_of_pos_left _ (Nat.pow_pos (by decide))
    have hfar : 2 * Nat.pow 2 52 ≤ (d + 2) * Nat.pow 2 52 := Nat.mul_le_mul_right _ (by omega)
    omega

/-! ## Integers as numbers -/

/-- The last place of a whole number. -/
theorem lastPlace_one {n : Nat} (hn : n ≠ 0) : lastPlace n 1 = (n.log2 : Int) - 52 := by
  have hlow : Nat.pow 2 n.log2 ≤ n := Nat.log2_self_le hn
  have hfits : ¬ n * Nat.pow 2 (52 - n.log2) < Nat.pow 2 (n.log2 - 52) * Nat.pow 2 52 := by
    rw [Nat.not_lt, pow_mul_pow (k := n.log2 + (52 - n.log2)) (by omega), ← pow_mul_pow rfl]
    exact Nat.mul_le_mul_right _ hlow
  have hguess : (n.log2 : Int) - ((1 : Nat).log2 : Int) - 52 = (n.log2 : Int) - 52 := by
    have hone : (1 : Nat).log2 = 0 := by decide
    rw [hone]
    omega
  have hup : ((n.log2 : Int) - 52).toNat = n.log2 - 52 := by omega
  have hdown : (-((n.log2 : Int) - 52)).toNat = 52 - n.log2 := by omega
  simp only [lastPlace, hguess, hup, hdown, Nat.one_mul, decide_eq_true_eq, if_neg hfits]
  omega

/-- The magnitude of the word of a whole number. -/
def magnitude (n : Nat) : Nat :=
  if n = 0 then 0 else (n.log2 + 1022) * Nat.pow 2 52 + significand n

theorem rounded_zero : rounded 0 = 0 := rounded_of_lt (by decide)

theorem rounded_ne_zero {n : Nat} (hn : n ≠ 0) : rounded n ≠ 0 := by
  intro hzero
  have hvalue := significand_mul n
  rw [hzero, Nat.zero_mul] at hvalue
  have hpos : 0 < significand n := Nat.lt_of_lt_of_le (by decide) (significand_between hn).1
  exact Nat.ne_of_gt (Nat.mul_pos hpos (Nat.pow_pos (by decide))) hvalue

theorem magnitude_ne_zero {n : Nat} (hn : n ≠ 0) : magnitude n ≠ 0 := by
  have hpos : 0 < significand n := Nat.lt_of_lt_of_le (by decide) (significand_between hn).1
  rw [magnitude, if_neg hn]
  omega

/-- Magnitudes are equal exactly if the numbers are rounded to the same. -/
theorem magnitude_inj (m n : Nat) : magnitude m = magnitude n ↔ rounded m = rounded n := by
  by_cases hm : m = 0
  · subst hm
    by_cases hn : n = 0
    · rw [hn, eq_self, eq_self]
    · exact iff_of_false (magnitude_ne_zero hn).symm (rounded_zero ▸ (rounded_ne_zero hn).symm)
  · by_cases hn : n = 0
    · subst hn
      exact iff_of_false (magnitude_ne_zero hm) (rounded_zero ▸ rounded_ne_zero hm)
    · calc magnitude m = magnitude n
          ↔ m.log2 * Nat.pow 2 52 + significand m = n.log2 * Nat.pow 2 52 + significand n := by
            rw [magnitude, magnitude, if_neg hm, if_neg hn, Nat.add_mul, Nat.add_mul]
            omega
        _ ↔ significand m * Nat.pow 2 m.log2 = significand n * Nat.pow 2 n.log2 :=
          scale_inj (significand_between hm) (significand_between hn)
        _ ↔ rounded m = rounded n := by
          rw [significand_mul, significand_mul]
          exact Nat.mul_left_inj (by decide)

/-- Numbers of 64 bits are far from the infinities. -/
theorem magnitude_le {n : Nat} (hn : n < Nat.pow 2 64) : magnitude n ≤ 1087 * Nat.pow 2 52 := by
  by_cases hzero : n = 0
  · rw [magnitude, if_pos hzero]
    exact Nat.zero_le _
  · have hlog : n.log2 < 64 := (Nat.log2_lt hzero).2 hn
    have hplace : (n.log2 + 1022) * Nat.pow 2 52 ≤ 1085 * Nat.pow 2 52 :=
      Nat.mul_le_mul_right _ (by omega)
    have hbits := (significand_between hzero).2
    have htwice : Nat.pow 2 53 = 2 * Nat.pow 2 52 := by decide
    rw [htwice] at hbits
    rw [magnitude, if_neg hzero]
    generalize Nat.pow 2 52 = scale at *
    omega

/-- The word of the number nearest to a whole number. -/
theorem toNat_bits_nearest {n : Nat} (hn : n < Nat.pow 2 64) (negative : Bool) :
    (nearest negative n 1).bits.toNat = (if negative then Nat.pow 2 63 else 0) + magnitude n := by
  have hbound := magnitude_le hn
  have hlargest : 1087 * Nat.pow 2 52 ≤ 2047 * Nat.pow 2 52 := by decide
  have hroom : Nat.pow 2 63 + 1087 * Nat.pow 2 52 < UInt64.size := by decide
  have hword : nearest negative n 1 =
      ⟨UInt64.ofNat (if negative then Nat.pow 2 63 + magnitude n else magnitude n)⟩ := by
    rw [← Nat.min_eq_left (Nat.le_trans hbound hlargest)]
    by_cases hzero : n = 0
    · have hplace : ((-1074 : Int) + 1074).toNat = 0 := by decide
      simp only [nearest, magnitude, hzero, if_true, hplace, Nat.zero_mul, roundedQuotient_zero,
        Nat.add_zero]
    · have hplace := lastPlace_one hzero
      have hup : ((n.log2 : Int) - 52).toNat = n.log2 - 52 := by omega
      have hdown : (-((n.log2 : Int) - 52)).toNat = 52 - n.log2 := by omega
      have hbiased : ((n.log2 : Int) - 52 + 1074).toNat = n.log2 + 1022 := by omega
      simp only [nearest, magnitude, significand, if_neg hzero, hplace, hup, hdown, hbiased,
        Nat.one_mul]
  rw [hword]
  show (UInt64.ofNat _).toNat = _
  rw [UInt64.toNat_ofNat_of_lt']
  · cases negative with
    | true => rfl
    | false => exact (Nat.zero_add _).symm
  · split <;> omega

/-! ## Integers as numbers -/

/-- The nearest integer of 53 significant bits, the one with an even last bit if there are two. -/
def roundedInt (i : Int) : Int := if i < 0 then -rounded i.natAbs else rounded i.natAbs

variable {i j : Int}

theorem natAbs_roundedInt (i : Int) : (roundedInt i).natAbs = rounded i.natAbs := by
  unfold roundedInt
  split <;> omega

theorem roundedInt_neg_iff : roundedInt i < 0 ↔ i < 0 := by
  unfold roundedInt
  split
  case isTrue hneg =>
    have hne := rounded_ne_zero (n := i.natAbs) (by omega)
    exact iff_of_true (by omega) hneg
  case isFalse hneg => exact iff_of_false (by omega) hneg

/-- Rounding keeps the sign apart from the absolute value. -/
theorem roundedInt_inj : roundedInt i = roundedInt j ↔
    (i < 0 ↔ j < 0) ∧ rounded i.natAbs = rounded j.natAbs := by
  rw [← natAbs_roundedInt, ← natAbs_roundedInt, ← roundedInt_neg_iff (i := i),
    ← roundedInt_neg_iff (i := j)]
  omega

/-- Integers of 53 bits are left as they are, and no other integer is rounded to one of them. -/
theorem roundedInt_inj_of_lt (hi : i.natAbs < Nat.pow 2 53) :
    roundedInt i = roundedInt j ↔ i = j := by
  rw [roundedInt_inj, rounded_of_lt hi]
  rcases Nat.lt_or_ge j.natAbs (Nat.pow 2 53) with hj | hj
  · rw [rounded_of_lt hj]
    omega
  · have hlarge := le_rounded hj
    exact iff_of_false (fun h => absurd h.2 (by omega)) (by rintro rfl; omega)

/-- Integers that are rounded to one are close to each other. -/
theorem roundedInt_near (h : roundedInt i = roundedInt j) :
    Nat.pow 2 53 * (i - j).natAbs ≤ i.natAbs + j.natAbs := by
  obtain ⟨hsign, hsame⟩ := roundedInt_inj.1 h
  obtain ⟨hiup, hidown⟩ := rounded_near i.natAbs
  obtain ⟨hjup, hjdown⟩ := rounded_near j.natAbs
  have hscale : Nat.pow 2 53 = 9007199254740992 := by decide
  rw [hsame, hscale] at hiup hidown
  rw [hscale] at hjup hjdown
  rw [hscale]
  omega

theorem toNat_bits_ofInt (hi : i.natAbs < Nat.pow 2 64) :
    (ofInt i).bits.toNat = (if i < 0 then Nat.pow 2 63 else 0) + magnitude i.natAbs := by
  rw [ofInt, toNat_bits_nearest hi]
  simp only [decide_eq_true_eq]

theorem isNaN_ofInt (hi : i.natAbs < Nat.pow 2 64) : (ofInt i).isNaN = false := by
  have hbits := toNat_bits_ofInt hi
  have hbound := magnitude_le hi
  have hexponent : (ofInt i).biasedExponent ≠ 2047 := by
    simp only [biasedExponent, hbits, Nat.pow_eq] at hbound ⊢
    split <;> omega
  simp [isNaN, hexponent]

theorem isZero_ofInt (hi : i.natAbs < Nat.pow 2 64) : (ofInt i).isZero = true ↔ i = 0 := by
  have hbits := toNat_bits_ofInt hi
  have hbound := magnitude_le hi
  have hmagnitude : (ofInt i).isZero = true ↔ magnitude i.natAbs = 0 := by
    simp only [isZero, decide_eq_true_eq, hbits, Nat.pow_eq] at hbound ⊢
    split <;> omega
  rw [hmagnitude]
  constructor
  · intro hzero
    by_contra hne
    exact magnitude_ne_zero (Int.natAbs_ne_zero.2 hne) hzero
  · rintro rfl
    rfl

/-- Integers become one number exactly if they are rounded to one integer. -/
theorem ofInt_inj (hi : i.natAbs < Nat.pow 2 64) (hj : j.natAbs < Nat.pow 2 64) :
    ofInt i = ofInt j ↔ roundedInt i = roundedInt j := by
  have hwords : ofInt i = ofInt j ↔ (ofInt i).bits.toNat = (ofInt j).bits.toNat :=
    ⟨fun h => h ▸ rfl, fun h => congrArg mk (UInt64.toNat_inj.1 h)⟩
  have hibound := magnitude_le hi
  have hjbound := magnitude_le hj
  have hroom : 1087 * Nat.pow 2 52 < Nat.pow 2 63 := by decide
  rw [hwords, toNat_bits_ofInt hi, toNat_bits_ofInt hj, roundedInt_inj, ← magnitude_inj]
  generalize 1087 * Nat.pow 2 52 = limit at *
  split <;> split <;> omega

/-- Integers are equal as numbers exactly if they are rounded to one integer. -/
theorem numericEq_ofInt (hi : i.natAbs < Nat.pow 2 64) (hj : j.natAbs < Nat.pow 2 64) :
    (ofInt i).numericEq (ofInt j) = true ↔ roundedInt i = roundedInt j := by
  rw [← ofInt_inj hi hj, numericEq, isNaN_ofInt hi, isNaN_ofInt hj]
  simp only [Bool.not_false, Bool.true_and, Bool.or_eq_true, Bool.and_eq_true, beq_iff_eq,
    isZero_ofInt hi, isZero_ofInt hj]
  constructor
  · rintro (hsame | ⟨rfl, rfl⟩)
    · exact hsame
    · rfl
  · exact .inl

end Membrane.Binary64
