import Membrane.Identity

/-!
# A value and itself

Floats that are no number are the one exception to all sameness. A number with its kind stands for
the float that it was made of, unless that is no number. A host value is identical to itself, unless
an opaque script float that is no number hides in it: a bound method is compared with its receiver,
so that such a float may be any number of receivers deep (`HostValue.hidesNaN`).
-/

namespace Membrane

/-! ## Numbers -/

namespace Binary64

variable {x : Binary64}

/-- The bits of a number: its sign, its biased exponent and its fraction. -/
theorem toNat_bits (x : Binary64) : x.bits.toNat =
    (if x.isNegative then Nat.pow 2 63 else 0) + x.biasedExponent * Nat.pow 2 52 + x.fraction := by
  have hbits : x.bits.toNat < 2 ^ 64 := x.bits.toNat_lt
  simp only [isNegative, biasedExponent, fraction, decide_eq_true_eq, Nat.pow_eq]
  split <;> omega

theorem reading_eq_nan : x.reading = .nan ↔ x.isNaN = true := by
  simp only [reading, isNaN, Bool.and_eq_true, decide_eq_true_eq, bne_iff_ne]
  split
  · split <;> simp_all
  · split <;> simp_all

theorem exists_reading_eq_finite (h : x.isFinite = true) :
    ∃ negative significand exponent, x.reading = .finite negative significand exponent := by
  have hexponent : x.biasedExponent ≠ 2047 := by simpa [isFinite] using h
  rw [reading, if_neg hexponent]
  split <;> exact ⟨_, _, _, rfl⟩

/-- The only infinity of a sign. -/
theorem eq_of_reading_infinity {negative : Bool} (h : x.reading = .infinity negative) :
    x = if negative then negInfinity else infinity := by
  have hbits := x.toNat_bits
  have hexponent : x.biasedExponent = 2047 ∧ x.fraction = 0 ∧ x.isNegative = negative := by
    simp only [reading] at h
    split at h
    · split at h
      · exact ⟨‹_›, ‹_›, Reading.infinity.inj h⟩
      · cases h
    · split at h <;> cases h
  obtain ⟨hexponent, hfraction, rfl⟩ := hexponent
  rw [hexponent, hfraction] at hbits
  obtain ⟨bits⟩ := x
  cases hsign : isNegative ⟨bits⟩ with
  | true => exact congrArg mk (UInt64.toNat_inj.1 (by simpa [hsign] using hbits))
  | false => exact congrArg mk (UInt64.toNat_inj.1 (by simpa [hsign] using hbits))

theorem numericEq_self (x : Binary64) : x.numericEq x = !x.isNaN := by
  simp [numericEq]

end Binary64

namespace ScriptNumber

variable {x : Binary64}

theorem ofBinary64_of_isFinite (h : x.isFinite = true) : ofBinary64 x = .float x := by
  obtain ⟨negative, significand, exponent, hreading⟩ := Binary64.exists_reading_eq_finite h
  rw [ofBinary64, hreading]

/-- A number with its kind stands for the float that it was made of. -/
theorem toBinary64_ofBinary64 (h : x.isNaN = false) : (ofBinary64 x).toBinary64 = x := by
  unfold ofBinary64
  cases hreading : x.reading with
  | nan =>
    rw [Binary64.reading_eq_nan.1 hreading] at h
    cases h
  | infinity negative =>
    have hx := Binary64.eq_of_reading_infinity hreading
    cases negative with
    | true => exact hx.symm
    | false => exact hx.symm
  | finite negative significand exponent => rfl

/-- What is no number stays so. -/
theorem isNaN_toBinary64_ofBinary64 (h : x.isNaN = true) :
    (ofBinary64 x).toBinary64.isNaN = true := by
  rw [ofBinary64, Binary64.reading_eq_nan.2 h]
  show Binary64.nan.isNaN = true
  decide

end ScriptNumber

theorem ScriptNumber.same_self (n : ScriptNumber) :
    n.same n = match n with
      | .float x => !x.isNaN
      | _ => true := by
  cases n with
  | integer value => exact beq_self_eq_true value
  | float x => exact x.numericEq_self
  | _ => rfl

/-! ## Host values -/

mutual

/-- An opaque script float that is no number is the value, or the receiver that is bound innermost
in it. -/
def HostValue.hidesNaN : HostValue → Bool
  | .callable c => c.hidesNaN
  | .script (.number (.float x)) => x.isNaN
  | _ => false

/-- An opaque script float that is no number is bound innermost in the callable. -/
def HostCallable.hidesNaN : HostCallable → Bool
  | .bound receiver _ => receiver.hidesNaN
  | _ => false

end

mutual

/-- A host value is identical to itself, unless a float that is no number hides in it. -/
theorem HostValue.identical_self : ∀ value : HostValue, value.identical value = !value.hidesNaN
  | .nil => rfl
  | .bool _ | .int _ | .float _ | .str _ | .object _ | .hostClass _ => by
    simp [HostValue.identical, HostValue.hidesNaN]
  | .callable c => by
    rw [HostValue.identical, HostValue.hidesNaN, HostCallable.sameAs_self c]
  | .script value => by
    cases value with
    | number n =>
      cases n <;>
        simp [HostValue.identical, HostValue.hidesNaN, ScriptValue.same, ScriptNumber.same_self]
    | _ => simp [HostValue.identical, HostValue.hidesNaN, ScriptValue.same]

theorem HostCallable.sameAs_self : ∀ c : HostCallable, c.sameAs c = !c.hidesNaN
  | .free _ | .unbound _ => by simp [HostCallable.sameAs, HostCallable.hidesNaN]
  | .bound receiver _ => by
    simp [HostCallable.sameAs, HostCallable.hidesNaN, HostValue.identical_self receiver]

end

end Membrane
