import Membrane.Value
import Mathlib.Data.List.Basic

/-!
# Arguments fitted to an arity

Fitting drops what a fixed arity has no use for and fills in what is missing; a list of the right
length it leaves alone (`Arity.Admits`, `fit_of_admits`). Everything else follows from that and from
one fact on fillers: what is missing may as well be filled in beforehand (`fit_append_replicate`).
-/

namespace Membrane.Arity

variable {α : Type} {a b : Arity} {args : List α}

/-! ## The number of arguments -/

/-- One above a negative word is a word. -/
theorem toInt_add_one {word : Int32} (hneg : word < 0) : (word + 1).toInt = word.toInt + 1 := by
  have hlow := word.le_toInt
  have hzero : word.toInt < 0 := by
    rwa [Int32.lt_iff_toInt_lt, Int32.toInt_zero] at hneg
  have hone : (1 : Int32).toInt = 1 := by decide
  rw [Int32.toInt_add, hone]
  exact Int.bmod_eq_of_le (by omega) (by omega)

/-- Its absolute value is a word too: the smallest word, which has none, is below it. -/
theorem toInt_abs_add_one {word : Int32} (hneg : word < 0) :
    (word + 1).abs.toInt = (word + 1).toInt.natAbs := by
  have hlow := word.le_toInt
  have hnext := toInt_add_one hneg
  have hmin : (word + 1).toBitVec ≠ BitVec.intMin 32 := fun heq => by
    rw [← Int32.toInt_toBitVec, heq] at hnext
    have hleast : (BitVec.intMin 32).toInt = -2147483648 := by decide
    omega
  have hbits : (word + 1).abs.toInt = (word + 1).toBitVec.abs.toInt := rfl
  rw [hbits, BitVec.toInt_abs_eq_natAbs, if_neg hmin, Int32.toInt_toBitVec]

/-- What a signed word asks for: its own value, or one less than what it is below zero. -/
theorem required_eq (a : Arity) :
    (a.required : Int) = if a.word < 0 then -1 - a.word.toInt else a.word.toInt := by
  have hzero : a.word < 0 ↔ a.word.toInt < 0 := by rw [Int32.lt_iff_toInt_lt, Int32.toInt_zero]
  unfold required
  split
  case isFalse hfixed => exact Int.toNat_of_nonneg (Int.not_lt.1 (hzero.not.1 hfixed))
  case isTrue hvariadic =>
    have hneg := hzero.1 hvariadic
    have hnext := toInt_add_one hvariadic
    rw [toInt_abs_add_one hvariadic]
    omega

/-- The number of arguments is one that the arity asks for. -/
def Admits (a : Arity) (count : Nat) : Prop :=
  if a.isVariadic then a.required ≤ count else count = a.required

instance (a : Arity) (count : Nat) : Decidable (a.Admits count) := by
  unfold Admits
  infer_instance

theorem isVariadic_iff : a.isVariadic = true ↔ a.word < 0 := decide_eq_true_iff

/-- A fixed arity gets what it asks for, a variadic one also what there is beyond that. -/
theorem length_fit (a : Arity) (filler : α) (args : List α) :
    (a.fit filler args).length =
      if a.isVariadic then max args.length a.required else a.required := by
  unfold fit
  cases a.isVariadic with
  | true =>
    simp only [if_true, List.length_append, List.length_replicate]
    omega
  | false =>
    simp only [Bool.false_eq_true, if_false, List.length_append, List.length_take,
      List.length_replicate]
    omega

theorem admits_length_fit (a : Arity) (filler : α) (args : List α) :
    a.Admits (a.fit filler args).length := by
  rw [length_fit, Admits]
  cases a.isVariadic with
  | true => exact Nat.le_max_right ..
  | false => rfl

/-! ## What is kept, dropped and filled in -/

/-- Of the arguments and the fitted list, the shorter one comes first in the longer one. -/
theorem fit_isPrefix (a : Arity) (filler : α) (args : List α) :
    (args.length ≤ (a.fit filler args).length → args <+: a.fit filler args) ∧
      ((a.fit filler args).length ≤ args.length → a.fit filler args <+: args) := by
  rw [length_fit, fit]
  cases a.isVariadic with
  | true =>
    refine ⟨fun _ => List.prefix_append .., fun hlong => ?_⟩
    rw [if_pos rfl, Nat.max_le] at hlong
    have hsame : args ++ List.replicate (a.required - args.length) filler = args := by
      rw [Nat.sub_eq_zero_of_le hlong.2, List.replicate_zero, List.append_nil]
    exact hsame.symm ▸ List.prefix_rfl
  | false =>
    constructor
    · intro hshort
      rw [if_neg Bool.false_ne_true] at hshort
      rw [if_neg Bool.false_ne_true, List.take_of_length_le hshort]
      exact List.prefix_append ..
    · intro hlong
      rw [if_neg Bool.false_ne_true] at hlong
      rw [if_neg Bool.false_ne_true, Nat.sub_eq_zero_of_le hlong, List.replicate_zero,
        List.append_nil]
      exact List.take_prefix ..

/-- The arguments that are asked for are among the fitted ones, at their places. -/
theorem getElem?_fit {i : Nat} {arg : α} (hi : a.isVariadic = true ∨ i < a.required)
    (harg : args[i]? = some arg) (filler : α) : (a.fit filler args)[i]? = some arg := by
  have hlength : i < args.length := (List.getElem?_eq_some_iff.1 harg).1
  unfold fit
  cases hvariadic : a.isVariadic with
  | true =>
    rw [if_pos rfl, List.getElem?_append_left hlength, harg]
  | false =>
    have hrequired : i < a.required := hi.resolve_left (by simp [hvariadic])
    have htake : i < (args.take a.required).length := by
      rw [List.length_take]
      omega
    rw [if_neg Bool.false_ne_true, List.getElem?_append_left htake,
      List.getElem?_take_of_lt hrequired, harg]

/-- Beyond the arguments there is nothing but the filler. -/
theorem eq_filler_of_mem_drop {filler x : α} (h : x ∈ (a.fit filler args).drop args.length) :
    x = filler := by
  have htaken : (if a.isVariadic then args else args.take a.required).length ≤ args.length := by
    split
    · exact Nat.le_refl _
    · exact List.length_take_le' ..
  rw [fit, List.drop_append, List.drop_of_length_le htaken, List.nil_append] at h
  exact List.eq_of_mem_replicate (List.mem_of_mem_drop h)

/-- Arguments whose number is right are left as they are. -/
theorem fit_of_admits (h : a.Admits args.length) (filler : α) : a.fit filler args = args := by
  unfold Admits at h
  unfold fit
  cases hvariadic : a.isVariadic with
  | true =>
    rw [hvariadic, if_pos rfl] at h
    rw [if_pos rfl, Nat.sub_eq_zero_of_le h, List.replicate_zero, List.append_nil]
  | false =>
    rw [hvariadic, if_neg Bool.false_ne_true] at h
    rw [if_neg Bool.false_ne_true, ← h, List.take_length, Nat.sub_self, List.replicate_zero,
      List.append_nil]

/-- A fixed arity drops what comes after enough arguments. -/
theorem fit_append (ha : a.isVariadic = false) (h : a.required ≤ args.length) (extra : List α)
    (filler : α) : a.fit filler (args ++ extra) = a.fit filler args := by
  have hadded : a.required ≤ (args ++ extra).length := by
    rw [List.length_append]
    omega
  simp only [fit, ha, Bool.false_eq_true, if_false, List.take_append_of_le_length h,
    Nat.sub_eq_zero_of_le h, Nat.sub_eq_zero_of_le hadded]

theorem fit_exactly_zero (filler : α) (args : List α) : (exactly 0).fit filler args = [] := by
  have hvariadic : (exactly 0).isVariadic = false := by decide
  have hrequired : (exactly 0).required = 0 := by decide
  rw [fit, hvariadic, hrequired, Nat.zero_sub]
  rfl

/-- What is missing may be filled in beforehand. -/
theorem fit_append_replicate {count : Nat} (h : args.length + count ≤ a.required) (filler : α) :
    a.fit filler (args ++ List.replicate count filler) = a.fit filler args := by
  have hmissing : a.required - args.length =
      count + (a.required - (args ++ List.replicate count filler).length) := by
    rw [List.length_append, List.length_replicate]
    omega
  have hlong : (args ++ List.replicate count filler).length ≤ a.required := by
    rw [List.length_append, List.length_replicate]
    omega
  have hshort : args.length ≤ a.required := by omega
  simp only [fit, List.take_of_length_le hlong, List.take_of_length_le hshort, ite_self]
  rw [hmissing, List.replicate_add, List.append_assoc]

/-! ## Fitting twice -/

theorem fit_fit_self (a : Arity) (filler : α) (args : List α) :
    a.fit filler (a.fit filler args) = a.fit filler args :=
  fit_of_admits (a.admits_length_fit filler args) filler

/-- A variadic arity that asks for no more can come first. -/
theorem fit_fit (hb : b.isVariadic = true) (h : b.required ≤ a.required) (filler : α)
    (args : List α) : a.fit filler (b.fit filler args) = a.fit filler args := by
  have hfill : b.fit filler args =
      args ++ List.replicate (b.required - args.length) filler := by
    rw [fit, hb, if_pos rfl]
  rcases Nat.le_total b.required args.length with henough | hmissing
  · rw [hfill, Nat.sub_eq_zero_of_le henough, List.replicate_zero, List.append_nil]
  · rw [hfill]
    exact fit_append_replicate (by omega) filler

/-- **Fitted arguments.** A word that is not negative gets exactly as many arguments as it says, and
a negative one as many as there are, but no fewer than it requires. The shorter of the two lists is
the beginning of the longer one, and what comes after the arguments is null. Fitting again changes
nothing, and neither does fitting a list that fits; and a list may be fitted to a variadic arity that
requires no more before it is fitted to any arity. -/
theorem fits_arguments (a : Arity) (args : List ScriptValue) :
    let fitted := a.fit .null args
    (0 ≤ a.word → (fitted.length : Int) = a.word.toInt) ∧
    (a.word < 0 → fitted.length = max args.length a.required ∧
      (a.required : Int) = -1 - a.word.toInt) ∧
    (args.length ≤ fitted.length → args <+: fitted) ∧
    (fitted.length ≤ args.length → fitted <+: args) ∧
    (∀ value ∈ fitted.drop args.length, value = .null) ∧
    a.fit .null fitted = fitted ∧
    (fitted = args ↔ a.Admits args.length) ∧
    ∀ b : Arity, b.isVariadic = true → b.required ≤ a.required →
      a.fit .null (b.fit .null args) = fitted := by
  intro fitted
  have hlength := a.length_fit .null args
  obtain ⟨hlonger, hshorter⟩ := a.fit_isPrefix .null args
  refine ⟨fun hfixed => ?_, fun hvariadic => ?_, hlonger, hshorter,
    fun value => eq_filler_of_mem_drop, a.fit_fit_self .null args, ⟨fun heq => ?_, fun h => ?_⟩,
    fun b hb h => fit_fit hb h .null args⟩
  · have hword : ¬ a.word < 0 := Int32.not_lt.2 hfixed
    have hexact : fitted.length = a.required := by
      rw [hlength, if_neg (isVariadic_iff.not.2 hword)]
    rw [hexact, required_eq, if_neg hword]
  · rw [hlength, if_pos (isVariadic_iff.2 hvariadic), required_eq, if_pos hvariadic]
    exact ⟨rfl, rfl⟩
  · have hadmits := a.admits_length_fit .null args
    rwa [show a.fit .null args = args from heq] at hadmits
  · exact fit_of_admits h .null

/-- One argument is too few for an arity that requires two, also if it was fitted to one that
requires one before. -/
theorem fits_arguments_atLeast_two :
    let args : List ScriptValue := [.boolean true]
    ((atLeast 2).fit .null args).length = 2 ∧ (atLeast 2).fit .null args ≠ args ∧
      (atLeast 2).fit .null ((atLeast 1).fit .null args) = (atLeast 2).fit .null args := by
  intro args
  obtain ⟨-, hvariadic, -, -, -, -, hfits, htwice⟩ := fits_arguments (atLeast 2) args
  refine ⟨?_, hfits.not.2 (by decide), htwice (atLeast 1) (by decide) (by decide)⟩
  exact (hvariadic (by decide)).1

end Membrane.Arity
