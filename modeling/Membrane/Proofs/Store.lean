import Membrane.Store
import Mathlib.Data.List.Nodup

/-!
# The own part as an ordered map

Giving a property a value changes what is read under its key, and nothing else: the other keys read
as before and keep their order, and so do the link and the extensibility. What is left of an own
part without a key (`Store.erase`) is all of it that does not depend on that key.
-/

namespace Membrane

/-- Replacing the content under a key that is there. -/
theorem lookup_replace {α β : Type} [DecidableEq α] (entries : List (α × β)) (key : α)
    (content : β) (key' : α) :
    (entries.map fun e => if e.1 = key then (key, content) else e).lookup key' =
      if key' = key then (entries.lookup key).map fun _ => content else entries.lookup key' := by
  induction entries with
  | nil => simp
  | cons e rest ih =>
    obtain ⟨k, old⟩ := e
    rw [List.map_cons]
    by_cases hk : k = key
    · subst hk
      by_cases hkey : key' = k
      · subst hkey
        simp only [if_true, List.lookup_cons_self, Option.map_some]
      · simp only [if_true, List.lookup_cons, beq_false_of_ne hkey, ih, if_neg hkey]
    · simp only [if_neg hk, List.lookup_cons, beq_false_of_ne (Ne.symm hk), ih]
      by_cases hkey : key' = key
      · subst hkey
        simp only [beq_false_of_ne (Ne.symm hk), if_true]
      · simp only [if_neg hkey]

namespace Store

variable {s s' : Store} {key : PropertyKey}

/-! ## Giving a property a value -/

theorem get?_define (s : Store) (key : PropertyKey) (value : ScriptValue) (k : PropertyKey) :
    (s.define key value).get? k = if k = key then some value else s.get? k := by
  unfold define contains
  cases hold : s.get? key with
  | some old =>
    rw [Option.isSome_some, if_pos rfl, get?, lookup_replace, ← get?, hold]
    rfl
  | none =>
    rw [Option.isSome_none, if_neg Bool.false_ne_true, get?, List.lookup_append, ← get?,
      List.lookup_cons]
    by_cases hk : k = key
    · subst hk
      rw [hold, beq_self_eq_true, if_pos rfl]
      rfl
    · rw [beq_false_of_ne hk, if_neg hk]
      exact Option.or_none

/-- A key keeps its place, and a new one comes last. -/
theorem keys_define (s : Store) (key : PropertyKey) (value : ScriptValue) :
    (s.define key value).keys = if s.contains key then s.keys else s.keys ++ [key] := by
  unfold define keys
  split
  · rw [List.map_map]
    refine List.map_congr_left fun p _ => ?_
    by_cases hp : p.1 = key
    · rw [Function.comp_apply, if_pos hp, hp]
    · rw [Function.comp_apply, if_neg hp]
  · rw [List.map_append]
    rfl

theorem contains_eq_true : s.contains key = true ↔ key ∈ s.keys := by
  rw [contains, get?, List.lookup_isSome_iff, keys, List.mem_map]
  exact exists_congr fun p => and_congr_right fun _ => ⟨fun h => (eq_of_beq h).symm,
    fun h => beq_iff_eq.2 h.symm⟩

/-- No key comes twice. -/
theorem nodup_define (h : s.keys.Nodup) {value : ScriptValue} :
    (s.define key value).keys.Nodup := by
  rw [keys_define]
  split
  case isTrue => exact h
  case isFalse hnew =>
    rw [← List.concat_eq_append]
    exact h.concat fun hmem => hnew (contains_eq_true.2 hmem)

theorem nodup_erase (h : s.keys.Nodup) : (s.erase key).keys.Nodup :=
  h.sublist (List.filter_sublist.map _)

theorem prototype_define (s : Store) (key : PropertyKey) (value : ScriptValue) :
    (s.define key value).prototype = s.prototype := by
  unfold define
  split <;> rfl

theorem extensible_define (s : Store) (key : PropertyKey) (value : ScriptValue) :
    (s.define key value).extensible = s.extensible := by
  unfold define
  split <;> rfl

/-! ## All but one key -/

theorem get?_erase_of_ne (s : Store) {k : PropertyKey} (hk : k ≠ key) :
    (s.erase key).get? k = s.get? k := by
  unfold erase get?
  induction s.properties with
  | nil => rfl
  | cons p rest ih =>
    obtain ⟨x, value⟩ := p
    by_cases hx : x = key
    · subst hx
      simp only [List.filter_cons, bne_self_eq_false, Bool.false_eq_true, if_false,
        List.lookup_cons, beq_false_of_ne hk, ih]
    · simp only [List.filter_cons, bne_iff_ne, ne_eq, hx, not_false_eq_true, if_true,
        List.lookup_cons, ih]

theorem contains_erase_of_ne (s : Store) {k : PropertyKey} (hk : k ≠ key) :
    (s.erase key).contains k = s.contains k := by
  rw [contains, get?_erase_of_ne s hk, contains]

/-- Values may be replaced before or after a key is erased. -/
theorem filter_replace (properties : List (PropertyKey × ScriptValue)) (k : PropertyKey)
    (value : ScriptValue) :
    ((properties.map fun p => if p.1 = k then (k, value) else p).filter fun p => p.1 != key) =
      (properties.filter fun p => p.1 != key).map fun p => if p.1 = k then (k, value) else p := by
  rw [List.filter_map]
  congr 2
  funext p
  rw [Function.comp_apply]
  by_cases hp : p.1 = k
  · rw [if_pos hp, hp]
  · rw [if_neg hp]

/-- A property does not count for what is left without it. -/
theorem erase_define (s : Store) (key : PropertyKey) (value : ScriptValue) :
    (s.define key value).erase key = s.erase key := by
  unfold define
  split
  · simp only [erase, filter_replace, Store.mk.injEq, and_self, and_true]
    have hkept : ∀ p ∈ s.properties.filter fun p => p.1 != key,
        (if p.1 = key then (key, value) else p) = p := by
      intro p hp
      exact if_neg (bne_iff_ne.1 (List.mem_filter.1 hp).2)
    rw [List.map_congr_left hkept, List.map_id']
  · simp only [erase, List.filter_append, List.filter_cons, bne_self_eq_false, Bool.false_eq_true,
      if_false, List.filter_nil, List.append_nil]

/-- Another property may be given its value before or after a key is erased. -/
theorem erase_define_of_ne (s : Store) {k : PropertyKey} (hk : k ≠ key) (value : ScriptValue) :
    (s.define k value).erase key = (s.erase key).define k value := by
  unfold define
  rw [contains_erase_of_ne s hk]
  split
  · simp only [erase, filter_replace]
  · simp only [erase, List.filter_append, List.filter_cons, bne_iff_ne, ne_eq, hk,
      not_false_eq_true, if_true, List.filter_nil]

end Store

end Membrane
