import Membrane.World

/-!
# Objects at their places

What adding an object and replacing the own part of one do to the heap, as seen through its
queries. Both leave the kinds of all other objects alone, and `push` leaves the old objects alone
altogether.
-/

namespace Membrane.Heap

variable {h : Heap} {id place : ObjectId}

/-- There is an object at a place. -/
def Holds (h : Heap) (id : ObjectId) : Prop := id.index < h.objects.size

instance : Decidable (h.Holds id) := inferInstanceAs (Decidable (_ < _))

/-- Every object of a realm is in the heap. -/
structure HoldsRealm (h : Heap) (realm : Realm) : Prop where
  global : h.Holds realm.global
  objectPrototype : h.Holds realm.objectPrototype
  functionPrototype : h.Holds realm.functionPrototype

/-- Every prototype link leads to an object of the heap. -/
def Linked (h : Heap) : Prop := ∀ id link, h.prototype id = some link → h.Holds link

/-! ## Adding an object -/

theorem holds_push (object : ScriptObject) :
    (h.push object).Holds id ↔ h.Holds id ∨ id = h.next := by
  cases id
  simp only [Holds, push, next, Array.size_push, ObjectId.mk.injEq]
  omega

theorem Holds.push (hid : h.Holds id) (object : ScriptObject) : (h.push object).Holds id :=
  (holds_push object).2 (.inl hid)

theorem holds_push_next (object : ScriptObject) : (h.push object).Holds h.next :=
  (holds_push object).2 (.inr rfl)

theorem HoldsRealm.push {realm : Realm} (hr : h.HoldsRealm realm) (object : ScriptObject) :
    (h.push object).HoldsRealm realm :=
  ⟨hr.global.push object, hr.objectPrototype.push object, hr.functionPrototype.push object⟩

/-- A new wrapper is linked to an object of the heap. -/
theorem HoldsRealm.prototypeIn {realm : Realm} (hr : h.HoldsRealm realm) (subject : Subject) :
    h.Holds (subject.prototypeIn realm) := by
  cases subject with
  | object o => exact hr.objectPrototype
  | function c => exact hr.functionPrototype
  | constructor c => exact hr.functionPrototype

theorem Holds.ne_next (hid : h.Holds id) : id ≠ h.next := by
  rintro rfl
  exact Nat.lt_irrefl _ hid

theorem get?_eq_none (hid : ¬ h.Holds id) : h.get? id = none :=
  Array.getElem?_eq_none (Nat.le_of_not_lt hid)

theorem holds_of_kind? {kind : ObjectKind} (hk : h.kind? id = some kind) : h.Holds id := by
  refine Decidable.byContradiction fun hid => ?_
  rw [kind?, get?_eq_none hid] at hk
  cases hk

theorem get?_push (object : ScriptObject) :
    (h.push object).get? id = if id = h.next then some object else h.get? id := by
  cases id
  simp only [get?, push, next, Array.getElem?_push, ObjectId.mk.injEq]

theorem kind?_push (object : ScriptObject) :
    (h.push object).kind? id = if id = h.next then some object.kind else h.kind? id := by
  simp only [kind?, get?_push]
  split <;> rfl

theorem kind?_push_of_holds (hid : h.Holds id) (object : ScriptObject) :
    (h.push object).kind? id = h.kind? id := by
  rw [kind?_push, if_neg hid.ne_next]

theorem wrapper?_eq_some {w : Wrapper} :
    h.wrapper? id = some w ↔ h.kind? id = some (.wrapper w) := by
  simp only [wrapper?]
  split <;> simp_all

theorem hostError?_eq_some {e : HostError} :
    h.hostError? id = some e ↔ h.kind? id = some (.hostError e) := by
  simp only [hostError?]
  split <;> simp_all

theorem holds_of_wrapper? {w : Wrapper} (hw : h.wrapper? id = some w) : h.Holds id :=
  holds_of_kind? (wrapper?_eq_some.1 hw)

theorem wrapper?_push_of_holds (hid : h.Holds id) (object : ScriptObject) :
    (h.push object).wrapper? id = h.wrapper? id := by
  simp only [wrapper?, kind?_push_of_holds hid]

theorem wrapper?_push_next {w : Wrapper} (store : Store) :
    (h.push ⟨.wrapper w, store⟩).wrapper? h.next = some w := by
  rw [wrapper?_eq_some, kind?_push, if_pos rfl]

/-- A wrapper of the grown heap is the new object or was one before. -/
theorem wrapper?_of_push {object : ScriptObject} {w : Wrapper}
    (hw : (h.push object).wrapper? id = some w) :
    (id = h.next ∧ object.kind = .wrapper w) ∨ h.wrapper? id = some w := by
  rw [wrapper?_eq_some, kind?_push] at hw
  split at hw
  case isTrue hid => exact .inl ⟨hid, Option.some.inj hw⟩
  case isFalse => exact .inr (wrapper?_eq_some.2 hw)

theorem store_push (object : ScriptObject) :
    (h.push object).store id = if id = h.next then object.store else h.store id := by
  simp only [store, get?_push]
  split <;> rfl

theorem store_push_of_holds (hid : h.Holds id) (object : ScriptObject) :
    (h.push object).store id = h.store id := by
  rw [store_push, if_neg hid.ne_next]

theorem prototype_push (object : ScriptObject) :
    (h.push object).prototype id =
      if id = h.next then object.store.prototype else h.prototype id := by
  simp only [prototype, store_push]
  split <;> rfl

theorem Linked.push (hl : h.Linked) {object : ScriptObject}
    (ho : ∀ link, object.store.prototype = some link → h.Holds link) : (h.push object).Linked := by
  intro id link hlink
  rw [prototype_push] at hlink
  split at hlink
  case isTrue => exact (ho link hlink).push object
  case isFalse => exact (hl id link hlink).push object

/-! ## Replacing the own part of an object -/

@[simp] theorem holds_setStore (store : Store) :
    (h.setStore place store).Holds id ↔ h.Holds id := by
  simp [Holds, setStore]

theorem HoldsRealm.setStore {realm : Realm} (hr : h.HoldsRealm realm) (store : Store) :
    (h.setStore place store).HoldsRealm realm :=
  ⟨(holds_setStore store).2 hr.global, (holds_setStore store).2 hr.objectPrototype,
    (holds_setStore store).2 hr.functionPrototype⟩

theorem get?_setStore (store : Store) :
    (h.setStore place store).get? id =
      if id = place then (h.get? id).map ({ · with store }) else h.get? id := by
  cases id
  cases place
  simp only [get?, setStore, Array.getElem?_modify, ObjectId.mk.injEq, eq_comm]

@[simp] theorem kind?_setStore (store : Store) :
    (h.setStore place store).kind? id = h.kind? id := by
  simp only [kind?, get?_setStore]
  split
  · rw [Option.map_map]
    rfl
  · rfl

@[simp] theorem wrapper?_setStore (store : Store) :
    (h.setStore place store).wrapper? id = h.wrapper? id := by
  simp only [wrapper?, kind?_setStore]

theorem store_setStore_self (hid : h.Holds id) (store : Store) :
    (h.setStore id store).store id = store := by
  have hget : h.get? id = some h.objects[id.index] := Array.getElem?_eq_getElem hid
  rw [Heap.store, get?_setStore, if_pos rfl, hget]
  rfl

theorem store_setStore_of_ne (hid : id ≠ place) (store : Store) :
    (h.setStore place store).store id = h.store id := by
  rw [Heap.store, get?_setStore, if_neg hid]
  rfl

theorem setStore_of_not_holds (hid : ¬ h.Holds id) (store : Store) : h.setStore id store = h := by
  cases h
  simp only [setStore, mk.injEq]
  refine Array.ext (Array.size_modify ..) fun i _ hi => ?_
  rw [Array.getElem_modify_of_ne]
  rintro rfl
  exact hid hi

/-- Replacing the own part of an object by one with the same link changes no link. -/
theorem prototype_setStore {store : Store} (hs : store.prototype = h.prototype place) :
    (h.setStore place store).prototype id = h.prototype id := by
  by_cases hp : h.Holds place
  · by_cases hid : id = place
    · subst hid
      rw [prototype, store_setStore_self hp, hs]
    · rw [prototype, store_setStore_of_ne hid, prototype]
  · rw [setStore_of_not_holds hp]

end Membrane.Heap
