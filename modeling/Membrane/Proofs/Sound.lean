import Membrane.Proofs.Chain
import Membrane.Proofs.Border

/-!
# Sound worlds

`World.Sound` collects what holds of the objects of every world that can be reached: links lead to
objects, walks along them end, the realms of wrappers are there, and wrappers take new properties.
A new object and a changed own part keep a world sound on conditions that speak only of them.
-/

namespace Membrane

variable {σ : Type} {w w' : World σ}

/-- Replaces the own part of an object. -/
def World.setStore (w : World σ) (id : ObjectId) (store : Store) : World σ :=
  { w with heap := w.heap.setStore id store }

/-- There is an ordinary object at a place. -/
def Heap.IsOrdinary (h : Heap) (id : ObjectId) : Prop :=
  ∃ className, h.kind? id = some (.ordinary className)

/-- An ordinary object is no wrapper. -/
theorem Heap.IsOrdinary.wrapper? {h : Heap} {id : ObjectId} (ho : h.IsOrdinary id) :
    h.wrapper? id = none := by
  obtain ⟨className, hkind⟩ := ho
  rw [Heap.wrapper?, hkind]

/-- What holds of the heap of every reachable world. -/
structure World.Sound (w : World σ) : Prop where
  linked : w.heap.Linked
  grounded : w.heap.Grounded
  realm : ∀ id v r, w.heap.wrapper? id = some v → v.realm = some r → w.heap.HoldsRealm r
  extensible : ∀ id v, w.heap.wrapper? id = some v → (w.heap.store id).extensible = true

theorem World.Sound.of_heap_eq (h : w.Sound) (hheap : w'.heap = w.heap) : w'.Sound := by
  constructor
  · exact hheap ▸ h.linked
  · exact hheap ▸ h.grounded
  · exact hheap ▸ h.realm
  · exact hheap ▸ h.extensible

/-- A new object keeps a world sound if it is linked to objects that are there. -/
theorem World.Sound.push (h : w.Sound) (object : ScriptObject)
    (hlink : ∀ link, object.store.prototype = some link → w.heap.Holds link)
    (hrealm : ∀ v r, object.kind = .wrapper v → v.realm = some r → w.heap.HoldsRealm r)
    (hext : object.store.extensible = true) (hheap : w'.heap = w.heap.push object) : w'.Sound := by
  constructor
  · exact hheap ▸ h.linked.push hlink
  · exact hheap ▸ h.grounded.push h.linked hlink
  · intro id v r hv hr
    rw [hheap] at hv ⊢
    rcases Heap.wrapper?_of_push hv with ⟨-, hk⟩ | hv
    · exact (hrealm v r hk hr).push object
    · exact (h.realm id v r hv hr).push object
  · intro id v hv
    rw [hheap] at hv ⊢
    rw [Heap.store_push]
    rcases Heap.wrapper?_of_push hv with ⟨hid, -⟩ | hv
    · rw [if_pos hid, hext]
    · rw [if_neg (Heap.holds_of_wrapper? hv).ne_next, h.extensible id v hv]

/-- A changed own part keeps a world sound if the links stay right and wrappers extensible. -/
theorem World.Sound.setStore (h : w.Sound) {id : ObjectId} {store : Store}
    (hlinked : (w.heap.setStore id store).Linked)
    (hgrounded : (w.heap.setStore id store).Grounded)
    (hext : w.heap.IsOrdinary id ∨ store.extensible = (w.heap.store id).extensible) :
    (w.setStore id store).Sound := by
  have hwrapper : ∀ x v, (w.setStore id store).heap.wrapper? x = some v →
      w.heap.wrapper? x = some v := fun x v hv => by simpa [World.setStore] using hv
  refine ⟨hlinked, hgrounded, fun x v r hv hr => ?_, fun x v hv => ?_⟩
  · exact (h.realm x v r (hwrapper x v hv) hr).setStore store
  · replace hv := hwrapper x v hv
    show ((w.heap.setStore id store).store x).extensible = true
    by_cases hx : x = id
    · subst hx
      rw [Heap.store_setStore_self (Heap.holds_of_wrapper? hv)]
      rcases hext with hordinary | hext
      · rw [hordinary.wrapper?] at hv
        cases hv
      · rw [hext, h.extensible x v hv]
    · rw [Heap.store_setStore_of_ne hx, h.extensible x v hv]

/-- A changed own part with the same link. -/
theorem World.Sound.rewrite (h : w.Sound) {id : ObjectId} {store : Store}
    (hlink : store.prototype = (w.heap.store id).prototype)
    (hext : w.heap.IsOrdinary id ∨ store.extensible = (w.heap.store id).extensible) :
    (w.setStore id store).Sound := by
  refine h.setStore (fun x link hx => ?_) (h.grounded.setStore hlink) hext
  rw [Heap.prototype_setStore hlink] at hx
  exact (Heap.holds_setStore store).2 (h.linked x link hx)

/-- A changed link that leads to an object, or to none, and not back. -/
theorem World.Sound.relink (h : w.Sound) {id : ObjectId} {link : Option ObjectId}
    {path : List ObjectId} (hlink : ∀ x, link = some x → w.heap.Holds x)
    (hp : w.heap.Walk link path) (hn : id ∉ path) :
    (w.setStore id { w.heap.store id with prototype := link }).Sound := by
  by_cases hid : w.heap.Holds id
  · refine h.setStore (fun x y hy => ?_) (h.grounded.relink hid hp hn) (.inr rfl)
    rw [Heap.holds_setStore]
    by_cases hx : x = id
    · subst hx
      rw [Heap.prototype, Heap.store_setStore_self hid] at hy
      exact hlink y hy
    · rw [Heap.prototype, Heap.store_setStore_of_ne hx] at hy
      exact h.linked x y hy
  · refine h.of_heap_eq ?_
    exact Heap.setStore_of_not_holds hid _

theorem World.Sound.pushError (hs : w.Sound) (e : HostError) : (w.pushError e).Sound :=
  hs.push { kind := .hostError e } (fun _ hlink => by cases hlink)
    (fun _ _ hv => by cases hv) rfl rfl

end Membrane
