import Membrane.Proofs.Internal
import Membrane.Proofs.OrderedMap

/-!
# Inheritance among ordinary objects

Where all objects along the prototypes are ordinary, a look-up finds what the first of them has that
owns the key (`Heap.Inherits`). So a change of one property of one object is seen from wherever the
look-up comes to that object (`Heap.ComesTo`), at once, and from nowhere else: a value that is
written there is found, and behind a property that is erased the next owner's value comes to light.
-/

namespace Membrane

/-! ## Searching along a list -/

section Lists

variable {α : Type} {f f' : ObjectId → Option α} {o : ObjectId} {ids nearer rest : List ObjectId}

/-- Where the search comes to one object, the answers before it count for nothing, and what changed
of its own answer comes first. -/
theorem findSome?_of_comesTo (hother : ∀ x, x ≠ o → f' x = f x)
    (hnodup : (nearer ++ o :: rest).Nodup) (hlacking : ∀ x ∈ nearer, f x = none) :
    (nearer ++ o :: rest).findSome? f' = (f' o).or (rest.findSome? f) := by
  obtain ⟨-, hnodup, hdisjoint⟩ := List.nodup_append.1 hnodup
  have hnearer : nearer.findSome? f' = none := by
    refine List.findSome?_eq_none_iff.2 fun x hx => ?_
    rw [hother x (hdisjoint x hx o List.mem_cons_self), hlacking x hx]
  have hrest : rest.findSome? f' = rest.findSome? f := by
    rw [← List.head?_filterMap, ← List.head?_filterMap]
    refine congrArg List.head? (List.filterMap_congr fun x hx => hother x ?_)
    rintro rfl
    exact (List.nodup_cons.1 hnodup).1 hx
  rw [List.findSome?_append, hnearer, Option.none_or, List.findSome?_cons, hrest]
  cases f' o <;> rfl

/-- Where the search does not come to the one object whose answer changed, it ends as before. -/
theorem findSome?_of_not_comesTo (hother : ∀ x, x ≠ o → f' x = f x)
    (hnot : ∀ nearer rest, ids = nearer ++ o :: rest → ¬ ∀ x ∈ nearer, f x = none) :
    ids.findSome? f' = ids.findSome? f := by
  induction ids with
  | nil => rfl
  | cons x ids ih =>
    have hx : x ≠ o := by
      rintro rfl
      exact hnot [] ids rfl fun _ h => absurd h List.not_mem_nil
    rw [List.findSome?_cons, List.findSome?_cons, hother x hx]
    cases hown : f x with
    | some a => rfl
    | none =>
      refine ih fun nearer rest hsplit hlacking => ?_
      refine hnot (x :: nearer) rest (congrArg _ hsplit) fun y hy => ?_
      rcases List.mem_cons.1 hy with rfl | hy
      · exact hown
      · exact hlacking y hy

end Lists

/-! ## What is inherited -/

namespace Heap

/-- The object is ordinary, and so are all behind it along the prototypes. -/
def IsNative (h : Heap) (id : ObjectId) : Prop :=
  h.IsOrdinary id ∧ ∀ x ∈ h.chain id, h.IsOrdinary x

/-- What a list of objects gives for a key: the value that the first of them has which owns it, and
nothing if none does. -/
inductive Inherits (h : Heap) (key : PropertyKey) (ids : List ObjectId) :
    Option ScriptValue → Prop where
  | owned {nearer rest : List ObjectId} {owner : ObjectId} {value : ScriptValue}
      (split : ids = nearer ++ owner :: rest)
      (lacking : ∀ x ∈ nearer, (h.store x).get? key = none)
      (own : (h.store owner).get? key = some value) : Inherits h key ids (some value)
  | nothing (lacking : ∀ x ∈ ids, (h.store x).get? key = none) : Inherits h key ids none

/-- The look-up of a key from a place on comes to an object, with others behind it: no object before
it owns the key. -/
def ComesTo (h : Heap) (key : PropertyKey) (id o : ObjectId) (rest : List ObjectId) : Prop :=
  ∃ nearer, h.chain id = nearer ++ o :: rest ∧ ∀ x ∈ nearer, (h.store x).get? key = none

theorem inherits_iff {h : Heap} {key : PropertyKey} {ids : List ObjectId}
    {r : Option ScriptValue} :
    h.Inherits key ids r ↔ ids.findSome? (fun x => (h.store x).get? key) = r := by
  constructor
  · intro hr
    cases hr with
    | owned split lacking own => exact List.findSome?_eq_some_iff.2 ⟨_, _, _, split, own, lacking⟩
    | nothing lacking => exact List.findSome?_eq_none_iff.2 lacking
  · rintro rfl
    cases hr : ids.findSome? fun x => (h.store x).get? key with
    | none => exact .nothing (List.findSome?_eq_none_iff.1 hr)
    | some value =>
      obtain ⟨nearer, owner, rest, split, own, lacking⟩ := List.findSome?_eq_some_iff.1 hr
      exact .owned split lacking own

/-- From every list something is inherited, if only nothing. -/
theorem exists_inherits (h : Heap) (key : PropertyKey) (ids : List ObjectId) :
    ∃ r, h.Inherits key ids r :=
  ⟨_, inherits_iff.2 rfl⟩

/-- A changed own part with the same link changes no chain. -/
theorem chain_setStore {h : Heap} {place : ObjectId} {s : Store}
    (hs : s.prototype = h.prototype place) (id : ObjectId) :
    (h.setStore place s).chain id = h.chain id := by
  have hwithin : ∀ fuel start,
      (h.setStore place s).chainWithin fuel start = h.chainWithin fuel start := by
    intro fuel
    induction fuel with
    | zero => exact fun _ => rfl
    | succ fuel ih =>
      rintro (- | x)
      · rfl
      · rw [chainWithin, prototype_setStore hs, ih, chainWithin]
  have hsize : (h.setStore place s).objects.size = h.objects.size := Array.size_modify ..
  rw [chain, hsize, hwithin, chain]

end Heap

/-! ## One look-up -/

section Lookups

variable {σ : Type} [Host σ] {w w' : World σ} {id o : ObjectId} {key : PropertyKey}

/-- Looking a key up finds a value, or nothing, and leaves the world as it is: reading yields it, and
searching tells whether there is one. -/
def World.Finds (w : World σ) (id : ObjectId) (key : PropertyKey) (r : Option ScriptValue) : Prop :=
  (id.get? key).on w = (.ok r, w) ∧ (id.has key).on w = (.ok r.isSome, w)

theorem on_hasOwn_of_isOrdinary (ho : w.heap.IsOrdinary id) (key : PropertyKey) :
    (id.hasOwn key).on w = (.ok ((w.heap.store id).decides key), w) := by
  obtain ⟨className, hkind⟩ := ho
  rw [ObjectId.hasOwn, ScriptM.on_get_bind, hkind]
  rfl

/-- **Ordinary objects inherit from the first owner.** -/
theorem World.finds_iff (hnative : w.heap.IsNative id) {r : Option ScriptValue} :
    w.Finds id key r ↔ w.heap.Inherits key (w.heap.chain id) r := by
  have hget : (id.get? key).on w =
      (.ok ((w.heap.chain id).findSome? fun x => (w.heap.store x).get? key), w) := by
    rw [ObjectId.get?, ScriptM.on_get_bind]
    exact on_firstAlong_of_pure fun x hx => on_getOwn_of_isOrdinary (hnative.2 x hx) key
  have hhas : (id.has key).on w =
      (.ok ((w.heap.chain id).findSome? fun x => (w.heap.store x).get? key).isSome, w) := by
    have hany : ((w.heap.chain id).any fun x => (w.heap.store x).contains key) =
        ((w.heap.chain id).findSome? fun x => (w.heap.store x).get? key).isSome := by
      rw [Bool.eq_iff_iff, List.any_eq_true, List.findSome?_isSome_iff]
      rfl
    rw [← hany, ← findSome?_decides]
    exact on_has (on_firstAlong_of_pure fun x hx => on_hasOwn_of_isOrdinary (hnative.2 x hx) key)
  rw [Heap.inherits_iff, Finds, hget, hhas]
  constructor
  · rintro ⟨h, -⟩
    exact Except.ok.inj (congrArg Prod.fst h)
  · rintro rfl
    exact ⟨rfl, rfl⟩

/-! ## One property changed -/

/-- What happens where one property of one object is changed: the other objects and all chains are
what they were, and so is what is found under another key or by a look-up that does not come to the
object. -/
structure World.ChangesAt (w : World σ) (o : ObjectId) (key : PropertyKey) (w' : World σ) :
    Prop where
  objects : ∀ x, x ≠ o → w'.heap.store x = w.heap.store x
  chains : ∀ x, w'.heap.chain x = w.heap.chain x
  others : ∀ x k r, w.heap.IsNative x → (k = key → ∀ rest, ¬ w.heap.ComesTo key x o rest) →
    (w'.Finds x k r ↔ w.Finds x k r)

section Changed

variable {s : Store} (hlink : s.prototype = w.heap.prototype o)
include hlink

omit [Host σ] in
theorem Heap.IsNative.setStore (hnative : w.heap.IsNative id) :
    (w.setStore o s).heap.IsNative id := by
  have hordinary : ∀ x, w.heap.IsOrdinary x → (w.heap.setStore o s).IsOrdinary x := by
    rintro x ⟨className, hkind⟩
    exact ⟨className, (kind?_setStore s).trans hkind⟩
  refine ⟨hordinary id hnative.1, fun x hx => hordinary x (hnative.2 x ?_)⟩
  rwa [← chain_setStore hlink]

/-- What is found in the changed world is what the old chain gives there. -/
theorem World.finds_setStore_iff (hnative : w.heap.IsNative id) {r : Option ScriptValue} :
    (w.setStore o s).Finds id key r ↔
      (w.heap.chain id).findSome? (fun x => ((w.setStore o s).heap.store x).get? key) = r := by
  rw [finds_iff (hnative.setStore hlink), Heap.inherits_iff]
  show ((w.heap.setStore o s).chain id).findSome? _ = r ↔ _
  rw [Heap.chain_setStore hlink]

/-- Where the look-up comes to the changed object, its new answer comes first, and behind it what
the objects behind it answer. -/
theorem World.finds_of_comesTo (hs : w.Sound) (ho : w.heap.Holds o)
    (hnative : w.heap.IsNative id) {rest : List ObjectId} (hcomes : w.heap.ComesTo key id o rest)
    {r : Option ScriptValue} :
    (w.setStore o s).Finds id key r ↔
      (s.get? key).or (rest.findSome? fun x => (w.heap.store x).get? key) = r := by
  obtain ⟨nearer, hchain, hlacking⟩ := hcomes
  -- no chain comes to an object twice, so the objects around it answer as before
  have hnodup := (hs.grounded.walk_chain hs.linked hnative.1.holds).nodup
  rw [hchain] at hnodup
  rw [finds_setStore_iff hlink hnative, hchain, findSome?_of_comesTo _ hnodup hlacking,
    store_after_setStore ho]
  intro x hx
  exact congrArg (Store.get? · key) (Heap.store_setStore_of_ne hx s)

/-- Changing what one object has under a key changes nothing else. -/
theorem World.changesAt_setStore (hsame : ∀ k, k ≠ key → s.get? k = (w.heap.store o).get? k)
    (ho : w.heap.Holds o) : w.ChangesAt o key (w.setStore o s) where
  objects x hx := Heap.store_setStore_of_ne hx s
  chains := Heap.chain_setStore hlink
  others x k r hnative hnot := by
    have hother : ∀ y, y ≠ o →
        ((w.setStore o s).heap.store y).get? k = (w.heap.store y).get? k := fun y hy =>
      congrArg (Store.get? · k) (Heap.store_setStore_of_ne hy s)
    rw [finds_setStore_iff hlink hnative, finds_iff hnative, Heap.inherits_iff]
    by_cases hk : k = key
    · subst hk
      rw [findSome?_of_not_comesTo hother]
      intro nearer rest hsplit hlacking
      exact hnot rfl rest ⟨nearer, hsplit, hlacking⟩
    · have hall : (fun y => ((w.setStore o s).heap.store y).get? k) =
          fun y => (w.heap.store y).get? k := by
        funext y
        by_cases hy : y = o
        · rw [hy, store_after_setStore ho, hsame k hk]
        · exact hother y hy
      rw [hall]

end Changed

/-- **Ordinary objects inherit along their prototypes.** In a reachable world, take objects that are
ordinary and have only ordinary objects behind them. The chain is the whole walk along the links. A
look-up finds what the first object along the chain has that owns the key, and nothing if none does,
and the search finds the key exactly if there is an owner. A put on an object is refused if the
object takes no new properties and does not own the key. Otherwise it changes this one property, and
no other object: every look-up of the key that comes to the object, from the object itself or from
below it with no owner in between, finds the new value, and all others find what they did. Erasing
the key changes this one property too, and every such look-up finds what the objects behind it
inherit. -/
theorem World.Reachable.inheritance (hw : w.Reachable) (key : PropertyKey) :
    (∀ x, w.heap.IsNative x → w.heap.Walk (some x) (w.heap.chain x) ∧
      ∃ r, w.Finds x key r ∧ w.heap.Inherits key (w.heap.chain x) r) ∧
    (∀ o value, w.heap.IsOrdinary o →
      ((w.heap.store o).contains key = false ∧ (w.heap.store o).extensible = false ∧
        ∃ e, (o.put key value).on w = (.error e, w)) ∨
      ∃ w', (o.put key value).on w = (.ok (), w') ∧ w.ChangesAt o key w' ∧
        ∀ x rest, w.heap.IsNative x → w.heap.ComesTo key x o rest →
          w'.Finds x key (some value)) ∧
    ∀ o, w.heap.IsOrdinary o →
      w.ChangesAt o key (w.after (.erase o key)) ∧
      ∀ x rest, w.heap.IsNative x → w.heap.ComesTo key x o rest →
        ∃ r, (w.after (.erase o key)).Finds x key r ∧ w.heap.Inherits key rest r := by
  refine ⟨?_, ?_, ?_⟩
  · intro x hnative
    obtain ⟨r, hr⟩ := w.heap.exists_inherits key (w.heap.chain x)
    have hwalk := hw.sound.grounded.walk_chain hw.sound.linked hnative.1.holds
    exact ⟨hwalk, r, (finds_iff hnative).2 hr, hr⟩
  · intro o value ho
    rw [on_put_of_isOrdinary ho]
    split
    case isFalse hrefuses =>
      simp only [Bool.or_eq_true, not_or, Bool.not_eq_true] at hrefuses
      exact .inl ⟨hrefuses.1, hrefuses.2, _, rfl⟩
    case isTrue =>
      have hlink := Store.prototype_define (w.heap.store o) key value
      refine .inr ⟨_, rfl, changesAt_setStore hlink (fun k hk => ?_) ho.holds, ?_⟩
      · rw [Store.get?_define, if_neg hk]
      · intro x rest hnative hcomes
        rw [finds_of_comesTo hlink hw.sound ho.holds hnative hcomes, Store.get?_define, if_pos rfl]
        rfl
  · intro o ho
    have hlink : ((w.heap.store o).erase key).prototype = w.heap.prototype o := rfl
    refine ⟨changesAt_setStore hlink (fun k hk => Store.get?_erase_of_ne _ hk) ho.holds, ?_⟩
    intro x rest hnative hcomes
    obtain ⟨r, hr⟩ := w.heap.exists_inherits key rest
    refine ⟨r, (finds_of_comesTo hlink hw.sound ho.holds hnative hcomes).2 ?_, hr⟩
    rw [Store.get?_erase, if_pos rfl, Option.none_or, Heap.inherits_iff.1 hr]

end Lookups

namespace Catalog

/-- Three objects, each linked to the one before, where the first has a property. -/
def lineage : World Catalog :=
  ((((((World.initial ⟨0, {}⟩ .standard).after (.ordinary "Object")).after
    (.ordinary "Object")).after (.ordinary "Object")).after (.setPrototype ⟨1⟩ (some ⟨0⟩))).after
    (.setPrototype ⟨2⟩ (some ⟨1⟩))).after (.put ⟨0⟩ (.name "house") (.string "old"))

theorem lineage_reachable : lineage.Reachable := by
  refine ((((((World.initial_reachable _ _).reachable.after (m := .ordinary _) trivial).after
    (m := .ordinary _) trivial).after (m := .ordinary _) trivial).after
    (m := .setPrototype ..) ?second).after (m := .setPrototype ..) ?third).after
    (m := .put ..) ?written
  case second => exact ⟨by decide, fun x hx => Option.some.inj hx ▸ by decide⟩
  case third => exact ⟨by decide, fun x hx => Option.some.inj hx ▸ by decide⟩
  case written => exact Heap.IsOrdinary.holds ⟨_, rfl⟩

theorem lineage_native : lineage.heap.IsNative ⟨2⟩ := by
  refine ⟨⟨_, rfl⟩, fun x hx => ?_⟩
  have hx : x ∈ [⟨2⟩, ⟨1⟩, ⟨0⟩] := hx
  simp only [List.mem_cons, List.not_mem_nil, or_false] at hx
  rcases hx with rfl | rfl | rfl <;> exact ⟨_, rfl⟩

/-- A value put on the object in the middle is found from the last one in place of the inherited
value, which is still there behind it. -/
theorem inheritance_lineage :
    lineage.Finds ⟨2⟩ (.name "house") (some (.string "old")) ∧
    ∃ w', (ObjectId.put ⟨1⟩ (.name "house") (.string "new")).on lineage = (.ok (), w') ∧
      w'.Finds ⟨2⟩ (.name "house") (some (.string "new")) ∧
      w'.heap.store ⟨0⟩ = lineage.heap.store ⟨0⟩ := by
  obtain ⟨hfinds, hput, -⟩ := lineage_reachable.inheritance (.name "house")
  refine ⟨?_, ?_⟩
  · obtain ⟨-, r, hr, -⟩ := hfinds ⟨2⟩ lineage_native
    obtain rfl : some (.string "old") = r := Except.ok.inj (congrArg Prod.fst hr.1)
    exact hr
  · rcases hput ⟨1⟩ (.string "new") ⟨_, rfl⟩ with ⟨-, hclosed, -⟩ | ⟨w', hw', hchanges, hcomes⟩
    · cases hclosed
    · refine ⟨w', hw', hcomes ⟨2⟩ [⟨0⟩] lineage_native ⟨[⟨2⟩], rfl, ?_⟩, ?_⟩
      · simp only [List.mem_singleton, forall_eq]
        rfl
      · exact hchanges.objects ⟨0⟩ (by decide)

end Catalog

end Membrane
