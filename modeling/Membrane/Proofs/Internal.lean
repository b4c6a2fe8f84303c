import Membrane.Proofs.Writing

/-!
# Internal names

Names that belong to the engine never reach a host. Where the strategies of the wrappers ask the
members of their host values, a wrapper answers for such a name with its own properties alone, and
so does every object behind it along the prototypes. So it does for internal names what an ordinary
object does.
-/

namespace Membrane

variable {σ α : Type}

/-! ## Pure look-ups -/

/-- Where all objects answer at once, a look-up along them is a search in their answers. -/
theorem on_firstAlong_of_pure {ask : ObjectId → ScriptM σ (Option α)}
    {answer : ObjectId → Option α} {ids : List ObjectId} {w : World σ}
    (h : ∀ id ∈ ids, (ask id).on w = (.ok (answer id), w)) :
    (firstAlong ask ids).on w = (.ok (ids.findSome? answer), w) := by
  induction ids with
  | nil => rfl
  | cons id rest ih =>
    have hrest := ih fun x hx => h x (List.mem_cons_of_mem _ hx)
    rw [on_firstAlong_cons, h id List.mem_cons_self, List.findSome?_cons]
    cases answer id with
    | none => exact hrest
    | some a => rfl

/-- A search in own parts alone finds a key that one of them has. -/
theorem findSome?_decides (ids : List ObjectId) (store : ObjectId → Store) (key : PropertyKey) :
    (ids.findSome? fun x => (store x).decides key).getD false =
      ids.any fun x => (store x).contains key := by
  induction ids with
  | nil => rfl
  | cons x rest ih =>
    rw [List.findSome?_cons, List.any_cons, Store.decides]
    cases (store x).contains key with
    | true => rfl
    | false => exact ih

/-- The wrapper at a place, if there is one, asks the members of its host value. -/
def Heap.AsksMembers (h : Heap) (id : ObjectId) : Prop :=
  ∀ v, h.wrapper? id = some v → v.policy.accessor.AsksMembers

/-! ## One object -/

section Internal

variable {key : PropertyKey} (internal : key.isInternal = true)
include internal

theorem PropertyKey.ne_name_of_internal {name : String}
    (external : PropertyKey.isInternal (.name name) = false) : key ≠ .name name := by
  rintro rfl
  rw [external] at internal
  cases internal

theorem Subject.intrinsic?_of_internal (subject : Subject) : subject.intrinsic? key = none :=
  intrinsic?_eq_none fun _ => ⟨PropertyKey.ne_name_of_internal internal (by decide),
    PropertyKey.ne_name_of_internal internal (by decide)⟩

theorem HostError.intrinsic?_of_internal (e : HostError) : e.intrinsic? key = none := by
  unfold intrinsic?
  split
  · exact absurd rfl (PropertyKey.ne_name_of_internal internal (by decide))
  · exact absurd rfl (PropertyKey.ne_name_of_internal internal (by decide))
  · rfl

theorem hostError?_bind_of_internal (h : Heap) (id : ObjectId) :
    ((h.hostError? id).bind (·.intrinsic? key)) = none :=
  Option.bind_eq_none_iff.2 fun e _ => e.intrinsic?_of_internal internal

variable [Host σ]

theorem HostValue.isSilent_of_internal (s : σ) (host : HostValue) : host.IsSilent s key where
  reader := by rw [reader?, PropertyKey.memberName?, internal, if_pos rfl, Option.bind_none]
  writer := writer?_of_internal internal
  indexReader := by rw [indexReader?, internal, if_pos rfl]

variable {w : World σ} {id : ObjectId} (haccess : w.heap.AsksMembers id)
include haccess

theorem on_getOwn_of_internal :
    (id.getOwn key).on w = (.ok ((w.heap.store id).get? key), w) := by
  cases hv : w.heap.wrapper? id with
  | none =>
    rw [on_getOwn_of_not_wrapper hv, hostError?_bind_of_internal internal, Option.or_none]
  | some v =>
    have hleft := on_accessor_get_of_silent (haccess v hv)
      (HostValue.isSilent_of_internal internal w.host.state v.subject.value) (v.site w) id
    rw [on_getOwn_of_wrapper hv, on_orElseFrom_of_none hleft,
      v.subject.intrinsic?_of_internal internal, Option.none_or]

theorem on_hasOwn_of_internal :
    (id.hasOwn key).on w = (.ok ((w.heap.store id).decides key), w) := by
  cases hv : w.heap.wrapper? id with
  | none =>
    rw [on_hasOwn_of_not_wrapper hv, hostError?_bind_of_internal internal, Option.isSome_none,
      if_neg Bool.false_ne_true]
  | some v =>
    have hleft := on_accessor_has_of_silent (haccess v hv)
      (HostValue.isSilent_of_internal internal w.host.state v.subject.value)
    rw [on_hasOwn_of_wrapper hv, v.subject.intrinsic?_of_internal internal, Option.isSome_none,
      if_neg Bool.false_ne_true, on_orElseFrom_of_none hleft]

theorem on_put_of_internal (value : ScriptValue) :
    (id.put key value).on w = (id.putOwn key value).on w := by
  cases hv : w.heap.wrapper? id with
  | none =>
    rw [ObjectId.put, ScriptM.on_get_bind, hv]
  | some v =>
    have hown : v.subject.value.destination w.host.state key = .own :=
      (HostValue.WritesTo.own (.inl internal)).eq_destination.symm
    rw [on_put hv (haccess v hv), hown]

end Internal

/-! ## Along the prototypes -/

section Along

variable [Host σ] {key : PropertyKey} {w : World σ} {ids : List ObjectId} {id : ObjectId}

theorem on_get?_of_internal (internal : key.isInternal = true)
    (haccess : ∀ x ∈ w.heap.chain id, w.heap.AsksMembers x) :
    (id.get? key).on w =
      (.ok ((w.heap.chain id).findSome? fun x => (w.heap.store x).get? key), w) := by
  rw [ObjectId.get?, ScriptM.on_get_bind]
  exact on_firstAlong_of_pure fun x hx => on_getOwn_of_internal internal (haccess x hx)

theorem on_has_of_internal (internal : key.isInternal = true)
    (haccess : ∀ x ∈ w.heap.chain id, w.heap.AsksMembers x) :
    (id.has key).on w =
      (.ok (((w.heap.chain id).findSome? fun x => (w.heap.store x).decides key).getD false), w) :=
  on_has (on_firstAlong_of_pure fun x hx => on_hasOwn_of_internal internal (haccess x hx))

omit [Host σ] in
/-- From two objects with the same own part the chains go on alike, also where there is more in the
heap. -/
theorem World.Extends.chain_eq {u : World σ} (hu : w.Extends u) (hs : w.Sound)
    (hid : w.heap.Holds id) {n : ObjectId} (hn : u.heap.Holds n)
    (hsame : u.heap.store n = w.heap.store id) :
    ∃ rest, w.heap.chain id = id :: rest ∧ u.heap.chain n = n :: rest ∧
      ∀ x ∈ rest, w.heap.Holds x := by
  have hwalk := hs.grounded.walk_chain hs.linked hid
  have hheld : ∀ x ∈ w.heap.chain id, w.heap.Holds x := fun x hx => hs.holds_of_mem_chain hid hx
  generalize w.heap.chain id = path at hwalk hheld
  cases hwalk with
  | @step _ rest tail =>
    have hrest : ∀ x ∈ rest, w.heap.Holds x := fun x hx => hheld x (List.mem_cons_of_mem _ hx)
    refine ⟨rest, rfl, ?_, hrest⟩
    have hlink : u.heap.prototype n = w.heap.prototype id := by
      rw [Heap.prototype, hsame, Heap.prototype]
    have htail : u.heap.Walk (u.heap.prototype n) rest := by
      rw [hlink]
      exact tail.congr fun x hx => by rw [Heap.prototype, hu.store x (hrest x hx), Heap.prototype]
    refine (Heap.Walk.step htail).chain_eq fun x hx => ?_
    rcases List.mem_cons.1 hx with rfl | hx
    · exact hn
    · exact hu.holds x (hrest x hx)

omit [Host σ] in
/-- An answer that depends on own parts alone is found at the same place along both chains. -/
theorem World.Extends.findSome?_chain {u : World σ} (hu : w.Extends u) (hs : w.Sound)
    (hid : w.heap.Holds id) {n : ObjectId} (hn : u.heap.Holds n)
    (hsame : u.heap.store n = w.heap.store id) (ask : Store → Option α) :
    ((u.heap.chain n).findSome? fun x => ask (u.heap.store x)) =
      (w.heap.chain id).findSome? fun x => ask (w.heap.store x) := by
  obtain ⟨rest, hchain, hchain', hrest⟩ := hu.chain_eq hs hid hn hsame
  have hasked : ∀ x ∈ rest, ask (u.heap.store x) = ask (w.heap.store x) := by
    intro x hx
    rw [hu.store x (hrest x hx)]
  rw [hchain, hchain', List.findSome?_cons, List.findSome?_cons, hsame]
  cases ask (w.heap.store id) with
  | some a => rfl
  | none =>
    show rest.findSome? _ = rest.findSome? _
    rw [← List.head?_filterMap, ← List.head?_filterMap, List.filterMap_congr hasked]

/-- **Internal names never reach a host.** Take a wrapper whose strategy, and that of every wrapper
behind it along the prototypes, asks the members of its host value. For an internal name, it is
read, searched and written like an ordinary object with the same own part, in the same world or in
one with more in it: with the same result and the same own part in the end. Reading and searching
change nothing at all and writing changes nothing but the own part, whatever members the host values
have: no host code runs, no converter is asked and no context remembers anything. -/
theorem World.Reachable.internal_key (hw : w.Reachable) {v : Wrapper}
    (hv : w.heap.wrapper? id = some v) {key : PropertyKey} (internal : key.isInternal = true)
    (haccess : ∀ x ∈ w.heap.chain id, w.heap.AsksMembers x) {u : World σ} (hu : w.Extends u)
    {n : ObjectId} (hn : u.heap.IsOrdinary n) (hsame : u.heap.store n = w.heap.store id) :
    (∃ answer, (id.get? key).on w = (.ok answer, w) ∧ (n.get? key).on u = (.ok answer, u)) ∧
    (∃ found, (id.has key).on w = (.ok found, w) ∧ (n.has key).on u = (.ok found, u)) ∧
    ∀ value, ∃ store, (id.put key value).on w = (.ok (), w.setStore id store) ∧
      (n.put key value).on u = (.ok (), u.setStore n store) := by
  have hid := Heap.holds_of_wrapper? hv
  have hheld : u.heap.Holds n := by
    obtain ⟨className, hkind⟩ := hn
    exact Heap.holds_of_kind? hkind
  obtain ⟨rest, hchain, hchain', hrest⟩ := hu.chain_eq hw.sound hid hheld hsame
  have hself : w.heap.AsksMembers id := haccess id (hchain ▸ List.mem_cons_self)
  have hnative : u.heap.AsksMembers n := by
    intro x hx
    rw [hn.wrapper?] at hx
    cases hx
  have haccess' : ∀ x ∈ u.heap.chain n, u.heap.AsksMembers x := by
    intro x hx
    rw [hchain'] at hx
    rcases List.mem_cons.1 hx with rfl | hx
    · exact hnative
    · intro y hy
      rw [hu.wrapper? (hrest x hx)] at hy
      exact haccess x (hchain ▸ List.mem_cons_of_mem _ hx) y hy
  refine ⟨⟨_, on_get?_of_internal internal haccess, ?_⟩,
    ⟨_, on_has_of_internal internal haccess, ?_⟩,
    fun value => ⟨(w.heap.store id).define key value, ?_, ?_⟩⟩
  · rw [on_get?_of_internal internal haccess',
      hu.findSome?_chain hw.sound hid hheld hsame fun s => s.get? key]
  · rw [on_has_of_internal internal haccess',
      hu.findSome?_chain hw.sound hid hheld hsame fun s => s.decides key]
  · rw [on_put_of_internal internal hself, on_putOwn, hw.sound.extensible id v hv, Bool.or_true,
      if_pos rfl]
  · rw [on_put_of_internal internal hnative, on_putOwn, hsame, hw.sound.extensible id v hv,
      Bool.or_true, if_pos rfl]

end Along

namespace Catalog

/-- The wrapper of an object with a member under the shortest internal name, and a property of this
name on the wrapper. -/
def withInternal : World Catalog :=
  ((World.initial ⟨8, {
      definitions := #[⟨some "____", .stateMethod (.const (.str "host"))⟩]
      objects := #[⟨⟨7, "Point"⟩, {
        className := "Point"
        methods := [⟨"Point", "____", .exactly 0, .code ⟨0⟩ none, none⟩]
        members := ["____"] }, []⟩]
    }⟩ .standard).after
      (.wrap ⟨⟨{}, .standard, .standard⟩, none, none⟩ (.object ⟨7, "Point"⟩))).after
    (.put ⟨0⟩ (.name "____") (.string "own"))

/-- The name reads as it does on an ordinary object with the same property. -/
theorem internal_key_shortest :
    let u := withInternal.push ⟨.ordinary "Object", withInternal.heap.store ⟨0⟩⟩
    ((ObjectId.get? ⟨0⟩ (.name "____")).on withInternal).1 =
        ((ObjectId.get? ⟨1⟩ (.name "____")).on u).1 ∧
      ((ObjectId.get? ⟨0⟩ (.name "____")).on withInternal).2.runs = withInternal.runs := by
  have hw : withInternal.Reachable := by
    refine ((World.initial_reachable _ _).reachable.after ?wrapped).after ?written
    case wrapped => exact World.serves_none _
    case written =>
      show Heap.Holds _ _
      decide
  have hv : withInternal.heap.wrapper? ⟨0⟩ =
      some ⟨.object ⟨7, "Point"⟩, ⟨{}, .standard, .standard⟩, none, none⟩ := rfl
  have haccess : ∀ x ∈ withInternal.heap.chain ⟨0⟩, withInternal.heap.AsksMembers x := by
    intro x hx y hy
    obtain rfl : x = ⟨0⟩ := List.mem_singleton.1 hx
    cases hv.symm.trans hy
    exact .inl rfl
  have hmore : withInternal.Extends
      (withInternal.push ⟨.ordinary "Object", withInternal.heap.store ⟨0⟩⟩) :=
    .of_heap_push rfl fun _ => rfl
  have hinternal : PropertyKey.isInternal (.name "____") = true := by decide
  obtain ⟨⟨answer, hown, hnative⟩, -, -⟩ :=
    hw.internal_key hv hinternal haccess hmore (n := ⟨1⟩) ⟨_, rfl⟩ rfl
  exact ⟨by rw [hown, hnative], by rw [hown]⟩

/-- A name of three underscores is not internal. -/
example : PropertyKey.isInternal (.name "____") = true ∧
    PropertyKey.isInternal (.name "___") = false := by decide

end Catalog

end Membrane
