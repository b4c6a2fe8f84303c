import Membrane.Proofs.Heap
import Mathlib.Data.List.Perm.Subperm
import Mathlib.Data.List.Nodup

/-!
# Walks along the prototype links

`Walk` follows the links from an object to one without a prototype, with no bound on the way. In a
heap where every walk ends (`Grounded`) and every link leads to an object (`Linked`), the bounded
`chain` is the whole walk and meets no object twice. A new object and a changed link keep a heap
grounded as long as the new link does not lead back to its owner (`Grounded.redirect`).

`Seeks` is the search for one object along the links, again without a bound.
-/

namespace Membrane.Heap

variable {h h' : Heap} {id owner : ObjectId} {start : Option ObjectId} {path : List ObjectId}

/-- A walk along the prototype links up to an object that has none. -/
inductive Walk (h : Heap) : Option ObjectId → List ObjectId → Prop where
  | done : Walk h none []
  | step {id : ObjectId} {rest : List ObjectId} (tail : Walk h (h.prototype id) rest) :
      Walk h (some id) (id :: rest)

/-- From every object the walk along the prototype links ends. -/
def Grounded (h : Heap) : Prop := ∀ id, ∃ path, h.Walk (some id) path

/-! ## One walk -/

/-- The links decide the walk. -/
theorem Walk.unique (hp : h.Walk start path) {path' : List ObjectId} (hp' : h.Walk start path') :
    path = path' := by
  induction hp generalizing path' with
  | done =>
    cases hp'
    rfl
  | step _ ih =>
    cases hp' with
    | step tail => rw [ih tail]

/-- From any object on a walk, the walk goes on with the rest of it. -/
theorem Walk.from_mem (hp : h.Walk start path) (hid : id ∈ path) :
    ∃ before rest, path = before ++ id :: rest ∧ h.Walk (some id) (id :: rest) := by
  induction hp with
  | done => cases hid
  | @step x rest tail ih =>
    rcases List.mem_cons.1 hid with rfl | hid
    · exact ⟨[], rest, rfl, .step tail⟩
    · obtain ⟨before, rest', hrest, hwalk⟩ := ih hid
      exact ⟨x :: before, rest', by rw [hrest, List.cons_append], hwalk⟩

/-- A walk that ends meets no object twice. -/
theorem Walk.nodup (hp : h.Walk start path) : path.Nodup := by
  induction hp with
  | done => exact List.nodup_nil
  | @step x rest tail ih =>
    refine List.nodup_cons.2 ⟨fun hx => ?_, ih⟩
    -- the walk from a second `x` would be shorter than the one from the first
    obtain ⟨before, rest', hrest, hwalk⟩ := tail.from_mem hx
    have heq : x :: rest = x :: rest' := (Walk.step tail).unique hwalk
    have hlen := congrArg List.length heq
    rw [hrest] at hlen
    simp only [List.length_cons, List.length_append] at hlen
    omega

/-- A walk stays in the heap. -/
theorem Walk.holds (hl : h.Linked) (hp : h.Walk start path)
    (hstart : ∀ id, start = some id → h.Holds id) : ∀ id ∈ path, h.Holds id := by
  induction hp with
  | done => exact fun _ hid => absurd hid List.not_mem_nil
  | @step x rest tail ih =>
    intro id hid
    rcases List.mem_cons.1 hid with rfl | hid
    · exact hstart _ rfl
    · exact ih (fun link hlink => hl x link hlink) id hid

/-- A walk that avoids the changed links is still a walk. -/
theorem Walk.congr (hp : h.Walk start path)
    (hsame : ∀ id ∈ path, h'.prototype id = h.prototype id) : h'.Walk start path := by
  induction hp with
  | done => exact .done
  | @step x rest tail ih =>
    have htail := ih fun id hid => hsame id (List.mem_cons_of_mem _ hid)
    rw [← hsame x List.mem_cons_self] at htail
    exact .step htail

/-- A path that meets objects of the heap only, and none twice, is not longer than the heap. -/
theorem length_le_of_nodup (hnodup : path.Nodup) (hheld : ∀ id ∈ path, h.Holds id) :
    path.length ≤ h.objects.size := by
  have hinj : Function.Injective ObjectId.index := fun a b hab => by
    cases a
    cases b
    exact congrArg ObjectId.mk hab
  have hmem : (path.map ObjectId.index) ⊆ List.range h.objects.size := by
    intro i hi
    obtain ⟨id, hid, rfl⟩ := List.mem_map.1 hi
    exact List.mem_range.2 (hheld id hid)
  have hsub := (hnodup.map hinj).subperm hmem
  simpa using hsub.length_le

/-! ## The bounded chain -/

theorem chainWithin_eq (hp : h.Walk start path) {fuel : Nat} (hfuel : path.length ≤ fuel) :
    h.chainWithin fuel start = path := by
  induction hp generalizing fuel with
  | done => cases fuel <;> rfl
  | step _ ih =>
    cases fuel with
    | zero => exact absurd hfuel (Nat.not_succ_le_zero _)
    | succ fuel => rw [chainWithin, ih (Nat.le_of_succ_le_succ hfuel)]

/-- A walk through the heap is the chain of the object that it starts from. -/
theorem Walk.chain_eq (hp : h.Walk (some id) path) (hheld : ∀ x ∈ path, h.Holds x) :
    h.chain id = path :=
  chainWithin_eq hp (length_le_of_nodup hp.nodup hheld)

/-- In a grounded heap the chain of an object is its whole walk. -/
theorem Grounded.walk_chain (hg : h.Grounded) (hl : h.Linked) (hid : h.Holds id) :
    h.Walk (some id) (h.chain id) := by
  obtain ⟨path, hp⟩ := hg id
  have hstart : ∀ x, some id = some x → h.Holds x := fun x hx => Option.some.inj hx ▸ hid
  rw [hp.chain_eq (hp.holds hl hstart)]
  exact hp

/-- The chain of an object starts with the object itself. -/
theorem chain_eq_cons (hid : h.Holds id) :
    h.chain id = id :: h.chainWithin (h.objects.size - 1) (h.prototype id) := by
  have hsize : h.objects.size = h.objects.size - 1 + 1 := by
    have := Nat.lt_of_le_of_lt (Nat.zero_le _) hid
    omega
  rw [chain, hsize, chainWithin, Nat.add_sub_cancel]

/-! ## Changing the links -/

/-- A heap stays grounded when one object is linked to where a walk starts that avoids it. -/
theorem Grounded.redirect (hg : h.Grounded) (owner : ObjectId) (hp : h.Walk start path)
    (howner : owner ∉ path)
    (hlink : h'.prototype owner = start)
    (hsame : ∀ id, id ≠ owner → h'.prototype id = h.prototype id) : h'.Grounded := by
  have hpath : h'.Walk start path := hp.congr fun id hid =>
    hsame id fun he => howner (he ▸ hid)
  have hfrom : h'.Walk (some owner) (owner :: path) := .step (hlink ▸ hpath)
  have hall : ∀ {p l}, h.Walk p l → ∃ l', h'.Walk p l' := by
    intro p l hwalk
    induction hwalk with
    | done => exact ⟨[], .done⟩
    | @step x rest _ ih =>
      by_cases hx : x = owner
      · exact ⟨_, hx ▸ hfrom⟩
      · obtain ⟨l', hl'⟩ := ih
        exact ⟨x :: l', .step (hsame x hx ▸ hl')⟩
  intro id
  obtain ⟨l, hwalk⟩ := hg id
  exact hall hwalk

/-- A new object leaves a heap grounded, since no old link leads to it. -/
theorem Grounded.push (hg : h.Grounded) (hl : h.Linked) {object : ScriptObject}
    (ho : ∀ link, object.store.prototype = some link → h.Holds link) :
    (h.push object).Grounded := by
  obtain ⟨path, hp⟩ : ∃ path, h.Walk object.store.prototype path := by
    cases object.store.prototype with
    | none => exact ⟨[], .done⟩
    | some link => exact hg link
  refine hg.redirect h.next hp (fun hmem => ?_) ?_ fun id hid => ?_
  · exact (hp.holds hl ho _ hmem).ne_next rfl
  · rw [prototype_push, if_pos rfl]
  · rw [prototype_push, if_neg hid]

/-- A changed own part with the same link changes no walk. -/
theorem Grounded.setStore (hg : h.Grounded) {store : Store}
    (hs : store.prototype = h.prototype owner) : (h.setStore owner store).Grounded := by
  intro id
  obtain ⟨path, hp⟩ := hg id
  exact ⟨path, hp.congr fun _ _ => prototype_setStore hs⟩

/-- Taking a link away, or replacing it by one that does not lead back, leaves a heap grounded. -/
theorem Grounded.relink (hg : h.Grounded) (howner : h.Holds owner) {store : Store}
    (hp : h.Walk store.prototype path) (hn : owner ∉ path) :
    (h.setStore owner store).Grounded := by
  refine hg.redirect owner hp hn ?_ fun id hid => ?_
  · rw [prototype, store_setStore_self howner]
  · rw [prototype, store_setStore_of_ne hid, prototype]

/-! ## The search for an object -/

/-- The search for an object along the links, from a place on. -/
inductive Seeks (h : Heap) (owner : ObjectId) : Option ObjectId → Bool → Prop where
  | exhausted : Seeks h owner none false
  | found : Seeks h owner (some owner) true
  | onward {id : ObjectId} {answer : Bool} (hne : owner ≠ id)
      (rest : Seeks h owner (h.prototype id) answer) : Seeks h owner (some id) answer

/-- Where the walk ends, the search for an object ends, with the answer whether it is met. -/
theorem Walk.seeks_iff (hp : h.Walk start path) {answer : Bool} :
    h.Seeks owner start answer ↔ answer = decide (owner ∈ path) := by
  constructor
  · intro hs
    induction hp with
    | done =>
      cases hs
      rfl
    | @step x rest tail ih =>
      cases hs with
      | found => simp
      | onward hne rest => simpa [hne] using ih rest
  · rintro rfl
    induction hp with
    | done => exact .exhausted
    | @step x rest tail ih =>
      by_cases hx : owner = x
      · subst hx
        simpa using Seeks.found
      · simpa [hx] using Seeks.onward hx ih

end Membrane.Heap
