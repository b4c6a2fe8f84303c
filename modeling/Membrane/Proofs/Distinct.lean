import Membrane.Proofs.Listing

/-!
# Keys that are listed twice

No object of a reachable world has an own property twice, since a property that is given a value
again keeps its place. So no object lists a key twice that has it from one source only. A wrapper
has keys from two sources, its own properties and the members of its host value, and these are not
compared.
-/

namespace Membrane

variable {σ : Type}

/-! ## Own properties -/

/-- No object has an own property twice. -/
def World.Distinct (w : World σ) : Prop := ∀ id, (w.heap.store id).keys.Nodup

namespace World.Distinct

variable {w w' : World σ}

theorem of_heap_eq (h : w.Distinct) (hheap : w'.heap = w.heap) : w'.Distinct := by
  intro id
  rw [hheap]
  exact h id

theorem push (h : w.Distinct) (object : ScriptObject) (hobject : object.store.keys.Nodup)
    (hheap : w'.heap = w.heap.push object) : w'.Distinct := by
  intro id
  rw [hheap, Heap.store_push]
  split
  · exact hobject
  · exact h id

theorem pushError (h : w.Distinct) (e : HostError) : (w.pushError e).Distinct :=
  h.push { kind := .hostError e } List.nodup_nil rfl

theorem setStore (h : w.Distinct) (id : ObjectId) {store : Store} (hstore : store.keys.Nodup) :
    (w.setStore id store).Distinct := by
  intro x
  show (Heap.store (Heap.setStore ..) x).keys.Nodup
  by_cases hid : w.heap.Holds id
  · by_cases hx : x = id
    · subst hx
      rwa [Heap.store_setStore_self hid]
    · rw [Heap.store_setStore_of_ne hx]
      exact h x
  · rw [Heap.setStore_of_not_holds hid]
    exact h x

end World.Distinct

variable [Host σ] {w w' : World σ} {direct : Prop}

theorem Border.distinct (h : Border .any w w') (hd : w.Distinct) : w'.Distinct := by
  cases h with
  | address => exact hd.of_heap_eq rfl
  | ran i outcome => exact hd.of_heap_eq rfl
  | incoming policy value among outcome => exact hd.of_heap_eq rfl
  | outgoing policy value among outcome => exact hd.of_heap_eq rfl
  | recalled site subject stands known => exact hd.of_heap_eq rfl
  | wrapped site subject stands unknown =>
    exact hd.push (site.wrapper subject) List.nodup_nil (w.heap_pushWrapper ..)

theorem Breaks.distinct {e : ScriptError} (h : Breaks .any w e w') (hd : w.Distinct) :
    w'.Distinct := by
  cases h with
  | ran i outcome =>
    have hran : (w.invoke i).2.Distinct := hd.of_heap_eq rfl
    exact hran.pushError _
  | incoming policy value among outcome => exact hd.of_heap_eq rfl
  | outgoing policy value among outcome => exact hd.of_heap_eq rfl
  | otherwise _ lenient => exact hd

theorem Change.distinct (h : Change direct w w') (hd : w.Distinct) : w'.Distinct := by
  cases h with
  | border step => exact step.distinct hd
  | breaks step => exact step.distinct hd
  | recalled allowed context key entry known => exact hd.of_heap_eq rfl
  | stored allowed context key entry stands fits =>
    exact hd.of_heap_eq (w.heap_keep context key entry)
  | host side => exact hd.of_heap_eq rfl
  | opened policy => exact hd.of_heap_eq rfl
  | retained c => exact hd.of_heap_eq rfl
  | released c => exact hd.of_heap_eq rfl
  | setInForce accessor => exact hd.of_heap_eq rfl
  | born className store extensible distinct linked => exact hd.push _ distinct rfl
  | error e => exact hd.pushError e
  | defined id key value => exact hd.setStore id (Store.nodup_define (hd id))
  | erased id key ordinary => exact hd.setStore id (Store.nodup_erase (hd id))
  | sealed id ordinary => exact hd.setStore id (hd id)
  | unlinked id => exact hd.setStore id (hd id)
  | linked id link owner target extensible away => exact hd.setStore id (hd id)

theorem Changes.distinct (h : Changes direct w w') (hd : w.Distinct) : w'.Distinct := by
  induction h with
  | refl => exact hd
  | tail _ hstep ih => exact hstep.distinct ih

theorem World.Reachable.distinct (hw : w.Reachable) : w.Distinct := by
  obtain ⟨host, inForce, h⟩ := hw
  exact (h.changes (initial_sound host inForce)).1.distinct fun _ => List.nodup_nil

/-! ## Listed keys -/

variable {id : ObjectId}

theorem on_ids_of_hostError {e : HostError} (he : w.heap.kind? id = some (.hostError e)) :
    (id.ids).on w = (.ok ([.name "name", .name "message"] ++
      (w.heap.store id).keys.filter fun key => (e.intrinsic? key).isNone), w) := by
  rw [ObjectId.ids, ScriptM.on_get_bind]
  dsimp only
  rw [he]
  rfl

/-- An error lists its name and its message before its other keys. -/
theorem HostError.nodup_ids (e : HostError) {own : List PropertyKey} (h : own.Nodup) :
    ([PropertyKey.name "name", .name "message"] ++
      own.filter fun key => (e.intrinsic? key).isNone).Nodup := by
  refine List.Nodup.append (by decide) (h.filter _) fun key hintrinsic hown => ?_
  have hnone := (List.mem_filter.1 hown).2
  simp only [List.mem_cons, List.not_mem_nil, or_false] at hintrinsic
  rcases hintrinsic with rfl | rfl <;> cases hnone

/-- Two lists without repetition, one behind the other, have a key at most twice, and twice exactly
if both have it. -/
theorem count_append_of_nodup {own listed : List PropertyKey} (hown : own.Nodup)
    (hlisted : listed.Nodup) (key : PropertyKey) :
    (own ++ listed).count key ≤ 2 ∧
      ((own ++ listed).count key = 2 ↔ key ∈ own ∧ key ∈ listed) := by
  rw [List.count_append, ← List.count_pos_iff (l := own), ← List.count_pos_iff (l := listed)]
  have hown := List.nodup_iff_count_le_one.1 hown key
  have hlisted := List.nodup_iff_count_le_one.1 hlisted key
  omega

/-- **A key is listed twice only if it is an own property of a wrapper and a name of its host.** In
a reachable world every object lists its keys without running anything. An ordinary object and a
wrapped error list no key twice. A wrapper lists no key more than twice, and exactly those twice
that it has as an own property and that a member of its host value stands for: those come once among
the own keys and once among the names of the host. -/
theorem World.Reachable.ids_repeat (hw : w.Reachable) (id : ObjectId) :
    ∃ keys, (id.ids).on w = (.ok keys, w) ∧
      (w.heap.wrapper? id = none → keys.Nodup) ∧
      ∀ v, w.heap.wrapper? id = some v → ∀ key, keys.count key ≤ 2 ∧
        (keys.count key = 2 ↔ (w.heap.store id).contains key = true ∧
          ∃ member ∈ v.subject.value.members w.host.state,
            ∃ name, FoldsTo member name ∧ key = .name name) := by
  have hown := hw.distinct id
  rcases hkind : w.heap.kind? id with _ | (className | v | e)
  case some.wrapper =>
    have hv := Heap.wrapper?_eq_some.2 hkind
    have hperm := v.policy.config.idOrder.perm_arrange (w.heap.store id).keys
    refine ⟨_, on_ids_of_wrapper hv, fun hnone => ?_, fun v' hv' key => ?_⟩
    · cases hv.symm.trans hnone
    · cases hv.symm.trans hv'
      rw [Store.contains_eq_true, ← mem_foldedKeys, ← hperm.mem_iff]
      exact count_append_of_nodup (hperm.nodup_iff.2 hown) (nodup_foldedKeys _) key
  case some.hostError =>
    refine ⟨_, on_ids_of_hostError hkind, fun _ => e.nodup_ids hown, fun v hv => ?_⟩
    cases hkind.symm.trans (Heap.wrapper?_eq_some.1 hv)
  all_goals
    refine ⟨(w.heap.store id).keys, ?_, fun _ => hown, fun v hv => ?_⟩
    · rw [ObjectId.ids, ScriptM.on_get_bind]
      dsimp only
      rw [hkind]
      rfl
    · cases hkind.symm.trans (Heap.wrapper?_eq_some.1 hv)

namespace Catalog

/-- The wrapper of an object with a member that can only be read, after that was written to. -/
def withCount : World Catalog :=
  ((World.initial ⟨8, {
      definitions := #[⟨some "count", .stateMethod (.const (.int 0))⟩]
      objects := #[⟨⟨7, "Counter"⟩, {
        className := "Counter"
        methods := [⟨"Counter", "count", .exactly 0, .code ⟨0⟩ none, none⟩]
        members := ["count", "reset"] }, []⟩]
    }⟩ .standard).after
      (.wrap ⟨⟨{}, .standard, .standard⟩, none, none⟩ (.object ⟨7, "Counter"⟩))).after
    (.put ⟨0⟩ (.name "count") .null)

theorem withCount_reachable : withCount.Reachable := by
  refine ((World.initial_reachable _ _).reachable.after ?wrapped).after ?written
  case wrapped => exact World.serves_none _
  case written =>
    show Heap.Holds _ _
    decide

/-- The key that was written is listed twice, and the other name of the host once. -/
theorem ids_repeat_count : ∃ keys, (ObjectId.ids ⟨0⟩).on withCount = (.ok keys, withCount) ∧
    keys.count (.name "count") = 2 ∧ keys.count (.name "reset") ≠ 2 := by
  have hv : withCount.heap.wrapper? ⟨0⟩ =
      some ⟨.object ⟨7, "Counter"⟩, ⟨{}, .standard, .standard⟩, none, none⟩ := rfl
  obtain ⟨keys, hids, -, hwrapper⟩ := withCount_reachable.ids_repeat ⟨0⟩
  refine ⟨keys, hids, (hwrapper _ hv _).2.2 ⟨by decide, "count", by decide, "count", ?_, rfl⟩, ?_⟩
  · exact foldsTo_iff.2 (by decide)
  · intro hreset
    have hown : (withCount.heap.store ⟨0⟩).contains (.name "reset") = false := by decide
    rw [((hwrapper _ hv _).2.1 hreset).1] at hown
    cases hown

/-- So a reachable object may list a key twice. -/
theorem ids_not_nodup : withCount.Reachable ∧ ∃ keys,
    (ObjectId.ids ⟨0⟩).on withCount = (.ok keys, withCount) ∧ ¬ keys.Nodup :=
  ⟨withCount_reachable, [.name "count", .name "count", .name "reset"], rfl, by decide⟩

end Catalog

end Membrane
