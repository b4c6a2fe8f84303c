import Membrane.Catalog.Running
import Membrane.Proofs.Reach

/-!
# Prototype links never close a cycle

In every reachable world the walk along the links ends without meeting an object twice, so the loops
over the links end too: the search that looks for a cycle (`Heap.Seeks`), and the look-up that asks
an object and then its prototype (`LooksUp`). Both are stated without a bound and agree with the
operations, which go along the bounded `Heap.chain`. A link is refused exactly when it would lead
back to its owner.
-/

namespace Membrane

variable {σ α : Type}

/-! ## The look-up as a recursion -/

/-- An object is asked, then its prototype, and so on until one answers or fails. The prototype is
read off the world that asking the object has left. -/
inductive LooksUp (ask : ObjectId → ScriptM σ (Option α)) :
    Option ObjectId → World σ → Except ScriptError (Option α) × World σ → Prop where
  | exhausted {w : World σ} : LooksUp ask none w (.ok none, w)
  | answered {id : ObjectId} {w w' : World σ} {a : α} (own : (ask id).on w = (.ok (some a), w')) :
      LooksUp ask (some id) w (.ok (some a), w')
  | failed {id : ObjectId} {w w' : World σ} {e : ScriptError}
      (own : (ask id).on w = (.error e, w')) : LooksUp ask (some id) w (.error e, w')
  | onward {id : ObjectId} {w w' : World σ} {r : Except ScriptError (Option α) × World σ}
      (own : (ask id).on w = (.ok none, w')) (rest : LooksUp ask (w'.heap.prototype id) w' r) :
      LooksUp ask (some id) w r

variable {ask : ObjectId → ScriptM σ (Option α)} {start : Option ObjectId} {path : List ObjectId}
  {w : World σ}

theorem looksUp_some {id : ObjectId} {r : Except ScriptError (Option α) × World σ} :
    LooksUp ask (some id) w r ↔ match (ask id).on w with
      | (.ok none, w') => LooksUp ask (w'.heap.prototype id) w' r
      | (.ok (some a), w') => r = (.ok (some a), w')
      | (.error e, w') => r = (.error e, w') := by
  constructor
  · intro h
    cases h with
    | answered own => rw [own]
    | failed own => rw [own]
    | onward own rest =>
      rw [own]
      exact rest
  · intro h
    match hown : (ask id).on w with
    | (.ok none, w') =>
      rw [hown] at h
      exact .onward hown h
    | (.ok (some a), w') =>
      rw [hown] at h
      exact h ▸ .answered hown
    | (.error e, w') =>
      rw [hown] at h
      exact h ▸ .failed hown

theorem on_firstAlong_cons (ask : ObjectId → ScriptM σ (Option α)) (id : ObjectId)
    (rest : List ObjectId) (w : World σ) :
    (firstAlong ask (id :: rest)).on w = match (ask id).on w with
      | (.ok none, w') => (firstAlong ask rest).on w'
      | (.ok (some a), w') => (.ok (some a), w')
      | (.error e, w') => (.error e, w') := by
  rw [firstAlong, ScriptM.on_bind]
  match (ask id).on w with
  | (.ok none, _) => rfl
  | (.ok (some _), _) => rfl
  | (.error _, _) => rfl

/-- Where the walk ends, the look-up ends, with the first answer along it: asking an object leaves
the links of the objects that are there alone. -/
theorem Heap.Walk.looksUp_iff (hp : w.heap.Walk start path) (hpath : ∀ id ∈ path, w.heap.Holds id)
    (hask : ∀ id ∈ path, ∀ v, w.Extends v → v.Extends ((ask id).on v).2) {v : World σ}
    (hv : w.Extends v) {r : Except ScriptError (Option α) × World σ} :
    LooksUp ask start v r ↔ r = (firstAlong ask path).on v := by
  induction hp generalizing v with
  | done =>
    constructor
    · intro h
      cases h
      rfl
    · rintro rfl
      exact .exhausted
  | @step id rest tail ih =>
    have hext := hask id List.mem_cons_self v hv
    rw [looksUp_some, on_firstAlong_cons]
    match hown : (ask id).on v with
    | (.ok none, v') =>
      rw [hown] at hext
      have hv' := hv.trans hext
      have hlink : v'.heap.prototype id = w.heap.prototype id := by
        rw [prototype, hv'.store id (hpath id List.mem_cons_self), prototype]
      dsimp only
      rw [hlink]
      exact ih (fun x hx => hpath x (List.mem_cons_of_mem _ hx))
        (fun x hx => hask x (List.mem_cons_of_mem _ hx)) hv'
    | (.ok (some a), v') => exact Iff.rfl
    | (.error e, v') => exact Iff.rfl

/-! ## Look-ups end -/

variable [Host σ]

theorem World.Sound.looksUp_getOwn (hs : w.Sound) {id : ObjectId} (hid : w.heap.Holds id)
    (key : PropertyKey) {r : Except ScriptError (Option ScriptValue) × World σ} :
    LooksUp (·.getOwn key) (some id) w r ↔ r = (id.get? key).on w := by
  have hpath : ∀ x ∈ w.heap.chain id, w.heap.Holds x := fun x hx => hs.holds_of_mem_chain hid hx
  apply (hs.grounded.walk_chain hs.linked hid).looksUp_iff hpath _ (.refl w)
  intro x hx v hv
  exact (ScriptM.Proceeds.getOwn ((hs.suits (hpath x hx)).mono hv) key).widens

theorem World.Sound.looksUp_hasOwn (hs : w.Sound) {id : ObjectId} (hid : w.heap.Holds id)
    (key : PropertyKey) {r : Except ScriptError (Option Bool) × World σ} :
    LooksUp (·.hasOwn key) (some id) w r ↔
      r = (firstAlong (·.hasOwn key) (w.heap.chain id)).on w := by
  have hpath : ∀ x ∈ w.heap.chain id, w.heap.Holds x := fun x hx => hs.holds_of_mem_chain hid hx
  apply (hs.grounded.walk_chain hs.linked hid).looksUp_iff hpath _ (.refl w)
  intro x _ v _
  exact (ScriptM.Proceeds.hasOwn (t := .any) x key).widens

/-- Whether a property is found is what the look-up along the prototypes decides, and no where it
decides nothing. -/
theorem on_has {id : ObjectId} {key : PropertyKey} {r : Except ScriptError (Option Bool)}
    {w' : World σ} (h : (firstAlong (·.hasOwn key) (w.heap.chain id)).on w = (r, w')) :
    (id.has key).on w = (r.map (·.getD false), w') := by
  rw [ObjectId.has, ScriptM.on_get_bind, ScriptM.on_bind, h]
  cases r <;> rfl

/-! ## Links -/

omit [Host σ] in
/-- An extensible object takes any other link that does not lead back to it. -/
theorem on_setPrototype_of_ne {owner link : ObjectId} (w : World σ)
    (hext : (w.heap.store owner).extensible = true) (hne : w.heap.prototype owner ≠ some link) :
    (owner.setPrototype (some link)).on w =
      if owner ∈ w.heap.chain link then (.ok false, w)
      else (.ok true, w.setStore owner { w.heap.store owner with prototype := some link }) := by
  rw [on_setPrototype]
  dsimp only
  rw [if_neg hne, hext, Bool.not_true, Bool.false_or]
  simp only [decide_eq_true_eq]

omit [Host σ] in
/-- Where an object was linked anew, the links of all others are as before. -/
theorem prototype_relinked {owner : ObjectId} (hid : w.heap.Holds owner) (link : ObjectId)
    (x : ObjectId) :
    (w.setStore owner { w.heap.store owner with prototype := some link }).heap.prototype x =
      if x = owner then some link else w.heap.prototype x := by
  show (w.heap.setStore owner _).prototype x = _
  by_cases hx : x = owner
  · subst hx
    rw [if_pos rfl, Heap.prototype, Heap.store_setStore_self hid]
  · rw [if_neg hx, Heap.prototype, Heap.store_setStore_of_ne hx, Heap.prototype]

/-! ## The prototype links of a reachable world -/

/-- **No reachable world has a cycle of prototype links, and no link makes one.** From every object
there is one walk along the links, it ends, and it meets no object twice. So the search for an
object ends with the answer whether it is on the way, and the look-up of a property ends where
`get?` and `has` do. An extensible object refuses a link that it does not have exactly when the link
would lead back to it; then nothing has changed, and otherwise no link but its own. -/
theorem World.Reachable.prototypes (hw : w.Reachable) :
    (∀ id, w.heap.Holds id →
      (∀ path, w.heap.Walk (some id) path ↔ path = w.heap.chain id) ∧ (w.heap.chain id).Nodup) ∧
    (∀ owner id, w.heap.Holds id →
      ∀ answer, w.heap.Seeks owner (some id) answer ↔ answer = decide (owner ∈ w.heap.chain id)) ∧
    (∀ id key, w.heap.Holds id →
      (∀ r, LooksUp (·.getOwn key) (some id) w r ↔ r = (id.get? key).on w) ∧
      ∃ r w', (∀ r', LooksUp (·.hasOwn key) (some id) w r' ↔ r' = (r, w')) ∧
        (id.has key).on w = (r.map (·.getD false), w')) ∧
    (∀ owner link, w.heap.Holds owner → w.heap.Holds link →
      (w.heap.store owner).extensible = true → w.heap.prototype owner ≠ some link →
      (owner ∈ w.heap.chain link ∧ (owner.setPrototype (some link)).on w = (.ok false, w)) ∨
      (owner ∉ w.heap.chain link ∧
        ∃ w', (owner.setPrototype (some link)).on w = (.ok true, w') ∧
          ∀ x, w'.heap.prototype x = if x = owner then some link else w.heap.prototype x)) := by
  have hs := hw.sound
  have hwalk : ∀ id, w.heap.Holds id → w.heap.Walk (some id) (w.heap.chain id) := by
    intro id hid
    exact hs.grounded.walk_chain hs.linked hid
  refine ⟨?_, ?_, ?_, ?_⟩
  · intro id hid
    refine ⟨fun path => ?_, (hwalk id hid).nodup⟩
    constructor
    · intro hp
      exact hp.unique (hwalk id hid)
    · rintro rfl
      exact hwalk id hid
  · intro owner id hid answer
    exact (hwalk id hid).seeks_iff
  · intro id key hid
    constructor
    · intro r
      exact hs.looksUp_getOwn hid key
    · exact ⟨_, _, fun r => hs.looksUp_hasOwn hid key, on_has rfl⟩
  · intro owner link howner hlink hext hne
    rw [on_setPrototype_of_ne w hext hne]
    by_cases hmem : owner ∈ w.heap.chain link
    · exact .inl ⟨hmem, if_pos hmem⟩
    · exact .inr ⟨hmem, _, if_neg hmem, prototype_relinked howner link⟩

/-- The world of a new realm: the object prototype, the function prototype and the global object. -/
def Catalog.newRealm : World Catalog := (World.initial ⟨0, {}⟩ .standard).after .makeRealm

/-- In a new realm the object prototype cannot be linked to the global object, which is linked to it
already, and the function prototype can. -/
theorem Catalog.prototypes_newRealm :
    (ObjectId.setPrototype ⟨0⟩ (some ⟨2⟩)).on newRealm = (.ok false, newRealm) ∧
    ∃ w', (ObjectId.setPrototype ⟨1⟩ (some ⟨2⟩)).on newRealm = (.ok true, w') ∧
      ∀ x, w'.heap.prototype x = if x = ⟨1⟩ then some ⟨2⟩ else newRealm.heap.prototype x := by
  have hw : newRealm.Reachable := (World.initial_reachable _ _).reachable.after trivial
  have hlinks := hw.prototypes.2.2.2
  refine ⟨?_, ?_⟩
  · rcases hlinks ⟨0⟩ ⟨2⟩ (by decide) (by decide) rfl (by decide) with ⟨-, h⟩ | ⟨h, -⟩
    · exact h
    · exact absurd (by decide) h
  · rcases hlinks ⟨1⟩ ⟨2⟩ (by decide) (by decide) rfl (by decide) with ⟨h, -⟩ | ⟨-, h⟩
    · exact absurd h (by decide)
    · exact h

end Membrane
