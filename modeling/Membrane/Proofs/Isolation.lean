import Membrane.Catalog.Running
import Membrane.Proofs.Confinement

/-!
# Contexts are isolated

What any one move changes is little: the memory of the contexts that it works in, the own part of
the one object that it is issued on, and the state of the host as far as host code is run. So a
context whose wrappers are left out of a run (`Move.Avoids`) is the same at its end, even if the
run works on wrappers of the same host values that were made in other contexts.
-/

namespace Membrane

variable {σ : Type} {w w' : World σ} {a b c : ContextId} {m : Move σ}

/-- The move leaves a context and its wrappers out. -/
def Move.Avoids (a : ContextId) (w : World σ) (m : Move σ) : Prop :=
  ¬ m.contexts w a ∧
    ∀ id v, m.object? = some id → w.heap.wrapper? id = some v → v.context ≠ some a

/-- The object is a wrapper that was made in one context, and behind it, along the prototypes, there
is none that was made in another one. -/
def Heap.IsApart (h : Heap) (b a : ContextId) (id : ObjectId) : Prop :=
  (∃ v, h.wrapper? id = some v ∧ v.context = some b) ∧
    ∀ x ∈ h.chain id, ∀ v, h.wrapper? x = some v → v.context ≠ some a

/-- The move wraps through one context only, hands no other one to calls, and works on wrappers of
that context only, with none of another context behind them. -/
def Move.KeepsTo (b a : ContextId) (w : World σ) : Move σ → Prop
  | .retain context | .release context => context = b
  | .memoize context _ _ => context = some b
  | .wrap site _ | .toScript site _ => site.context = some b
  | .get id _ | .has id _ | .put id _ _ | .setPrototype id _ | .hasInstance id _ =>
    w.heap.IsApart b a id
  | .call id context _ _ _ | .construct id context _ _ =>
    w.heap.IsApart b a id ∧ (context = some b ∨ context = none)
  | _ => True

/-- What keeps to one context and its wrappers leaves another one out. -/
theorem Move.KeepsTo.avoids (h : m.KeepsTo b a w) (hm : m.Allowed w) (hab : a ≠ b) :
    m.Avoids a w := by
  have hsome : ∀ {context : Option ContextId}, context = some b ∨ context = none →
      context ≠ some a := by
    rintro context (rfl | rfl)
    · exact fun heq => hab (Option.some.inj heq).symm
    · exact nofun
  have hordinary : ∀ {id x v}, w.heap.IsOrdinary id → some id = some x →
      w.heap.wrapper? x = some v → v.context ≠ some a := by
    rintro id x v hordinary ⟨⟩ hv
    rw [hordinary.wrapper?] at hv
    cases hv
  have hown : ∀ {id x v}, w.heap.IsApart b a id → some id = some x →
      w.heap.wrapper? x = some v → v.context ≠ some a := by
    rintro id x v ⟨⟨u, hu, hb⟩, -⟩ ⟨⟩ hv
    obtain rfl := Option.some.inj (hu.symm.trans hv)
    exact hsome (.inl hb)
  have hnone : ∀ id v, (none : Option ObjectId) = some id → w.heap.wrapper? id = some v →
      v.context ≠ some a := by
    rintro id v ⟨⟩
  cases m with
  | retain context => exact ⟨fun heq => hab (heq.trans h), hnone⟩
  | release context => exact ⟨fun heq => hab (heq.trans h), hnone⟩
  | memoize context key entry => exact ⟨hsome (.inl h), hnone⟩
  | wrap site subject => exact ⟨hsome (.inl h), hnone⟩
  | toScript site value => exact ⟨hsome (.inl h), hnone⟩
  | get id key =>
    refine ⟨?_, hnone⟩
    rintro ⟨x, hx, v, hv, hrevived⟩
    exact h.2 x hx v hv (Option.filter_eq_some_iff.1 hrevived).1
  | call id context realm this args => exact ⟨hsome h.2, hnone⟩
  | construct id context realm args => exact ⟨hsome h.2, hnone⟩
  | define id key value => exact ⟨fun hc => hc, fun _ _ hid hv => hordinary hm hid hv⟩
  | erase id key => exact ⟨fun hc => hc, fun _ _ hid hv => hordinary hm hid hv⟩
  | preventExtensions id => exact ⟨fun hc => hc, fun _ _ hid hv => hordinary hm hid hv⟩
  | put id key value => exact ⟨fun hc => hc, fun _ _ hid hv => hown h hid hv⟩
  | setPrototype id link => exact ⟨fun hc => hc, fun _ _ hid hv => hown h hid hv⟩
  | _ => exact ⟨fun hc => hc, hnone⟩

/-! ## One move -/

/-- What may become of a context: the policy stays, the number of handles changes only if a handle of
it is taken or let go, and what is remembered changes only if the move works in it. -/
structure Move.Spares (m : Move σ) (w : World σ) (c : ContextId) (k k' : Context) : Prop where
  policy : k'.policy = k.policy
  handles : m ≠ .retain c → m ≠ .release c → k'.handles = k.handles
  all : ¬ m.contexts w c → k' = k

theorem Move.Spares.refl (m : Move σ) (w : World σ) (c : ContextId) (k : Context) :
    m.Spares w c k k where
  policy := rfl
  handles _ _ := rfl
  all _ := rfl

/-- When one context is changed, every context stays, and the others are what they were. -/
theorem World.context?_modified (place : ContextId) {f : Context → Context}
    (hf : ∀ k, (f k).policy = k.policy) {k : Context} (hk : w.context? c = some k) :
    ∃ k', (w.modifyContext place f).context? c = some k' ∧ k'.policy = k.policy ∧
      (c ≠ place → k' = k) := by
  rw [context?_modifyContext, hk]
  by_cases hc : c = place
  · exact ⟨f k, if_pos hc, hf k, fun hne => absurd hc hne⟩
  · exact ⟨k, if_neg hc, rfl, fun _ => rfl⟩

variable [Host σ]

/-- What one move changes of contexts, objects and the host. -/
structure Move.IsLocal (w : World σ) (m : Move σ) : Prop where
  context : ∀ c k, w.context? c = some k →
    ∃ k', (w.after m).context? c = some k' ∧ m.Spares w c k k'
  kind : ∀ id, w.heap.Holds id → (w.after m).heap.kind? id = w.heap.kind? id
  store : ∀ id, w.heap.Holds id → m.object? ≠ some id →
    (w.after m).heap.store id = w.heap.store id
  inForce : (∀ accessor, m ≠ .setInForce accessor) → (w.after m).inForce = w.inForce
  state : (w.after m).runs = w.runs → (∀ act, m ≠ .host act) →
    (w.after m).host.state = w.host.state

/-- An operation is local because it is confined to its scope. -/
theorem Move.isLocal_of_isOperation (hs : w.Sound) (hm : m.Allowed w) (h : m.IsOperation) :
    m.IsLocal w where
  context c k hk := by
    have hconfined := m.confined hs hm h
    by_cases hc : m.contexts w c
    · have hstanding := hconfined.standing c
      rw [hk] at hstanding
      obtain ⟨k', hk', heq⟩ := Option.map_eq_some_iff.1 hstanding
      obtain ⟨hpolicy, hhandles⟩ := Prod.mk.inj heq
      exact ⟨k', hk', hpolicy, fun _ _ => hhandles, fun hout => absurd hc hout⟩
    · exact ⟨k, (hconfined.context c hc).trans hk, .refl m w c k⟩
  kind := (m.confined hs hm h).kind
  store := (m.confined hs hm h).store
  inForce _ := (m.confined hs hm h).inForce
  state hruns _ := by
    obtain ⟨new, hnew, -, hstate⟩ := (m.confined hs hm h).runs
    rw [hruns] at hnew
    exact hstate (List.append_cancel_left (hnew.symm.trans (List.append_nil _).symm))

/-- Opening a context, and taking or letting go a handle, change no other context. -/
theorem Move.spares_of_not_isOperation (h : ¬ m.IsOperation) {k : Context}
    (hk : w.context? c = some k) :
    ∃ k', (w.after m).context? c = some k' ∧ m.Spares w c k k' := by
  cases m with
  | openContext policy =>
    have hlt : c.index < w.contexts.size := (Array.getElem?_eq_some_iff.1 hk).1
    exact ⟨k, (Array.getElem?_push_lt hlt).trans (Array.getElem?_eq_getElem hlt ▸ hk), .refl ..⟩
  | retain place =>
    have hf : ∀ k : Context,
        (if k.isAlive then { k with handles := k.handles + 1 } else k).policy = k.policy := by
      intro k
      split <;> rfl
    obtain ⟨k', hk', hpolicy, hother⟩ := w.context?_modified place hf hk
    exact ⟨k', hk', hpolicy, fun hne _ => congrArg _ (hother fun hc => hne (hc ▸ rfl)), hother⟩
  | release place =>
    have hf : ∀ k : Context, (if k.handles ≤ 1 then { k with handles := 0, cache := {} }
        else { k with handles := k.handles - 1 }).policy = k.policy := by
      intro k
      split <;> rfl
    obtain ⟨k', hk', hpolicy, hother⟩ := w.context?_modified place hf hk
    exact ⟨k', hk', hpolicy, fun _ hne => congrArg _ (hother fun hc => hne (hc ▸ rfl)), hother⟩
  | setInForce accessor => exact ⟨k, hk, .refl ..⟩
  | host act => exact ⟨k, hk, .refl ..⟩
  | _ => exact absurd trivial h

/-- **Every move is local.** -/
theorem Move.isLocal (hs : w.Sound) (hm : m.Allowed w) : m.IsLocal w := by
  by_cases h : m.IsOperation
  · exact isLocal_of_isOperation hs hm h
  · obtain ⟨hheap, -, hhost⟩ := Move.after_of_not_isOperation (w := w) h
    exact {
      context := fun c k hk => spares_of_not_isOperation h hk
      kind := fun id _ => by rw [hheap]
      store := fun id _ _ => by rw [hheap]
      inForce := fun hinForce => by
        cases m with
        | setInForce accessor => exact absurd rfl (hinForce accessor)
        | openContext policy => rfl
        | retain place => rfl
        | release place => rfl
        | host act => rfl
        | _ => exact absurd trivial h
      state := fun _ hact => by rw [hhost hact] }

/-! ## Runs -/

/-- In the second world a context and the wrappers that were made in it are what they are in the
first one. -/
structure World.Leaves (a : ContextId) (w w' : World σ) : Prop where
  context : ∀ k, w.context? a = some k → w'.context? a = some k
  wrappers : ∀ id v, w.heap.wrapper? id = some v → v.context = some a →
    w'.heap.wrapper? id = some v ∧ w'.heap.store id = w.heap.store id

omit [Host σ] in
theorem World.Leaves.refl (a : ContextId) (w : World σ) : w.Leaves a w where
  context _ hk := hk
  wrappers _ _ hv _ := ⟨hv, rfl⟩

omit [Host σ] in
theorem World.Leaves.trans {w'' : World σ} (h : w.Leaves a w') (h' : w'.Leaves a w'') :
    w.Leaves a w'' where
  context k hk := h'.context k (h.context k hk)
  wrappers id v hv ha := by
    obtain ⟨hv', hstore⟩ := h.wrappers id v hv ha
    obtain ⟨hv'', hstore'⟩ := h'.wrappers id v hv' ha
    exact ⟨hv'', hstore'.trans hstore⟩

/-- A move that leaves a context out leaves it, and its wrappers, as they are. -/
theorem Move.Avoids.leaves (h : m.Avoids a w) (hs : w.Sound) (hm : m.Allowed w) :
    w.Leaves a (w.after m) where
  context k hk := by
    obtain ⟨k', hk', hspares⟩ := (Move.isLocal hs hm).context a k hk
    rw [hk', hspares.all h.1]
  wrappers id v hv ha := by
    have hlocal := Move.isLocal hs hm
    have hid := Heap.holds_of_wrapper? hv
    refine ⟨?_, hlocal.store id hid fun hobject => h.2 id v hobject hv ha⟩
    rw [Heap.wrapper?_eq_some, hlocal.kind id hid, Heap.wrapper?_eq_some.1 hv]

/-- So does a run of such moves. -/
theorem World.Reachable.leaves (hw : w.Reachable)
    (h : Relation.ReflTransGen (World.LeadsBy (Move.Avoids a)) w w') :
    w'.Reachable ∧ w.Leaves a w' := by
  induction h with
  | refl => exact ⟨hw, .refl a w⟩
  | tail _ hstep ih =>
    obtain ⟨m, hm, havoids, rfl⟩ := hstep
    exact ⟨ih.1.after hm, ih.2.trans (havoids.leaves ih.1.sound hm)⟩

/-- **Contexts are isolated.** In a reachable world, a move changes what is remembered only in the
contexts that it works in: the one that is handed to it, or for a read those, still held, that the
wrappers along the prototypes were made in. It changes the own part of no object but the one that it
is issued on, and the state of the embedding program only if it runs host code or is made by the host
itself. So a run of moves that leave a context out, and in particular one that keeps to another
context and its wrappers, leaves the context and the wrappers made in it as they are. -/
theorem World.Reachable.isolation (hw : w.Reachable) :
    (∀ m : Move σ, m.Allowed w → m.IsLocal w) ∧
    (∀ a w', Relation.ReflTransGen (World.LeadsBy (Move.Avoids a)) w w' → w.Leaves a w') ∧
    (∀ a b w', a ≠ b → Relation.ReflTransGen (World.LeadsBy (Move.KeepsTo b a)) w w' →
      w.Leaves a w') := by
  refine ⟨fun m hm => Move.isLocal hw.sound hm, fun a w' h => (hw.leaves h).2,
    fun a b w' hab h => (hw.leaves (Relation.ReflTransGen.mono ?_ _ _ h)).2⟩
  rintro v v' ⟨m, hm, hkeeps, hv'⟩
  exact ⟨m, hm, hkeeps.avoids hm hab, hv'⟩

namespace Catalog

/-- Where values cross in one of two contexts. -/
def sharedSite (c : ContextId) : Site := ⟨⟨{}, .standard, .standard⟩, some c, none⟩

/-- An object with a method of one parameter, which was wrapped in two contexts. -/
def shared : World Catalog :=
  (((((World.initial ⟨8, {
      definitions := #[⟨some "echo", .stateMethod (.argument 0)⟩]
      objects := #[⟨⟨7, "Point"⟩, {
        className := "Point"
        methods := [⟨"Point", "echo", .exactly 1, .code ⟨0⟩ (some "Point"), none⟩]
        members := ["echo"] }, []⟩]
    }⟩ .standard).after (.openContext ⟨{}, .standard, .standard⟩)).after
    (.openContext ⟨{}, .standard, .standard⟩)).after
    (.wrap (sharedSite ⟨0⟩) (.object ⟨7, "Point"⟩))).after
    (.wrap (sharedSite ⟨1⟩) (.object ⟨7, "Point"⟩)))

theorem shared_reachable : shared.Reachable := by
  refine (((((World.initial_reachable _ _).after (m := .openContext _) trivial trivial).after
    (m := .openContext _) trivial trivial).after (m := .wrap _ _) ?first trivial).after
    (m := .wrap _ _) ?second trivial).reachable
  all_goals exact World.serves_some rfl

/-- The method was read through the wrapper of the second context. -/
def sharedRead : World Catalog := shared.after (.get ⟨1⟩ (.name "echo"))

/-- Then a property was put on this wrapper. -/
def sharedMarked : World Catalog := sharedRead.after (.put ⟨1⟩ (.name "mark") (.boolean true))

/-- This changed the second context and its wrapper of the object, but neither the first context nor
its wrapper of the same object. -/
theorem isolation_shared :
    sharedMarked.cache ⟨1⟩ ≠ shared.cache ⟨1⟩ ∧
      (sharedMarked.heap.store ⟨1⟩).get? (.name "mark") = some (.boolean true) ∧
      sharedMarked.context? ⟨0⟩ = shared.context? ⟨0⟩ ∧
      sharedMarked.heap.store ⟨0⟩ = shared.heap.store ⟨0⟩ := by
  refine ⟨fun hcache => ?_, by decide, ?_⟩
  · have hread := congrArg (fun cache => (cache.get? (.callable "fn Point::echo")).isSome) hcache
    exact absurd hread (by decide)
  have hshared : shared.heap.IsApart ⟨1⟩ ⟨0⟩ ⟨1⟩ := by
    refine ⟨⟨_, rfl, rfl⟩, fun x hx v hv => ?_⟩
    obtain rfl := List.mem_singleton.1 (show x ∈ [ObjectId.mk 1] from hx)
    cases hv
    decide
  have hread : sharedRead.heap.IsApart ⟨1⟩ ⟨0⟩ ⟨1⟩ := by
    refine ⟨⟨_, rfl, rfl⟩, fun x hx v hv => ?_⟩
    obtain rfl := List.mem_singleton.1 (show x ∈ [ObjectId.mk 1] from hx)
    cases hv
    decide
  have hrun : Relation.ReflTransGen (World.LeadsBy (Move.KeepsTo ⟨1⟩ ⟨0⟩)) shared sharedMarked :=
    (Relation.ReflTransGen.single
      ⟨.get ⟨1⟩ (.name "echo"), Heap.holds_of_wrapper? (h := shared.heap) rfl, hshared, rfl⟩).tail
      ⟨.put ⟨1⟩ (.name "mark") (.boolean true), Heap.holds_of_wrapper? (h := sharedRead.heap) rfl,
        hread, rfl⟩
  obtain ⟨-, -, hkeeps⟩ := shared_reachable.isolation
  have hleaves := hkeeps ⟨0⟩ ⟨1⟩ sharedMarked (by decide) hrun
  exact ⟨hleaves.context _ rfl, (hleaves.wrappers ⟨0⟩ _ rfl rfl).2⟩

end Catalog

end Membrane
