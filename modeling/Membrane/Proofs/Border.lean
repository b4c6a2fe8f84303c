import Membrane.Proofs.Heap
import Membrane.Proofs.Outcome
import Mathlib.Logic.Relation

/-!
# What script operations do at the border

Reads, searches, calls and constructions are made of a few elementary steps, which `Border` lists:
host code is run and succeeds, a value crosses, a wrapper is asked for. An operation that fails ends
with one step more, out of the list `Breaks`: host code fails, or a converter refuses a value.
`Proceeds` says of an operation that it goes this way, and there is one lemma of that form for each
operation. What every step keeps, `Extends` collects: the objects that are there stay as they are,
and no context begins or ends.
-/

namespace Membrane

variable {σ α β : Type}

namespace World

/-! ## Contexts and the other parts of a world -/

theorem context?_modifyContext (w : World σ) (place c : ContextId) (f : Context → Context) :
    (w.modifyContext place f).context? c =
      if c = place then (w.context? c).map f else w.context? c := by
  cases place
  cases c
  simp only [context?, modifyContext, Array.getElem?_modify, ContextId.mk.injEq, eq_comm]

section Keep

variable (w : World σ) (context : Option ContextId) (key : Identity) (entry : Entry)

@[simp] theorem heap_keep : (w.keep context key entry).heap = w.heap := by cases context <;> rfl

@[simp] theorem host_keep : (w.keep context key entry).host = w.host := by cases context <;> rfl

@[simp] theorem journal_keep : (w.keep context key entry).journal = w.journal := by
  cases context <;> rfl

/-- Remembering something changes the cache of the one context. -/
theorem context?_keep (c : ContextId) :
    (w.keep context key entry).context? c =
      if context = some c then
        (w.context? c).map fun k => { k with cache := k.cache.insert key entry }
      else w.context? c := by
  cases context with
  | none => rfl
  | some place =>
    rw [keep, context?_modifyContext]
    simp only [Option.some.injEq, eq_comm]

@[simp] theorem size_keep :
    (w.keep context key entry).contexts.size = w.contexts.size := by
  cases context with
  | none => rfl
  | some place => exact Array.size_modify ..

@[simp] theorem isAlive_keep (c : ContextId) :
    (w.keep context key entry).isAlive c = w.isAlive c := by
  rw [isAlive, context?_keep, isAlive]
  split
  · cases w.context? c <;> rfl
  · rfl

end Keep

@[simp] theorem heap_pushWrapper (w : World σ) (site : Site) (subject : Subject) :
    (w.pushWrapper site subject).heap = w.heap.push (site.wrapper subject) := by
  simp [pushWrapper, note, push]

@[simp] theorem host_pushWrapper (w : World σ) (site : Site) (subject : Subject) :
    (w.pushWrapper site subject).host = w.host := by
  simp [pushWrapper, note, push]

@[simp] theorem journal_pushWrapper (w : World σ) (site : Site) (subject : Subject) :
    (w.pushWrapper site subject).journal = w.journal ++
      [.asked site.context subject.identity (subject.entry w.heap.next) true] := by
  simp [pushWrapper, note, push]

@[simp] theorem isAlive_pushWrapper (w : World σ) (site : Site) (subject : Subject)
    (c : ContextId) : (w.pushWrapper site subject).isAlive c = w.isAlive c :=
  isAlive_keep ..

/-! ## Worlds with more in them -/

/-- The second world has everything that the first one has, as it was there. -/
structure Extends (w w' : World σ) : Prop where
  holds : ∀ id, w.heap.Holds id → w'.heap.Holds id
  kind : ∀ id, w.heap.Holds id → w'.heap.kind? id = w.heap.kind? id
  store : ∀ id, w.heap.Holds id → w'.heap.store id = w.heap.store id
  alive : ∀ c, w'.isAlive c = w.isAlive c

theorem Extends.refl (w : World σ) : w.Extends w :=
  ⟨fun _ h => h, fun _ _ => rfl, fun _ _ => rfl, fun _ => rfl⟩

theorem Extends.trans {w₁ w₂ w₃ : World σ} (h : w₁.Extends w₂) (h' : w₂.Extends w₃) :
    w₁.Extends w₃ where
  holds id hid := h'.holds id (h.holds id hid)
  kind id hid := (h'.kind id (h.holds id hid)).trans (h.kind id hid)
  store id hid := (h'.store id (h.holds id hid)).trans (h.store id hid)
  alive c := (h'.alive c).trans (h.alive c)

theorem Extends.wrapper? {w w' : World σ} (h : w.Extends w') {id : ObjectId}
    (hid : w.heap.Holds id) : w'.heap.wrapper? id = w.heap.wrapper? id := by
  simp only [Heap.wrapper?, h.kind id hid]

theorem Extends.holdsRealm {w w' : World σ} (h : w.Extends w') {realm : Realm}
    (hr : w.heap.HoldsRealm realm) : w'.heap.HoldsRealm realm :=
  ⟨h.holds _ hr.global, h.holds _ hr.objectPrototype, h.holds _ hr.functionPrototype⟩

/-- The same heap, and contexts that are alive as before. -/
theorem Extends.of_heap_eq {w w' : World σ} (hheap : w'.heap = w.heap)
    (halive : ∀ c, w'.isAlive c = w.isAlive c) : w.Extends w' :=
  ⟨fun _ hid => hheap ▸ hid, fun _ _ => by rw [hheap], fun _ _ => by rw [hheap], halive⟩

/-- One more object in the heap, and contexts that are alive as before. -/
theorem Extends.of_heap_push {w w' : World σ} {object : ScriptObject}
    (hheap : w'.heap = w.heap.push object) (halive : ∀ c, w'.isAlive c = w.isAlive c) :
    w.Extends w' where
  holds id hid := hheap ▸ hid.push object
  kind id hid := by rw [hheap, Heap.kind?_push_of_holds hid]
  store id hid := by rw [hheap, Heap.store_push_of_holds hid]
  alive := halive

end World

/-! ## Elementary steps -/

/-- What an operation works with: the policies under which values cross, and whether it may end with
an error that comes neither from host code nor from a converter. -/
structure Terms where
  policy : Policy → Prop
  lenient : Prop

/-- Any policy, and any error. -/
def Terms.any : Terms := ⟨fun _ => True, True⟩

/-- A context and a realm that are there: the context is held, and the realm is in the heap. -/
structure World.Serves (w : World σ) (context : Option ContextId) (realm : Option Realm) :
    Prop where
  alive : ∀ c, context = some c → w.isAlive c
  realm : ∀ r, realm = some r → w.heap.HoldsRealm r

theorem World.Serves.mono {w w' : World σ} {context : Option ContextId} {realm : Option Realm}
    (h : w.Serves context realm) (he : w.Extends w') : w'.Serves context realm :=
  ⟨fun c hc => (he.alive c).trans (h.alive c hc), fun r hr => he.holdsRealm (h.realm r hr)⟩

/-- Nothing has to be there for a site without a realm but its context, if it has one. -/
theorem World.serves_of_isAlive {w : World σ} {context : Option ContextId}
    (h : ∀ c, context = some c → w.isAlive c) : w.Serves context none where
  alive := h
  realm r hr := by cases hr

theorem World.serves_none (w : World σ) : w.Serves none none :=
  serves_of_isAlive fun c hc => by cases hc

theorem World.serves_some {w : World σ} {c : ContextId} (h : w.isAlive c = true) :
    w.Serves (some c) none :=
  serves_of_isAlive fun _ hc => Option.some.inj hc ▸ h

/-- A site that is there. -/
abbrev Site.Stands (site : Site) (w : World σ) : Prop := w.Serves site.context site.realm

variable [Host σ]

/-- The elementary steps of an operation that goes well. -/
inductive Border (t : Terms) (w : World σ) : World σ → Prop where
  /-- A member that is handed out gets an address. -/
  | address : Border t w { w with host := w.host.fresh.2 }
  /-- Host code is run and succeeds. -/
  | ran (i : Invocation) {value : HostValue} (outcome : (w.invoke i).1 = .ok value) :
      Border t w (w.invoke i).2
  /-- A script value crosses. -/
  | incoming (policy : Policy) (value : ScriptValue) {hostValue : HostValue}
      (among : t.policy policy) (outcome : policy.converter.letIn w.heap value = .ok hostValue) :
      Border t w (w.note (.incoming value (.ok hostValue)))
  /-- A host value is let through or replaced. -/
  | outgoing (policy : Policy) (value : HostValue) {decision : Option ScriptValue}
      (among : t.policy policy)
      (outcome : policy.converter.outgoing (w.view.className value) value = .ok decision) :
      Border t w (w.note (.outgoing value (.ok decision)))
  /-- A wrapper is asked for that the site remembers. -/
  | recalled (site : Site) (subject : Subject) {id : ObjectId} (stands : site.Stands w)
      (known : w.wrapper? site subject = some id) :
      Border t w (w.note (.asked site.context subject.identity (subject.entry id) false))
  /-- A wrapper is asked for and made. -/
  | wrapped (site : Site) (subject : Subject) (stands : site.Stands w)
      (unknown : w.wrapper? site subject = none) : Border t w (w.pushWrapper site subject)

/-- The last step of an operation that fails, with its error. -/
inductive Breaks (t : Terms) (w : World σ) : ScriptError → World σ → Prop where
  /-- Host code is run and fails: its error is wrapped. -/
  | ran (i : Invocation) {e : HostError} (outcome : (w.invoke i).1 = .error e) :
      Breaks t w (.thrown (.object w.heap.next)) ((w.invoke i).2.pushError e)
  /-- A converter refuses a script value. -/
  | incoming (policy : Policy) (value : ScriptValue) {e : ScriptError} (among : t.policy policy)
      (outcome : policy.converter.letIn w.heap value = .error e) :
      Breaks t w e (w.note (.incoming value (.error e)))
  /-- A converter refuses a host value. -/
  | outgoing (policy : Policy) (value : HostValue) {e : ScriptError} (among : t.policy policy)
      (outcome : policy.converter.outgoing (w.view.className value) value = .error e) :
      Breaks t w e (w.note (.outgoing value (.error e)))
  /-- Any other error. -/
  | otherwise (e : ScriptError) (lenient : t.lenient) : Breaks t w e w

/-- Elementary steps in a row. -/
abbrev Crosses (t : Terms) : World σ → World σ → Prop := Relation.ReflTransGen (Border t)

theorem Border.widens {t : Terms} {w w' : World σ} (h : Border t w w') : w.Extends w' := by
  cases h with
  | address => exact .of_heap_eq rfl fun _ => rfl
  | ran i outcome => exact .of_heap_eq rfl fun _ => rfl
  | incoming policy value among outcome => exact .of_heap_eq rfl fun _ => rfl
  | outgoing policy value among outcome => exact .of_heap_eq rfl fun _ => rfl
  | recalled site subject stands known => exact .of_heap_eq rfl fun _ => rfl
  | wrapped site subject stands unknown =>
    exact .of_heap_push (w.heap_pushWrapper ..) fun _ => w.isAlive_pushWrapper ..

theorem Crosses.widens {t : Terms} {w w' : World σ} (h : Crosses t w w') : w.Extends w' := by
  induction h with
  | refl => exact .refl w
  | tail _ hstep ih => exact ih.trans hstep.widens

theorem Breaks.widens {t : Terms} {w w' : World σ} {e : ScriptError} (h : Breaks t w e w') :
    w.Extends w' := by
  cases h with
  | ran i outcome => exact .of_heap_push rfl fun _ => rfl
  | incoming policy value among outcome => exact .of_heap_eq rfl fun _ => rfl
  | outgoing policy value among outcome => exact .of_heap_eq rfl fun _ => rfl
  | otherwise _ lenient => exact .refl _

/-! ## Operations made of elementary steps -/

/-- An outcome that elementary steps from a world lead to. -/
def Follows (t : Terms) (w : World σ) : Except ScriptError α × World σ → Prop
  | (.ok _, w') => Crosses t w w'
  | (.error e, w') => ∃ v, Crosses t w v ∧ Breaks t v e w'

/-- The operation, run in a world, is made of elementary steps. -/
def ScriptM.Proceeds (t : Terms) (act : ScriptM σ α) (w : World σ) : Prop := Follows t w (act.on w)

variable {t : Terms} {w w' : World σ}

theorem Follows.trans {r : Except ScriptError α × World σ} (h : Crosses t w w')
    (hr : Follows t w' r) : Follows t w r := by
  match r, hr with
  | (.ok _, _), hr => exact Relation.ReflTransGen.trans h hr
  | (.error _, _), ⟨v, hv, hbreak⟩ => exact ⟨v, Relation.ReflTransGen.trans h hv, hbreak⟩

namespace ScriptM.Proceeds

theorem pure (a : α) : Proceeds t (Pure.pure a : ScriptM σ α) w := .refl

theorem throw (h : t.lenient) (e : ScriptError) :
    Proceeds t (MonadExcept.throw e : ScriptM σ α) w :=
  ⟨w, .refl, .otherwise e h⟩

/-- If an operation goes this way, and so does the next one from wherever the first one leads, the
two in a row do. -/
theorem bind {act : ScriptM σ α} {next : α → ScriptM σ β} (h : Proceeds t act w)
    (hnext : ∀ a w', act.on w = (.ok a, w') → Crosses t w w' → Proceeds t (next a) w') :
    Proceeds t (act >>= next) w := by
  unfold Proceeds at h ⊢
  rw [on_bind]
  match hact : act.on w, h with
  | (.ok a, w'), h => exact Follows.trans h (hnext a w' hact h)
  | (.error e, w'), h => exact h

theorem map {act : ScriptM σ α} (h : Proceeds t act w) (f : α → β) :
    Proceeds t (f <$> act) w := by
  rw [map_eq_pure_bind]
  exact h.bind fun a w' _ _ => pure (f a)

/-- Where an operation ends, the world has everything that it had. -/
theorem widens {act : ScriptM σ α} (h : Proceeds t act w) : w.Extends (act.on w).2 := by
  unfold Proceeds at h
  match act.on w, h with
  | (.ok _, _), h => exact Crosses.widens h
  | (.error _, _), ⟨_, hv, hbreak⟩ => exact (Crosses.widens hv).trans hbreak.widens

theorem mapM {f : α → ScriptM σ β} (l : List α) (hf : ∀ a w', Proceeds t (f a) w') (w : World σ) :
    Proceeds t (l.mapM f) w := by
  induction l generalizing w with
  | nil => exact pure []
  | cons a l ih =>
    rw [List.mapM_cons]
    exact (hf a w).bind fun b w₁ _ _ => (ih w₁).bind fun bs w₂ _ _ => pure (b :: bs)

theorem orElseFrom {act : ScriptM σ (Option α)} (h : Proceeds t act w) (second : Option α) :
    Proceeds t (orElseFrom act second) w :=
  h.bind fun a w' _ _ => by cases a <;> exact pure _

end ScriptM.Proceeds

end Membrane
