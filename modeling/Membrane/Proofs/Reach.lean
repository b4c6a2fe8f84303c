import Membrane.Context
import Membrane.Proofs.Proceeding
import Membrane.Proofs.Sound
import Membrane.Proofs.Store

/-!
# The worlds that can be reached

A `Move` is one thing that the embedding program or script code can do; `Allowed` says what has to
be there for it. `Reachable` worlds are those that any moves lead to from a world without objects
and contexts. Worlds are reached plainly if nobody puts anything into the memory of a context
directly, past the crossing of values.

Whatever a move does comes down to a sequence of changes out of one list, `Change`. So a fact about
all reachable worlds needs one case for each change, and none for the operations. The first such
fact is that they are sound.
-/

namespace Membrane

variable {σ : Type}

/-! ## Moves -/

/-- Something that the embedding program or script code does. -/
inductive Move (σ : Type) where
  -- contexts and policies
  | openContext (policy : Policy)
  | retain (context : ContextId)
  | release (context : ContextId)
  | setInForce (accessor : Accessor)
  | memoize (context : Option ContextId) (key : Identity) (entry : Entry)
  -- the host on its own
  | host (act : HostM σ Unit)
  -- ordinary objects and errors
  | makeRealm
  | ordinary (className : String)
  | define (id : ObjectId) (key : PropertyKey) (value : ScriptValue)
  | erase (id : ObjectId) (key : PropertyKey)
  | preventExtensions (id : ObjectId)
  | wrapError (error : HostError)
  | caught (error : ScriptError) (realm : Option Realm)
  -- crossing
  | wrap (site : Site) (subject : Subject)
  | toScript (site : Site) (value : HostValue)
  | toHost (policy : Policy) (value : ScriptValue)
  -- objects of any kind
  | get (id : ObjectId) (key : PropertyKey)
  | has (id : ObjectId) (key : PropertyKey)
  | put (id : ObjectId) (key : PropertyKey) (value : ScriptValue)
  | setPrototype (id : ObjectId) (link : Option ObjectId)
  | call (id : ObjectId) (context : Option ContextId) (realm : Option Realm) (this : ScriptValue)
      (args : List ScriptValue)
  | construct (id : ObjectId) (context : Option ContextId) (realm : Option Realm)
      (args : List ScriptValue)
  | hasInstance (id : ObjectId) (value : ScriptValue)

/-- What a move does. -/
def Move.run [Host σ] : Move σ → ScriptM σ Unit
  | .openContext policy => modify fun w => (w.openContext policy).2
  | .retain context => modify (·.retain context)
  | .release context => modify (·.release context)
  | .setInForce accessor => modify fun w => (w.setInForce accessor).2
  | .memoize context key entry => discard (remember context key entry.kind (pure entry.content))
  | .host act => discard (ScriptM.attempt act)
  | .makeRealm => discard Realm.make
  | .ordinary className => discard (ScriptM.allocate { kind := .ordinary className })
  | .define id key value => do ScriptM.setStore id ((← ScriptM.store id).define key value)
  | .erase id key => do ScriptM.setStore id ((← ScriptM.store id).erase key)
  | .preventExtensions id => do ScriptM.setStore id (← ScriptM.store id).preventExtensions
  | .wrapError error => discard (ScriptM.allocate { kind := .hostError error })
  | .caught error realm => discard (error.caught realm)
  | .wrap site subject => discard (Membrane.wrap site subject)
  | .toScript site value => discard (Membrane.toScript site value)
  | .toHost policy value => discard (Membrane.toHost policy value)
  | .get id key => discard (id.get? key)
  | .has id key => discard (id.has key)
  | .put id key value => id.put key value
  | .setPrototype id link => discard (id.setPrototype link)
  | .call id context realm this args => discard (id.call context realm this args)
  | .construct id context realm args => discard (id.construct context realm args)
  | .hasInstance id value => discard (id.hasInstance value)

/-- The content of an entry is what its kind says: a wrapper of that kind, if it is of one. -/
def Heap.Fits (h : Heap) : Entry → Prop
  | ⟨.wrapper kind, id⟩ => ∃ v, h.wrapper? id = some v ∧ v.subject.kind = kind
  | _ => True

/-- What has to be there for a move: the objects that it names, the realms and the contexts. Only
ordinary objects can be written past their strategy, erased from and sealed. -/
def Move.Allowed (w : World σ) : Move σ → Prop
  | .memoize context _ entry => w.Serves context none ∧ w.heap.Fits entry
  | .define id _ _ | .erase id _ | .preventExtensions id => w.heap.IsOrdinary id
  | .caught _ realm => w.Serves none realm
  | .wrap site _ | .toScript site _ => site.Stands w
  | .get id _ | .has id _ | .put id _ _ | .hasInstance id _ => w.heap.Holds id
  | .setPrototype id link => w.heap.Holds id ∧ ∀ x, link = some x → w.heap.Holds x
  | .call id context realm _ _ | .construct id context realm _ =>
    w.heap.Holds id ∧ w.Serves context realm
  | _ => True

/-- The move puts nothing into the memory of a context but wrappers, as values cross. -/
def Move.IsPlain : Move σ → Prop
  | .memoize .. => False
  | _ => True

/-- A world before anything was done. -/
def World.initial (host : HostSide σ) (inForce : Accessor) : World σ := { inForce, host }

variable [Host σ]

/-- The world that a move leads to. -/
def World.after (w : World σ) (m : Move σ) : World σ := (m.run.on w).2

/-- One move out of some leads from a world to another. -/
def World.Leads (among : Move σ → Prop) (w w' : World σ) : Prop :=
  ∃ m : Move σ, m.Allowed w ∧ among m ∧ w' = w.after m

/-- One move that may be made in a world leads from it to another. -/
def World.LeadsBy (may : World σ → Move σ → Prop) (w w' : World σ) : Prop :=
  ∃ m : Move σ, m.Allowed w ∧ may w m ∧ w' = w.after m

/-- Any moves lead from a world to another. -/
abbrev World.Reaches : World σ → World σ → Prop :=
  Relation.ReflTransGen (World.Leads fun _ => True)

/-- Plain moves lead from a world to another. -/
abbrev World.ReachesPlainly : World σ → World σ → Prop :=
  Relation.ReflTransGen (World.Leads Move.IsPlain)

/-- A world that moves lead to from the beginning. -/
def World.Reachable (w : World σ) : Prop :=
  ∃ host inForce, (World.initial host inForce).Reaches w

/-- A world that plain moves lead to from the beginning. -/
def World.PlainlyReachable (w : World σ) : Prop :=
  ∃ host inForce, (World.initial host inForce).ReachesPlainly w

theorem World.ReachesPlainly.reaches {w w' : World σ} (h : w.ReachesPlainly w') : w.Reaches w' := by
  refine Relation.ReflTransGen.mono ?_ _ _ h
  rintro v v' ⟨m, hm, -, hv'⟩
  exact ⟨m, hm, trivial, hv'⟩

theorem World.PlainlyReachable.reachable {w : World σ} (hw : w.PlainlyReachable) : w.Reachable := by
  obtain ⟨host, inForce, h⟩ := hw
  exact ⟨host, inForce, h.reaches⟩

theorem World.leads_after {w : World σ} {among : Move σ → Prop} {m : Move σ} (hm : m.Allowed w)
    (hmember : among m) : w.Leads among (w.after m) :=
  ⟨m, hm, hmember, rfl⟩

theorem World.initial_reachable (host : HostSide σ) (inForce : Accessor) :
    (World.initial host inForce).PlainlyReachable := ⟨host, inForce, .refl⟩

theorem World.PlainlyReachable.after {w : World σ} (hw : w.PlainlyReachable) {m : Move σ}
    (hm : m.Allowed w) (hplain : m.IsPlain) : (w.after m).PlainlyReachable := by
  obtain ⟨host, inForce, h⟩ := hw
  exact ⟨host, inForce, h.tail (leads_after hm hplain)⟩

theorem World.Reachable.after {w : World σ} (hw : w.Reachable) {m : Move σ} (hm : m.Allowed w) :
    (w.after m).Reachable := by
  obtain ⟨host, inForce, h⟩ := hw
  exact ⟨host, inForce, h.tail (leads_after hm trivial)⟩

theorem World.Reachable.trans {w w' : World σ} (hw : w.Reachable) (h : w.Reaches w') :
    w'.Reachable := by
  obtain ⟨host, inForce, hfirst⟩ := hw
  exact ⟨host, inForce, hfirst.trans h⟩

/-! ## Changes -/

/-- The changes that moves are made of. `direct` holds if the memory of contexts may be changed
directly. -/
inductive Change (direct : Prop) (w : World σ) : World σ → Prop where
  /-- An elementary step of an operation. -/
  | border {w' : World σ} (step : Border .any w w') : Change direct w w'
  /-- The last step of an operation that fails. -/
  | breaks {e : ScriptError} {w' : World σ} (step : Breaks .any w e w') : Change direct w w'
  /-- Something remembered is asked for directly. -/
  | recalled (allowed : direct) (context : Option ContextId) (key : Identity) (entry : Entry)
      (known : w.known? context key entry.kind = some entry.content) :
      Change direct w (w.note (.asked context key entry false))
  /-- Something is asked for directly and remembered from then on. -/
  | stored (allowed : direct) (context : Option ContextId) (key : Identity) (entry : Entry)
      (stands : w.Serves context none) (fits : w.heap.Fits entry) :
      Change direct w ((w.keep context key entry).note (.asked context key entry true))
  /-- The host goes on without script code. -/
  | host (side : HostSide σ) : Change direct w { w with host := side }
  | opened (policy : Policy) : Change direct w (w.openContext policy).2
  | retained (c : ContextId) : Change direct w (w.retain c)
  | released (c : ContextId) : Change direct w (w.release c)
  | setInForce (accessor : Accessor) : Change direct w (w.setInForce accessor).2
  /-- A new ordinary object. -/
  | born (className : String) (store : Store) (extensible : store.extensible = true)
      (distinct : store.keys.Nodup)
      (linked : ∀ link, store.prototype = some link → w.heap.Holds link) :
      Change direct w (w.push { kind := .ordinary className, store })
  /-- A host error is wrapped that did not come from a call. -/
  | error (e : HostError) : Change direct w (w.pushError e)
  | defined (id : ObjectId) (key : PropertyKey) (value : ScriptValue) :
      Change direct w (w.setStore id ((w.heap.store id).define key value))
  | erased (id : ObjectId) (key : PropertyKey) (ordinary : w.heap.IsOrdinary id) :
      Change direct w (w.setStore id ((w.heap.store id).erase key))
  | sealed (id : ObjectId) (ordinary : w.heap.IsOrdinary id) :
      Change direct w (w.setStore id (w.heap.store id).preventExtensions)
  | unlinked (id : ObjectId) :
      Change direct w (w.setStore id { w.heap.store id with prototype := none })
  | linked (id link : ObjectId) (owner : w.heap.Holds id) (target : w.heap.Holds link)
      (extensible : (w.heap.store id).extensible = true) (away : id ∉ w.heap.chain link) :
      Change direct w (w.setStore id { w.heap.store id with prototype := some link })

/-- Changes in a row. -/
abbrev Changes (direct : Prop) : World σ → World σ → Prop :=
  Relation.ReflTransGen (Change direct)

variable {w w' : World σ} {direct : Prop}

theorem Crosses.changes (h : Crosses .any w w') : Changes direct w w' :=
  Relation.ReflTransGen.mono (fun _ _ => Change.border) _ _ h

/-- What is made of elementary steps comes down to changes. -/
theorem ScriptM.Proceeds.changes {α : Type} {act : ScriptM σ α} (h : act.Proceeds .any w) :
    Changes direct w (act.on w).2 := by
  unfold ScriptM.Proceeds at h
  match act.on w, h with
  | (.ok _, _), h => exact Crosses.changes h
  | (.error _, _), ⟨_, hv, hbreak⟩ => exact (Crosses.changes hv).tail (.breaks hbreak)

theorem changes_discard {α : Type} {act : ScriptM σ α} (h : Changes direct w (act.on w).2) :
    Changes direct w ((discard act).on w).2 := by
  rw [ScriptM.on_discard]
  exact h

/-! ## Objects stay what they are -/

omit [Host σ] in
theorem kind?_of_push {object : ScriptObject} (hheap : w'.heap = w.heap.push object) {id : ObjectId}
    (hid : w.heap.Holds id) : w'.heap.kind? id = w.heap.kind? id := by
  rw [hheap, Heap.kind?_push_of_holds hid]

/-- No change turns an object into one of another kind. -/
theorem Change.kind? (h : Change direct w w') {id : ObjectId} (hid : w.heap.Holds id) :
    w'.heap.kind? id = w.heap.kind? id := by
  cases h with
  | border step => exact step.widens.kind id hid
  | breaks step => exact step.widens.kind id hid
  | recalled allowed context key entry known => rfl
  | stored allowed context key entry stands fits =>
    show (w.keep context key entry).heap.kind? id = _
    rw [World.heap_keep]
  | host side => rfl
  | opened policy => rfl
  | retained c => rfl
  | released c => rfl
  | setInForce accessor => rfl
  | born className store extensible distinct linked => exact kind?_of_push rfl hid
  | error e => exact kind?_of_push rfl hid
  | defined id' key value => exact Heap.kind?_setStore _
  | erased id' key ordinary => exact Heap.kind?_setStore _
  | sealed id' ordinary => exact Heap.kind?_setStore _
  | unlinked id' => exact Heap.kind?_setStore _
  | linked id' link owner target extensible away => exact Heap.kind?_setStore _

theorem Change.wrapper? (h : Change direct w w') {id : ObjectId} {v : Wrapper}
    (hv : w.heap.wrapper? id = some v) : w'.heap.wrapper? id = some v := by
  rw [Heap.wrapper?_eq_some] at hv ⊢
  rw [h.kind? (Heap.holds_of_kind? hv), hv]

/-! ## Changes keep a world sound -/

theorem World.Sound.invoke (hs : w.Sound) (i : Invocation) : (w.invoke i).2.Sound :=
  hs.of_heap_eq rfl

theorem Border.sound (h : Border .any w w') (hs : w.Sound) : w'.Sound := by
  cases h with
  | address => exact hs.of_heap_eq rfl
  | ran i outcome => exact hs.invoke i
  | incoming policy value among outcome => exact hs.of_heap_eq rfl
  | outgoing policy value among outcome => exact hs.of_heap_eq rfl
  | recalled site subject stands known => exact hs.of_heap_eq rfl
  | wrapped site subject stands unknown =>
    refine hs.push (site.wrapper subject) ?_ ?_ rfl (w.heap_pushWrapper ..)
    · intro link hlink
      obtain ⟨r, hr, rfl⟩ := Option.map_eq_some_iff.1 hlink
      exact (stands.realm r hr).prototypeIn subject
    · intro v r hv hr
      cases hv
      exact stands.realm r hr

theorem Breaks.sound {e : ScriptError} (h : Breaks .any w e w') (hs : w.Sound) : w'.Sound := by
  cases h with
  | ran i outcome => exact (hs.invoke i).pushError _
  | incoming policy value among outcome => exact hs.of_heap_eq rfl
  | outgoing policy value among outcome => exact hs.of_heap_eq rfl
  | otherwise _ lenient => exact hs

theorem Change.sound (h : Change direct w w') (hs : w.Sound) : w'.Sound := by
  cases h with
  | border step => exact step.sound hs
  | breaks step => exact step.sound hs
  | recalled allowed context key entry known => exact hs.of_heap_eq rfl
  | stored allowed context key entry stands fits =>
    exact hs.of_heap_eq (w.heap_keep context key entry)
  | host side => exact hs.of_heap_eq rfl
  | opened policy => exact hs.of_heap_eq rfl
  | retained c => exact hs.of_heap_eq rfl
  | released c => exact hs.of_heap_eq rfl
  | setInForce accessor => exact hs.of_heap_eq rfl
  | born className store extensible distinct linked =>
    exact hs.push { kind := .ordinary className, store } linked
      (fun _ _ hv => by cases hv) extensible rfl
  | error e => exact hs.pushError e
  | defined id key value =>
    exact hs.rewrite (Store.prototype_define ..) (.inr (Store.extensible_define ..))
  | erased id key ordinary => exact hs.rewrite rfl (.inl ordinary)
  | sealed id ordinary => exact hs.rewrite rfl (.inl ordinary)
  | unlinked id => exact hs.relink (fun x hx => by cases hx) .done List.not_mem_nil
  | linked id link owner target extensible away =>
    refine hs.relink (fun x hx => ?_) (hs.grounded.walk_chain hs.linked target) away
    exact Option.some.inj hx ▸ target

theorem Changes.sound (h : Changes direct w w') (hs : w.Sound) : w'.Sound := by
  induction h with
  | refl => exact hs
  | tail _ hstep ih => exact hstep.sound ih

/-! ## Moves are made of changes -/

omit [Host σ] in
theorem World.Sound.suits (hs : w.Sound) {id : ObjectId} (hid : w.heap.Holds id) :
    Suits .any w id where
  holds := hid
  policy _ _ := trivial
  accessor _ _ := .inl trivial
  realm v r hv hr := hs.realm id v r hv hr

omit [Host σ] in
/-- The chain of an object stays in the heap. -/
theorem World.Sound.holds_of_mem_chain (hs : w.Sound) {id x : ObjectId} (hid : w.heap.Holds id)
    (hx : x ∈ w.heap.chain id) : w.heap.Holds x :=
  (hs.grounded.walk_chain hs.linked hid).holds hs.linked
    (fun _ h => Option.some.inj h ▸ hid) x hx

omit [Host σ] in
theorem on_putOwn (id : ObjectId) (key : PropertyKey) (value : ScriptValue) (w : World σ) :
    (id.putOwn key value).on w =
      if (w.heap.store id).contains key || (w.heap.store id).extensible then
        (.ok (), w.setStore id ((w.heap.store id).define key value))
      else (.error (.fault (.notExtensible key)), w) := by
  simp only [ObjectId.putOwn, ScriptM.on_bind, ScriptM.on_store, Store.put]
  by_cases h : ((w.heap.store id).contains key || (w.heap.store id).extensible) = true
  · rw [if_pos h, if_pos h]
    rfl
  · rw [if_neg h, if_neg h]
    rfl

omit [Host σ] in
theorem on_setPrototype (id : ObjectId) (link : Option ObjectId) (w : World σ) :
    (id.setPrototype link).on w = match link with
      | none => (.ok true, w.setStore id { w.heap.store id with prototype := none })
      | some x =>
        if w.heap.prototype id = some x then (.ok true, w)
        else if !(w.heap.store id).extensible || id ∈ w.heap.chain x then (.ok false, w)
        else (.ok true, w.setStore id { w.heap.store id with prototype := some x }) := by
  cases link with
  | none => rfl
  | some x =>
    simp only [ObjectId.setPrototype, ScriptM.on_get_bind, Heap.prototype]
    split
    · rfl
    · split <;> rfl

theorem putOwn_changes (id : ObjectId) (key : PropertyKey) (value : ScriptValue) :
    Changes direct w ((id.putOwn key value).on w).2 := by
  rw [on_putOwn]
  split
  · exact .single (.defined id key value)
  · exact .refl

theorem put_changes (id : ObjectId) (key : PropertyKey) (value : ScriptValue) :
    Changes direct w ((id.put key value).on w).2 := by
  simp only [ObjectId.put, ScriptM.on_get_bind]
  split
  case h_1 v hv =>
    have hput : (v.policy.accessor.put (v.site w) v.subject.value id key value).Proceeds .any w :=
      .put trivial (.inl trivial) ..
    rw [ScriptM.on_bind]
    cases hact : (v.policy.accessor.put (v.site w) v.subject.value id key value).on w with
    | mk r w' =>
      have hw' : Changes direct w w' := by simpa only [hact] using hput.changes
      match r with
      | .ok true => exact hw'
      | .ok false => exact hw'.trans (putOwn_changes ..)
      | .error e => exact hw'
  case h_2 => exact putOwn_changes ..

theorem setPrototype_changes {id : ObjectId} {link : Option ObjectId} (hid : w.heap.Holds id)
    (hlink : ∀ x, link = some x → w.heap.Holds x) :
    Changes direct w ((id.setPrototype link).on w).2 := by
  rw [on_setPrototype]
  cases link with
  | none => exact .single (.unlinked id)
  | some x =>
    dsimp only
    split
    · exact .refl
    · split
      case isTrue => exact .refl
      case isFalse h =>
        simp only [Bool.or_eq_true, Bool.not_eq_true', decide_eq_true_eq, not_or,
          Bool.not_eq_false] at h
        exact .single (.linked id x hid (hlink x rfl) h.1 h.2)

theorem caught_changes (e : ScriptError) {realm : Option Realm} (hr : w.Serves none realm) :
    Changes direct w ((e.caught realm).on w).2 := by
  have hborn : ∀ kind message,
      Changes direct w ((ScriptError.caught.materialize (σ := σ) realm kind message).on w).2 := by
    intro kind message
    apply Relation.ReflTransGen.single
    apply Change.born kind.name
    · rw [Store.extensible_define, Store.extensible_define]
    · refine Store.nodup_define (Store.nodup_define ?_)
      exact List.nodup_nil
    · intro link hlink
      rw [Store.prototype_define, Store.prototype_define] at hlink
      obtain ⟨r, hr', rfl⟩ := Option.map_eq_some_iff.1 hlink
      exact (hr.realm r hr').objectPrototype
  cases e with
  | thrown value => exact .refl
  | fault f => exact hborn ..
  | reported kind message => exact hborn ..

theorem makeRealm_changes : Changes direct w ((Realm.make : ScriptM σ Realm).on w).2 := by
  have hlink : ∀ (h : Heap) (object : ScriptObject) (link : ObjectId),
      some h.next = some link → (h.push object).Holds link := fun h object link hl =>
    Option.some.inj hl ▸ Heap.holds_push_next object
  let w₁ := w.push { kind := .ordinary "Object" }
  let w₂ := w₁.push { kind := .ordinary "Function", store := { prototype := some w.heap.next } }
  have h₁ : Changes direct w w₁ := .single (.born "Object" {} rfl .nil fun _ hl => by cases hl)
  have h₂ : Change direct w₁ w₂ := .born "Function" _ rfl .nil (hlink w.heap _)
  refine (h₁.tail h₂).tail (.born "global" { prototype := some w.heap.next } rfl .nil ?_)
  exact fun link hl => (hlink w.heap _ link hl).push _

theorem memoize_changes {context : Option ContextId} {key : Identity} {entry : Entry}
    (hdirect : direct) (hc : w.Serves context none) (hfits : w.heap.Fits entry) :
    Changes direct w ((remember context key entry.kind (pure entry.content)).on w).2 := by
  rw [on_remember]
  cases hknown : w.known? context key entry.kind with
  | some content => exact .single (.recalled hdirect context key ⟨entry.kind, content⟩ hknown)
  | none => exact .single (.stored hdirect context key entry hc hfits)

/-- **Whatever a move does comes down to changes.** -/
theorem Move.changes (hs : w.Sound) (m : Move σ) (hm : m.Allowed w)
    (hdirect : direct ∨ m.IsPlain) : Changes direct w (m.run.on w).2 := by
  cases m with
  | openContext policy => exact .single (.opened policy)
  | retain c => exact .single (.retained c)
  | release c => exact .single (.released c)
  | setInForce accessor => exact .single (.setInForce accessor)
  | memoize context key entry =>
    exact changes_discard (memoize_changes (hdirect.resolve_right fun h => h) hm.1 hm.2)
  | host act => exact .single (.host _)
  | makeRealm => exact changes_discard makeRealm_changes
  | ordinary className => exact .single (.born className {} rfl .nil fun _ hl => by cases hl)
  | define id key value => exact .single (.defined id key value)
  | erase id key => exact .single (.erased id key hm)
  | preventExtensions id => exact .single (.sealed id hm)
  | wrapError e => exact .single (.error e)
  | caught e realm => exact changes_discard (caught_changes e hm)
  | wrap site subject => exact changes_discard (ScriptM.Proceeds.wrap hm subject).changes
  | toScript site value =>
    exact changes_discard (ScriptM.Proceeds.toScript hm trivial value).changes
  | toHost policy value => exact changes_discard (ScriptM.Proceeds.toHost trivial value).changes
  | get id key =>
    have hchain : ∀ x ∈ w.heap.chain id, Suits .any w x := fun x hx =>
      hs.suits (hs.holds_of_mem_chain hm hx)
    exact changes_discard (ScriptM.Proceeds.get? hchain key).changes
  | has id key => exact changes_discard (ScriptM.Proceeds.has? id key).changes
  | put id key value => exact put_changes id key value
  | setPrototype id link => exact changes_discard (setPrototype_changes hm.1 hm.2)
  | call id context realm this args =>
    have hcall := ScriptM.Proceeds.call (hs.suits hm.1) hm.2 (.inl trivial) this args
    exact changes_discard hcall.changes
  | construct id context realm args =>
    have hconstruct := ScriptM.Proceeds.construct (hs.suits hm.1) hm.2 (.inl trivial) args
    exact changes_discard hconstruct.changes
  | hasInstance id value =>
    exact changes_discard (ScriptM.Proceeds.hasInstance (hs.suits hm) trivial value).changes

/-- From a sound world, moves lead to nothing but changes, and to sound worlds. -/
theorem changes_of_leads {among : Move σ → Prop} (hamong : ∀ m, among m → direct ∨ m.IsPlain)
    (hs : w.Sound) (h : Relation.ReflTransGen (World.Leads among) w w') :
    Changes direct w w' ∧ w'.Sound := by
  induction h with
  | refl => exact ⟨.refl, hs⟩
  | tail _ hstep ih =>
    obtain ⟨m, hm, hmember, rfl⟩ := hstep
    have hstep := m.changes ih.2 hm (hamong m hmember)
    exact ⟨ih.1.trans hstep, hstep.sound ih.2⟩

/-- What every move that may be made keeps in sound worlds, a run of such moves keeps. -/
theorem World.Sound.run (hs : w.Sound) {may : World σ → Move σ → Prop} {P : World σ → Prop}
    (hP : P w)
    (hkeeps : ∀ (u : World σ) (m : Move σ), u.Sound → P u → m.Allowed u → may u m → P (u.after m))
    (h : Relation.ReflTransGen (World.LeadsBy may) w w') : P w' := by
  have hboth : w'.Sound ∧ P w' := by
    induction h with
    | refl => exact ⟨hs, hP⟩
    | tail _ hstep ih =>
      obtain ⟨m, hm, hmay, rfl⟩ := hstep
      have hchanges : Changes True _ _ := m.changes ih.1 hm (.inl trivial)
      exact ⟨hchanges.sound ih.1, hkeeps _ m ih.1 ih.2 hm hmay⟩
  exact hboth.2

theorem World.Reaches.changes (hs : w.Sound) (h : w.Reaches w') : Changes True w w' ∧ w'.Sound :=
  changes_of_leads (fun _ _ => .inl trivial) hs h

theorem World.ReachesPlainly.changes (hs : w.Sound) (h : w.ReachesPlainly w') :
    Changes False w w' ∧ w'.Sound :=
  changes_of_leads (fun _ hm => .inr hm) hs h

/-- An object stays of its kind. -/
theorem World.Reaches.kind? (hs : w.Sound) (h : w.Reaches w') {id : ObjectId} {kind : ObjectKind}
    (hk : w.heap.kind? id = some kind) : w'.heap.kind? id = some kind := by
  have hchanges := (h.changes hs).1
  clear h hs
  induction hchanges with
  | refl => exact hk
  | tail _ hstep ih => rw [hstep.kind? (Heap.holds_of_kind? ih), ih]

omit [Host σ] in
theorem World.initial_sound (host : HostSide σ) (inForce : Accessor) :
    (World.initial host inForce).Sound where
  linked _ _ h := by cases h
  grounded id := ⟨[id], .step .done⟩
  realm _ _ _ h := by cases h
  extensible _ _ h := by cases h

/-- **Every reachable world is sound.** -/
theorem World.Reachable.sound (h : w.Reachable) : w.Sound := by
  obtain ⟨host, inForce, h⟩ := h
  exact (h.changes (World.initial_sound host inForce)).2

end Membrane
