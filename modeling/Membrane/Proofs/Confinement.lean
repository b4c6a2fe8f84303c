import Membrane.Proofs.Reach
import Membrane.Proofs.Routes

/-!
# What operations leave alone

A `Scope` names contexts and objects. A world is confined to a scope with respect to an earlier one
(`World.Confined`) if nothing but that scope has changed: contexts outside of it are as they were, and
those inside differ in what they remember only; objects that were there are what they were, and
outside of the scope they have the same own part. Host code was run by the routes only, and unless
it was run, the state of the embedding program is the same.

`ScriptM.StaysIn` says that an operation, run in a world, keeps to a scope. There is one lemma for
each operation, in the order in which the operations are built on each other.
-/

namespace Membrane

variable {σ α β : Type}

/-- The contexts and the objects that an operation may change. -/
structure Scope where
  contexts : ContextId → Prop
  objects : ObjectId → Prop

/-- Wrappers that are asked for in a context are in the scope, if there is a context. -/
def Scope.Covers (s : Scope) (context : Option ContextId) : Prop :=
  ∀ c, context = some c → s.contexts c

/-- Everything of a context but what it remembers. -/
def Context.standing (k : Context) : Policy × Nat := (k.policy, k.handles)

/-- The second world differs from the first one only within a scope. -/
structure World.Confined [Host σ] (s : Scope) (w w' : World σ) : Prop where
  holds : ∀ id, w.heap.Holds id → w'.heap.Holds id
  kind : ∀ id, w.heap.Holds id → w'.heap.kind? id = w.heap.kind? id
  store : ∀ id, w.heap.Holds id → ¬ s.objects id → w'.heap.store id = w.heap.store id
  standing : ∀ c, (w'.context? c).map Context.standing = (w.context? c).map Context.standing
  context : ∀ c, ¬ s.contexts c → w'.context? c = w.context? c
  inForce : w'.inForce = w.inForce
  runs : ∃ new, w'.runs = w.runs ++ new ∧ (∀ run ∈ new, run.1.Routed σ) ∧
    (new = [] → w'.host.state = w.host.state)

/-- Whether a context is held is part of its standing. -/
theorem World.isAlive_eq_any_standing (w : World σ) (c : ContextId) :
    w.isAlive c = ((w.context? c).map Context.standing).any fun k => decide (0 < k.2) := by
  rw [isAlive]
  cases w.context? c <;> rfl

/-! ## Elementary steps -/

namespace World.Confined

variable [Host σ] {s : Scope} {w w' w'' : World σ}

/-- Steps that change neither objects nor contexts, and run no host code. -/
theorem of_silent (hheap : w'.heap = w.heap) (hcontexts : w'.contexts = w.contexts)
    (hinForce : w'.inForce = w.inForce) (hruns : w'.runs = w.runs)
    (hstate : w'.host.state = w.host.state) : w.Confined s w' where
  holds _ hid := hheap ▸ hid
  kind _ _ := by rw [hheap]
  store _ _ _ := by rw [hheap]
  standing _ := by rw [context?, hcontexts, context?]
  context _ _ := by rw [context?, hcontexts, context?]
  inForce := hinForce
  runs := ⟨[], hruns.trans (List.append_nil _).symm, fun _ h => absurd h List.not_mem_nil,
    fun _ => hstate⟩

theorem refl (s : Scope) (w : World σ) : w.Confined s w := of_silent rfl rfl rfl rfl rfl

theorem trans (h : w.Confined s w') (h' : w'.Confined s w'') : w.Confined s w'' where
  holds id hid := h'.holds id (h.holds id hid)
  kind id hid := (h'.kind id (h.holds id hid)).trans (h.kind id hid)
  store id hid hout := (h'.store id (h.holds id hid) hout).trans (h.store id hid hout)
  standing c := (h'.standing c).trans (h.standing c)
  context c hout := (h'.context c hout).trans (h.context c hout)
  inForce := h'.inForce.trans h.inForce
  runs := by
    obtain ⟨new, hnew, hrouted, hstate⟩ := h.runs
    obtain ⟨new', hnew', hrouted', hstate'⟩ := h'.runs
    refine ⟨new ++ new', by rw [hnew', hnew, List.append_assoc], fun run hrun => ?_, fun hnil => ?_⟩
    · exact (List.mem_append.1 hrun).elim (hrouted run) (hrouted' run)
    · obtain ⟨hnil, hnil'⟩ := List.append_eq_nil_iff.1 hnil
      exact (hstate' hnil').trans (hstate hnil)

theorem note {event : Event} (h : event.run? = none) : w.Confined s (w.note event) :=
  of_silent rfl rfl rfl (w.alike_note h).runs rfl

/-- A new object. -/
theorem push (object : ScriptObject) : w.Confined s (w.push object) where
  holds _ hid := hid.push object
  kind _ hid := Heap.kind?_push_of_holds hid object
  store _ hid _ := Heap.store_push_of_holds hid object
  standing _ := rfl
  context _ _ := rfl
  inForce := rfl
  runs := ⟨[], (List.append_nil _).symm, fun _ h => absurd h List.not_mem_nil, fun _ => rfl⟩

/-- Something is remembered in a context of the scope. -/
theorem keep {context : Option ContextId} (hs : s.Covers context) (key : Identity)
    (entry : Entry) : w.Confined s (w.keep context key entry) where
  holds _ hid := (w.heap_keep context key entry).symm ▸ hid
  kind _ _ := by rw [heap_keep]
  store _ _ _ := by rw [heap_keep]
  standing c := by
    rw [context?_keep]
    split
    · cases w.context? c <;> rfl
    · rfl
  context c hout := by
    have hne : context ≠ some c := fun hc => hout (hs c hc)
    rw [context?_keep, if_neg hne]
  inForce := by cases context <;> rfl
  runs := by
    refine ⟨[], ?_, fun _ h => absurd h List.not_mem_nil, fun _ => by rw [host_keep]⟩
    rw [World.runs, journal_keep, List.append_nil, World.runs]

/-- An object of the scope gets another own part. -/
theorem setStore {id : ObjectId} (hs : s.objects id) (store : Store) :
    w.Confined s (w.setStore id store) where
  holds _ hid := (Heap.holds_setStore store).2 hid
  kind _ _ := Heap.kind?_setStore store
  store x _ hout := by
    have hne : x ≠ id := fun hx => hout (hx ▸ hs)
    exact Heap.store_setStore_of_ne hne store
  standing _ := rfl
  context _ _ := rfl
  inForce := rfl
  runs := ⟨[], (List.append_nil _).symm, fun _ h => absurd h List.not_mem_nil, fun _ => rfl⟩

/-- Host code is run. -/
theorem invoke {i : Invocation} (h : i.Routed σ) : w.Confined s (w.invoke i).2 where
  holds _ hid := hid
  kind _ _ := rfl
  store _ _ _ := rfl
  standing _ := rfl
  context _ _ := rfl
  inForce := rfl
  runs := by
    refine ⟨[(i, (w.invoke i).1)], ?_, fun run hrun => ?_, nofun⟩
    · exact World.runs_note { w with host := (w.invoke i).2.host } (.ran i (w.invoke i).1)
    · exact List.mem_singleton.1 hrun ▸ h

theorem pushWrapper {site : Site} (hs : s.Covers site.context) (subject : Subject) :
    w.Confined s (w.pushWrapper site subject) :=
  ((push (site.wrapper subject)).trans (keep hs _ _)).trans (note rfl)

/-! ## What stays visible -/

theorem isAlive (h : w.Confined s w') (c : ContextId) : w'.isAlive c = w.isAlive c := by
  rw [isAlive_eq_any_standing, h.standing, ← isAlive_eq_any_standing]

theorem wrapper? (h : w.Confined s w') {id : ObjectId} (hid : w.heap.Holds id) :
    w'.heap.wrapper? id = w.heap.wrapper? id := by
  simp only [Heap.wrapper?, h.kind id hid]

/-- A wrapper goes on working at the same site. -/
theorem site (h : w.Confined s w') (v : Wrapper) : v.site w' = v.site w := by
  have halive : w'.isAlive = w.isAlive := funext h.isAlive
  rw [Wrapper.site, Wrapper.site, revive?, revive?, halive]

end World.Confined

/-! ## Operations -/

/-- The operation, run in a world, changes nothing outside of a scope. -/
def ScriptM.StaysIn [Host σ] (s : Scope) (act : ScriptM σ α) (w : World σ) : Prop :=
  w.Confined s (act.on w).2

namespace ScriptM.StaysIn

open World

variable [Host σ] {s : Scope} {w : World σ}

theorem pure (a : α) : StaysIn s (Pure.pure a : ScriptM σ α) w := .refl s w

theorem throw (e : ScriptError) : StaysIn s (MonadExcept.throw e : ScriptM σ α) w := .refl s w

/-- Two operations in a row stay where each of them stays. -/
theorem bind {act : ScriptM σ α} {next : α → ScriptM σ β} (h : StaysIn s act w)
    (hnext : ∀ a w', act.on w = (.ok a, w') → w.Confined s w' → StaysIn s (next a) w') :
    StaysIn s (act >>= next) w := by
  unfold StaysIn at h ⊢
  rw [on_bind]
  match hact : act.on w, h with
  | (.ok a, w'), h => exact h.trans (hnext a w' hact h)
  | (.error e, w'), h => exact h

theorem map {act : ScriptM σ α} (h : StaysIn s act w) (f : α → β) : StaysIn s (f <$> act) w := by
  rw [map_eq_pure_bind]
  exact h.bind fun a _ _ _ => pure (f a)

theorem discard {act : ScriptM σ α} (h : StaysIn s act w) : StaysIn s (discard act) w := h.map _

theorem reading {next : World σ → ScriptM σ β} (h : StaysIn s (next w) w) :
    StaysIn s (MonadState.get >>= next) w := h

theorem viewing {next : View σ → ScriptM σ β} (h : StaysIn s (next w.view) w) :
    StaysIn s (ScriptM.view >>= next) w := h

theorem mapM {f : α → ScriptM σ β} (hf : ∀ a w, StaysIn s (f a) w) (l : List α) (w : World σ) :
    StaysIn s (l.mapM f) w := by
  induction l generalizing w with
  | nil => exact pure []
  | cons a l ih =>
    rw [List.mapM_cons]
    exact (hf a w).bind fun b _ _ _ => (ih _).bind fun bs _ _ _ => pure (b :: bs)

theorem orElseFrom {act : ScriptM σ (Option α)} (h : StaysIn s act w) (second : Option α) :
    StaysIn s (orElseFrom act second) w :=
  h.bind fun a _ _ _ => by cases a <;> exact pure _

/-- If every object of a list stays in the scope when it is asked, so do all of them in turn. -/
theorem firstAlong {ask : ObjectId → ScriptM σ (Option α)} {ids : List ObjectId}
    (hask : ∀ id ∈ ids, ∀ w', w.Confined s w' → StaysIn s (ask id) w') :
    StaysIn s (firstAlong ask ids) w := by
  induction ids generalizing w with
  | nil => exact pure none
  | cons id rest ih =>
    refine (hask id List.mem_cons_self w (.refl s w)).bind fun answer w₁ _ hw₁ => ?_
    cases answer with
    | some a => exact pure (some a)
    | none => exact ih fun x hx w' hw' => hask x (List.mem_cons_of_mem _ hx) w' (hw₁.trans hw')

/-! ### Crossing -/

theorem hostCall {i : Invocation} (h : i.Routed σ) : StaysIn s (hostCall i) w := by
  have hrun : w.Confined s (w.invoke i).2 := .invoke h
  unfold StaysIn
  rw [on_hostCall]
  match hinvoke : w.invoke i with
  | (.ok value, w') =>
    rw [hinvoke] at hrun
    exact hrun
  | (.error e, w') =>
    rw [hinvoke] at hrun
    exact hrun.trans (.push _)

theorem toHost (policy : Policy) (value : ScriptValue) : StaysIn s (toHost policy value) w := by
  unfold StaysIn
  rw [on_toHost]
  exact .note rfl

section Site

variable {site : Site} (hs : s.Covers site.context)
include hs

theorem wrap (subject : Subject) : StaysIn s (wrap site subject) w := by
  unfold StaysIn
  rw [on_wrap]
  cases w.wrapper? site subject with
  | some id => exact .note rfl
  | none => exact .pushWrapper hs subject

theorem crossOut (value : HostValue) : StaysIn s (crossOut site value) w := by
  cases value with
  | object o => exact (wrap hs _).bind fun id _ _ _ => pure _
  | callable c => exact (wrap hs _).bind fun id _ _ _ => pure _
  | hostClass c => exact (wrap hs _).bind fun id _ _ _ => pure _
  | _ => exact pure _

theorem toScript (value : HostValue) : StaysIn s (toScript site value) w := by
  have hnote : ∀ decision, w.Confined s (w.note (.outgoing value decision)) := fun _ => .note rfl
  unfold StaysIn
  rw [on_toScript]
  cases site.policy.converter.outgoing (w.view.className value) value with
  | error e => exact hnote _
  | ok decision =>
    cases decision with
    | some replacement => exact hnote _
    | none => exact (hnote _).trans (crossOut hs value)

/-! ### Members of a host value -/

theorem handOut (m : Member) : StaysIn s (handOut site m) w := by
  have haddress : StaysIn s ScriptM.freshAddress w := Confined.of_silent rfl rfl rfl rfl rfl
  exact haddress.bind fun _ _ _ _ => (wrap hs _).bind fun _ _ _ _ => pure _

omit hs in
theorem readIndex (host : HostValue) (key : PropertyKey) : StaysIn s (host.readIndex key) w := by
  refine reading ?_
  cases h : host.indexReader? w.host.state key with
  | some m => exact hostCall (.readIndex host m key (HostValue.arity_of_indexReader? h))
  | none => exact pure _

theorem getIndexed (host : HostValue) (key : PropertyKey) :
    StaysIn s (getIndexed site host key) w := by
  refine (readIndex host key).bind fun value _ _ _ => ?_
  split
  · exact pure none
  · exact (toScript hs value).bind fun v _ _ _ => pure (some v)

theorem getNamed (asProperty : σ → HostValue → String → Bool) (host : HostValue)
    (key : PropertyKey) : StaysIn s (getNamed asProperty site host key) w := by
  refine reading ?_
  dsimp only
  cases host.reader? w.host.state key with
  | some m =>
    dsimp only
    split
    case isTrue h =>
      simp only [Bool.and_eq_true, decide_eq_true_eq] at h
      refine (hostCall (.read host m h.1)).bind fun value _ _ _ => ?_
      exact (toScript hs value).bind fun v _ _ _ => pure (some v)
    case isFalse => exact (handOut hs m).bind fun f _ _ _ => pure (some f)
  | none =>
    cases host.writer? w.host.state key with
    | some m => exact pure _
    | none => exact getIndexed hs host key

omit hs in
theorem hasNamed (host : HostValue) (key : PropertyKey) : StaysIn s (hasNamed host key) w := by
  refine reading ?_
  dsimp only
  split
  · exact pure _
  · refine (readIndex host key).bind fun value _ _ _ => ?_
    split <;> exact pure _

omit hs in
theorem putNamed (host : HostValue) (key : PropertyKey) (value : ScriptValue) :
    StaysIn s (putNamed site host key value) w := by
  refine reading ?_
  dsimp only
  cases hm : host.writer? w.host.state key with
  | some m =>
    obtain ⟨name, -, hname⟩ := Option.bind_eq_some_iff.1 hm
    refine (toHost site.policy value).bind fun hostValue _ _ _ => ?_
    have hwrite : (Invocation.member host m [hostValue]).IsWrite σ :=
      ⟨w.host.state, host, name, m, hostValue, hname, rfl⟩
    exact (hostCall (.written hwrite)).discard.bind fun _ _ _ _ => pure true
  | none =>
    cases hm : host.indexWriter? w.host.state key with
    | some m =>
      refine (toHost site.policy value).bind fun hostValue _ _ _ => ?_
      have harity := HostValue.arity_of_indexWriter? hm
      exact (hostCall (.writtenIndex host m key hostValue harity)).discard.bind
        fun _ _ _ _ => pure true
    | none => exact pure false

theorem accessorGet (accessor : Accessor) (host : HostValue) (receiver : ObjectId)
    (key : PropertyKey) : StaysIn s (accessor.get site host receiver key) w := by
  cases accessor with
  | standard => exact getNamed hs _ host key
  | attributes => exact getNamed hs _ host key
  | transparent => exact pure none
  | deny => exact viewing (throw _)

omit hs in
theorem accessorHas (accessor : Accessor) (host : HostValue) (key : PropertyKey) :
    StaysIn s (accessor.has host key) w := by
  cases accessor with
  | standard => exact hasNamed host key
  | attributes => exact hasNamed host key
  | transparent => exact pure none
  | deny => exact pure (some false)

omit hs in
theorem accessorPut (accessor : Accessor) (host : HostValue) (receiver : ObjectId)
    (key : PropertyKey) (value : ScriptValue) :
    StaysIn s (accessor.put site host receiver key value) w := by
  cases accessor with
  | standard => exact putNamed host key value
  | attributes => exact putNamed host key value
  | transparent => exact pure false
  | deny => exact viewing (viewing (throw _))

end Site

/-! ### Objects -/

theorem getOwn {id : ObjectId} (hs : ∀ v, w.heap.wrapper? id = some v → s.Covers (v.site w).context)
    (key : PropertyKey) : StaysIn s (id.getOwn key) w := by
  refine reading ?_
  dsimp only
  split
  case h_1 v hv =>
    have hsite := hs v (Heap.wrapper?_eq_some.2 hv)
    exact (accessorGet hsite v.policy.accessor _ id key).orElseFrom _
  case h_2 => exact pure _
  case h_3 => exact pure _

theorem get? {id : ObjectId} (hid : ∀ x ∈ w.heap.chain id, w.heap.Holds x)
    (hs : ∀ x ∈ w.heap.chain id, ∀ v, w.heap.wrapper? x = some v → s.Covers (v.site w).context)
    (key : PropertyKey) : StaysIn s (id.get? key) w := by
  refine reading (firstAlong fun x hx w' hw' => getOwn (fun v hv => ?_) key)
  rw [hw'.wrapper? (hid x hx)] at hv
  exact hw'.site v ▸ hs x hx v hv

theorem hasOwn (id : ObjectId) (key : PropertyKey) : StaysIn s (id.hasOwn key) w := by
  refine reading ?_
  dsimp only
  split
  case h_1 v _ =>
    split
    · exact pure _
    · exact (accessorHas v.policy.accessor _ key).orElseFrom _
  case h_2 => exact pure _
  case h_3 => exact pure _

theorem has (id : ObjectId) (key : PropertyKey) : StaysIn s (id.has key) w :=
  reading ((firstAlong fun x _ _ _ => hasOwn x key).bind fun _ _ _ _ => pure _)

theorem putOwn {id : ObjectId} (hs : s.objects id) (key : PropertyKey) (value : ScriptValue) :
    StaysIn s (id.putOwn key value) w := by
  unfold StaysIn
  rw [on_putOwn]
  split
  · exact .setStore hs _
  · exact .refl s w

theorem put {id : ObjectId} (hs : s.objects id) (key : PropertyKey) (value : ScriptValue) :
    StaysIn s (id.put key value) w := by
  refine reading ?_
  split
  case h_1 v _ =>
    refine (accessorPut v.policy.accessor _ id key value).bind fun taken _ _ _ => ?_
    cases taken with
    | true => exact pure ()
    | false => exact putOwn hs key value
  case h_2 => exact putOwn hs key value

theorem setPrototype {id : ObjectId} (hs : s.objects id) (link : Option ObjectId) :
    StaysIn s (id.setPrototype link) w := by
  unfold StaysIn
  rw [on_setPrototype]
  cases link with
  | none => exact .setStore hs _
  | some x =>
    dsimp only
    split
    · exact .refl s w
    · split
      · exact .refl s w
      · exact .setStore hs _

/-! ### Calls -/

section Calls

variable {context : Option ContextId} (hs : s.Covers context)
include hs

theorem calleeCall (callee : Callee) {site : Site} (hc : site.context = context)
    (this : ScriptValue) (args : List ScriptValue) : StaysIn s (callee.call site this args) w := by
  refine (mapM (fun value _ => toHost site.policy value) _ w).bind fun hostArgs _ hcross _ => ?_
  -- the list was fitted before its values crossed, and each of them became one argument
  have hfitted : callee.arity.Admits hostArgs.length := by
    rw [length_of_mapM hcross]
    exact callee.arity.admits_length_fit .null args
  have hreceiver : ∀ w, StaysIn s (callee.receiver site.policy this : ScriptM σ _) w := by
    intro w
    unfold Callee.receiver
    split
    · exact (toHost site.policy this).map _
    · exact pure none
  refine (hreceiver _).bind fun receiver _ _ _ => ?_
  have hsite : s.Covers site.context := hc ▸ hs
  exact (hostCall (.called callee receiver hostArgs hfitted)).bind
    fun value _ _ _ => toScript hsite value

omit [Host σ] hs in
/-- A callee is called in the context of the caller. -/
theorem context_of_callee? {id : ObjectId} {realm : Option Realm} {callee : Callee} {site : Site}
    (h : w.heap.callee? id context realm = some (callee, site)) : site.context = context := by
  obtain ⟨v, -, hsite⟩ := Option.bind_eq_some_iff.1 h
  obtain ⟨_, -, heq⟩ := Option.map_eq_some_iff.1 hsite
  cases heq
  rfl

theorem call (id : ObjectId) (realm : Option Realm) (this : ScriptValue)
    (args : List ScriptValue) : StaysIn s (id.call context realm this args) w := by
  refine reading ?_
  split
  case h_1 callee site h => exact calleeCall hs callee (context_of_callee? h) this args
  case h_2 => exact viewing (throw _)

theorem construct (id : ObjectId) (realm : Option Realm) (args : List ScriptValue) :
    StaysIn s (id.construct context realm args) w := by
  refine reading ?_
  split
  case h_1 c site h => exact calleeCall hs (.hostClass c) (context_of_callee? h) .undefined args
  case h_2 => exact viewing (throw _)

end Calls

theorem hasInstance (id : ObjectId) (value : ScriptValue) :
    StaysIn s (id.hasInstance value) w := by
  refine viewing ?_
  split
  case h_1 =>
    split
    · exact pure false
    · split
      · exact pure _
      · exact (toHost _ value).bind fun _ _ _ _ => pure _
  case h_2 => exact throw _

end ScriptM.StaysIn

/-! ## Moves -/

/-- The contexts that a move may change: the one that is handed to it, and for a read the contexts,
still held, that the wrappers along the prototypes were made in. -/
def Move.contexts (w : World σ) : Move σ → ContextId → Prop
  | .retain context, c | .release context, c => c = context
  | .memoize context _ _, c => context = some c
  | .wrap site _, c | .toScript site _, c => site.context = some c
  | .get id _, c =>
    ∃ x ∈ w.heap.chain id, ∃ v, w.heap.wrapper? x = some v ∧ w.revive? v.context = some c
  | .call _ context _ _ _, c | .construct _ context _ _, c => context = some c
  | _, _ => False

/-- The object whose own part a move may change. -/
def Move.object? : Move σ → Option ObjectId
  | .define id _ _ | .erase id _ | .preventExtensions id | .put id _ _ | .setPrototype id _ => some id
  | _ => none

/-- What a move may change. -/
def Move.scope (w : World σ) (m : Move σ) : Scope where
  contexts := m.contexts w
  objects id := m.object? = some id

/-- The move is an operation on values and objects. Others open contexts, take and let go handles of
them, choose the strategy in force, or leave the word to the host. -/
def Move.IsOperation : Move σ → Prop
  | .openContext _ | .retain _ | .release _ | .setInForce _ | .host _ => False
  | _ => True

variable [Host σ] {w w' : World σ}

/-- **An operation changes nothing outside of its scope.** -/
theorem Move.confined (hs : w.Sound) {m : Move σ} (hm : m.Allowed w) (hoperation : m.IsOperation) :
    w.Confined (m.scope w) (w.after m) := by
  cases m with
  | openContext policy => exact hoperation.elim
  | retain c => exact hoperation.elim
  | release c => exact hoperation.elim
  | setInForce accessor => exact hoperation.elim
  | host act => exact hoperation.elim
  | memoize context key entry =>
    refine ScriptM.StaysIn.discard ?_
    unfold ScriptM.StaysIn
    rw [on_remember]
    have hc : ((Move.memoize context key entry).scope w).Covers context := fun _ hc => hc
    cases w.known? context key entry.kind with
    | some content => exact .note rfl
    | none => exact (World.Confined.keep hc key entry).trans (.note rfl)
  | makeRealm => exact ((World.Confined.push _).trans (.push _)).trans (.push _)
  | ordinary className => exact .push _
  | define id key value => exact .setStore rfl _
  | erase id key => exact .setStore rfl _
  | preventExtensions id => exact .setStore rfl _
  | wrapError e => exact .push _
  | caught e realm =>
    cases e with
    | thrown value => exact .refl _ w
    | fault f => exact .push _
    | reported kind message => exact .push _
  | wrap site subject => exact (ScriptM.StaysIn.wrap (fun _ hc => hc) subject).discard
  | toScript site value => exact (ScriptM.StaysIn.toScript (fun _ hc => hc) value).discard
  | toHost policy value => exact (ScriptM.StaysIn.toHost policy value).discard
  | get id key =>
    have hchain : ∀ x ∈ w.heap.chain id, w.heap.Holds x := fun x hx => hs.holds_of_mem_chain hm hx
    refine (ScriptM.StaysIn.get? hchain (fun x hx v hv c hc => ?_) key).discard
    exact ⟨x, hx, v, hv, hc⟩
  | has id key => exact (ScriptM.StaysIn.has id key).discard
  | put id key value => exact ScriptM.StaysIn.put rfl key value
  | setPrototype id link => exact (ScriptM.StaysIn.setPrototype rfl link).discard
  | call id context realm this args =>
    exact (ScriptM.StaysIn.call (fun _ hc => hc) id realm this args).discard
  | construct id context realm args =>
    exact (ScriptM.StaysIn.construct (fun _ hc => hc) id realm args).discard
  | hasInstance id value => exact (ScriptM.StaysIn.hasInstance id value).discard

/-- A move that is no operation leaves the objects as they are and runs no host code, and only the
host itself gets to its side. -/
theorem Move.after_of_not_isOperation {m : Move σ} (h : ¬ m.IsOperation) :
    (w.after m).heap = w.heap ∧ (w.after m).runs = w.runs ∧
      ((∀ act, m ≠ .host act) → (w.after m).host = w.host) := by
  cases m with
  | openContext policy => exact ⟨rfl, rfl, fun _ => rfl⟩
  | retain c => exact ⟨rfl, rfl, fun _ => rfl⟩
  | release c => exact ⟨rfl, rfl, fun _ => rfl⟩
  | setInForce accessor => exact ⟨rfl, rfl, fun _ => rfl⟩
  | host act => exact ⟨rfl, rfl, fun hhost => absurd rfl (hhost act)⟩
  | _ => exact absurd trivial h

/-- What a move has host code run comes by the routes. -/
theorem Move.routed (hs : w.Sound) {m : Move σ} (hm : m.Allowed w) :
    ∃ new, (w.after m).runs = w.runs ++ new ∧ ∀ run ∈ new, run.1.Routed σ := by
  by_cases hoperation : m.IsOperation
  · obtain ⟨new, hnew, hrouted, -⟩ := (m.confined hs hm hoperation).runs
    exact ⟨new, hnew, hrouted⟩
  · have hruns := (Move.after_of_not_isOperation (w := w) hoperation).2.1
    exact ⟨[], hruns.trans (List.append_nil _).symm, fun _ h => absurd h List.not_mem_nil⟩

/-- Every run of host code in a reachable world came by one of the routes. -/
theorem World.Reachable.routed (hw : w.Reachable) : ∀ run ∈ w.runs, run.1.Routed σ := by
  obtain ⟨host, inForce, hreaches⟩ := hw
  have hinitial : ∀ run ∈ (World.initial host inForce).runs, run.1.Routed σ :=
    fun _ hrun => absurd hrun List.not_mem_nil
  refine (World.initial_sound host inForce).run (P := fun u => ∀ run ∈ u.runs, run.1.Routed σ)
    hinitial (fun u m hs hu hm _ run hrun => ?_) hreaches
  obtain ⟨new, hnew, hrouted⟩ := m.routed hs hm
  rw [hnew] at hrun
  exact (List.mem_append.1 hrun).elim (hu run) (hrouted run)

end Membrane
