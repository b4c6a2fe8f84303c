import Membrane.Proofs.Confinement
import Membrane.Proofs.Discretion
import Membrane.Proofs.Store

/-!
# Worlds that differ in one property

`World.SameBut` relates worlds that differ in one own property of one wrapper at most. An operation
that does not read this property is unaware of it (`ScriptM.Unaware`): in two such worlds it comes
to the same and leaves two such worlds. There is one lemma for each operation, in the order in which
the operations are built on each other, and from them one for each move. Where host code is run, it
has to be discreet about the property.
-/

namespace Membrane

variable {σ α β : Type}

/-! ## Heaps that differ in one property -/

/-- Two heaps are the same but for one own property of one wrapper, which takes new properties. -/
structure Heap.SameBut (id : ObjectId) (key : PropertyKey) (h h' : Heap) : Prop where
  wrapper : ∃ v, h.wrapper? id = some v
  extensible : (h.store id).extensible = true
  kinds : h.SameKinds h'
  others : ∀ x, x ≠ id → h'.store x = h.store x
  own : (h'.store id).erase key = (h.store id).erase key

namespace Heap.SameBut

variable {id : ObjectId} {key : PropertyKey} {h h' : Heap} (hh : h.SameBut id key h')
include hh

theorem holds : h.Holds id := by
  obtain ⟨v, hv⟩ := hh.wrapper
  exact holds_of_wrapper? hv

/-- The rest of the own parts is the same. -/
theorem erased (x : ObjectId) : (h'.store x).erase key = (h.store x).erase key := by
  by_cases hx : x = id
  · rw [hx, hh.own]
  · rw [hh.others x hx]

theorem prototype (x : ObjectId) : h'.prototype x = h.prototype x := by
  show ((h'.store x).erase key).prototype = ((h.store x).erase key).prototype
  rw [hh.erased x]

theorem extensible_eq (x : ObjectId) : (h'.store x).extensible = (h.store x).extensible := by
  show ((h'.store x).erase key).extensible = ((h.store x).erase key).extensible
  rw [hh.erased x]

theorem chain (x : ObjectId) : h'.chain x = h.chain x := by
  have hwithin : ∀ fuel start, h'.chainWithin fuel start = h.chainWithin fuel start := by
    intro fuel
    induction fuel with
    | zero => exact fun _ => rfl
    | succ fuel ih =>
      intro start
      cases start with
      | none => rfl
      | some y => rw [chainWithin, hh.prototype y, ih, chainWithin]
  have hsize : h'.objects.size = h.objects.size := congrArg ObjectId.index hh.kinds.next
  rw [Heap.chain, hsize, hwithin, Heap.chain]

/-- Any other property reads the same. -/
theorem get?_eq {x : ObjectId} {k : PropertyKey} (hread : x ≠ id ∨ k ≠ key) :
    (h'.store x).get? k = (h.store x).get? k := by
  rcases hread with hx | hk
  · rw [hh.others x hx]
  · rw [← Store.get?_erase_of_ne _ hk, hh.erased x, Store.get?_erase_of_ne _ hk]

theorem push (object : ScriptObject) : (h.push object).SameBut id key (h'.push object) where
  wrapper := by
    rw [wrapper?_push_of_holds hh.holds]
    exact hh.wrapper
  extensible := by rw [store_push_of_holds hh.holds, hh.extensible]
  kinds := hh.kinds.push object
  others x hx := by
    rw [store_push, store_push, hh.kinds.next, hh.others x hx]
  own := by
    rw [store_push_of_holds hh.holds, store_push_of_holds ((hh.kinds.holds id).2 hh.holds), hh.own]

/-- An own part is rewritten in both heaps: of another object, or in a way that does not depend on
the property and leaves the wrapper extensible. -/
theorem rewrite {x : ObjectId} {f : Store → Store}
    (hf : x = id → (f (h'.store x)).erase key = (f (h.store x)).erase key ∧
      (f (h.store x)).extensible = true) :
    (h.setStore x (f (h.store x))).SameBut id key (h'.setStore x (f (h'.store x))) where
  wrapper := by
    rw [wrapper?_setStore]
    exact hh.wrapper
  extensible := by
    by_cases hx : x = id
    · subst hx
      rw [store_setStore_self hh.holds, (hf rfl).2]
    · rw [store_setStore_of_ne (Ne.symm hx), hh.extensible]
  kinds := hh.kinds.setStore x _ _
  others y hy := by
    by_cases hx : y = x
    · subst hx
      by_cases hheld : h.Holds y
      · rw [store_setStore_self hheld, store_setStore_self ((hh.kinds.holds y).2 hheld),
          hh.others y hy]
      · have hfree : ¬ h'.Holds y := fun hheld' => hheld ((hh.kinds.holds y).1 hheld')
        rw [setStore_of_not_holds hheld, setStore_of_not_holds hfree, hh.others y hy]
    · rw [store_setStore_of_ne hx, store_setStore_of_ne hx, hh.others y hy]
  own := by
    by_cases hx : x = id
    · subst hx
      rw [store_setStore_self hh.holds, store_setStore_self ((hh.kinds.holds x).2 hh.holds),
        (hf rfl).1]
    · rw [store_setStore_of_ne (Ne.symm hx), store_setStore_of_ne (Ne.symm hx), hh.own]

theorem define (x : ObjectId) (k : PropertyKey) (value : ScriptValue) :
    (h.setStore x ((h.store x).define k value)).SameBut id key
      (h'.setStore x ((h'.store x).define k value)) := by
  refine hh.rewrite (f := fun s => s.define k value) fun hx => ⟨?_, ?_⟩
  · by_cases hk : k = key
    · subst hk
      rw [Store.erase_define, Store.erase_define, hh.erased x]
    · rw [Store.erase_define_of_ne _ hk, Store.erase_define_of_ne _ hk, hh.erased x]
  · rw [Store.extensible_define, hx, hh.extensible]

theorem link (x : ObjectId) (link : Option ObjectId) :
    (h.setStore x { h.store x with prototype := link }).SameBut id key
      (h'.setStore x { h'.store x with prototype := link }) := by
  refine hh.rewrite (f := fun s => { s with prototype := link }) fun hx => ⟨?_, ?_⟩
  · exact congrArg (fun s : Store => { s with prototype := link }) (hh.erased x)
  · rw [hx]
    exact hh.extensible

/-- An ordinary object is not the wrapper. -/
theorem ne_of_isOrdinary {x : ObjectId} (hx : h.IsOrdinary x) : x ≠ id := by
  rintro rfl
  obtain ⟨v, hv⟩ := hh.wrapper
  rw [hx.wrapper?] at hv
  cases hv

end Heap.SameBut

/-! ## Operations that are unaware of a property -/

/-- Two worlds are the same but for one own property of one wrapper. -/
def World.SameBut (id : ObjectId) (key : PropertyKey) (w u : World σ) : Prop :=
  ∃ h', w.heap.SameBut id key h' ∧ u = { w with heap := h' }

/-- In two worlds that are the same but for a property, two outcomes are the same, and so are the
worlds that are left, but for the property. -/
def World.SameOutcome (id : ObjectId) (key : PropertyKey)
    (r r' : Except ScriptError α × World σ) : Prop :=
  r'.1 = r.1 ∧ r.2.SameBut id key r'.2

/-- The operation comes to the same in worlds that are the same but for a property. -/
def ScriptM.Unaware (id : ObjectId) (key : PropertyKey) (act : ScriptM σ α) : Prop :=
  ∀ w u : World σ, w.SameBut id key u → World.SameOutcome id key (act.on w) (act.on u)

namespace ScriptM.Unaware

variable {id : ObjectId} {key : PropertyKey}

theorem pure (a : α) : Unaware id key (Pure.pure a : ScriptM σ α) := fun _ _ h => ⟨rfl, h⟩

theorem throw (e : ScriptError) : Unaware id key (MonadExcept.throw e : ScriptM σ α) :=
  fun _ _ h => ⟨rfl, h⟩

/-- Of two operations in a row, both are unaware if each of them is. -/
theorem bind {act : ScriptM σ α} {next : α → ScriptM σ β} (h : Unaware id key act)
    (hnext : ∀ a, Unaware id key (next a)) : Unaware id key (act >>= next) := by
  intro w u hu
  have hact := h w u hu
  rw [on_bind, on_bind]
  match act.on w, act.on u, hact with
  | (.ok a, w'), (_, u'), ⟨rfl, hsame⟩ => exact hnext a w' u' hsame
  | (.error e, w'), (_, u'), ⟨rfl, hsame⟩ => exact ⟨rfl, hsame⟩

theorem map {act : ScriptM σ α} (h : Unaware id key act) (f : α → β) :
    Unaware id key (f <$> act) := by
  rw [map_eq_pure_bind]
  exact h.bind fun a => pure (f a)

theorem discard {act : ScriptM σ α} (h : Unaware id key act) : Unaware id key (discard act) :=
  h.map _

/-- What is read of the world is the same, and what follows unaware. -/
theorem reading {next : World σ → ScriptM σ β} (hnext : ∀ w, Unaware id key (next w))
    (hsame : ∀ (w : World σ) h', w.heap.SameBut id key h' → next { w with heap := h' } = next w) :
    Unaware id key (MonadState.get >>= next) := by
  rintro w _ ⟨h', hh, rfl⟩
  rw [on_get_bind, on_get_bind, hsame w h' hh]
  exact hnext w w _ ⟨h', hh, rfl⟩

/-- What is looked at is the same, and what follows unaware. -/
theorem viewing {next : View σ → ScriptM σ β} (hnext : ∀ v, Unaware id key (next v))
    (hsame : ∀ h h' s, h.SameBut id key h' → next ⟨h', s⟩ = next ⟨h, s⟩) :
    Unaware id key (ScriptM.view >>= next) := by
  rintro w _ ⟨h', hh, rfl⟩
  show World.SameOutcome id key ((next w.view).on w) ((next ⟨h', w.host.state⟩).on _)
  rw [hsame w.heap h' w.host.state hh]
  exact hnext w.view w _ ⟨h', hh, rfl⟩

theorem mapM {f : α → ScriptM σ β} (hf : ∀ a, Unaware id key (f a)) (l : List α) :
    Unaware id key (l.mapM f) := by
  induction l with
  | nil => exact pure []
  | cons a l ih =>
    rw [List.mapM_cons]
    exact (hf a).bind fun b => ih.bind fun bs => pure (b :: bs)

theorem orElseFrom {act : ScriptM σ (Option α)} (h : Unaware id key act) (second : Option α) :
    Unaware id key (orElseFrom act second) :=
  h.bind fun a => by cases a <;> exact pure _

theorem firstAlong {ask : ObjectId → ScriptM σ (Option α)} {ids : List ObjectId}
    (hask : ∀ x ∈ ids, Unaware id key (ask x)) : Unaware id key (firstAlong ask ids) := by
  induction ids with
  | nil => exact pure none
  | cons x rest ih =>
    refine (hask x List.mem_cons_self).bind fun answer => ?_
    cases answer with
    | some a => exact pure (some a)
    | none => exact ih fun y hy => hask y (List.mem_cons_of_mem _ hy)

/-! ### Single steps -/

theorem note (event : Event) : Unaware id key (note event : ScriptM σ Unit) := by
  rintro w _ ⟨h', hh, rfl⟩
  exact ⟨rfl, h', hh, rfl⟩

theorem allocate (object : ScriptObject) :
    Unaware id key (allocate object : ScriptM σ ObjectId) := by
  rintro w _ ⟨h', hh, rfl⟩
  exact ⟨congrArg Except.ok hh.kinds.next, h'.push object, hh.push object, rfl⟩

theorem freshAddress : Unaware id key (freshAddress : ScriptM σ Nat) := by
  rintro w _ ⟨h', hh, rfl⟩
  exact ⟨rfl, h', hh, rfl⟩

theorem keep (context : Option ContextId) (k : Identity) (entry : Entry) :
    Unaware id key (modify (·.keep context k entry) : ScriptM σ Unit) := by
  rintro w _ ⟨h', hh, rfl⟩
  cases context with
  | none => exact ⟨rfl, h', hh, rfl⟩
  | some c => exact ⟨rfl, h', hh, rfl⟩

theorem attempt {act : HostM σ α} (hact : act.Discreet (Heap.SameBut id key)) :
    Unaware id key (attempt act) := by
  rintro w _ ⟨h', hh, rfl⟩
  have hrun : act.run h' = act.run w.heap := hact w.heap h' hh
  have hon : ∀ w : World σ, (ScriptM.attempt act).on w =
      (.ok (((act.run w.heap).run).run w.host).1,
        { w with host := (((act.run w.heap).run).run w.host).2 }) := fun _ => rfl
  rw [hon, hon, hrun]
  exact ⟨rfl, h', hh, rfl⟩

/-! ### Crossing -/

theorem remember (context : Option ContextId) (k : Identity) (kind : EntryKind)
    {build : ScriptM σ kind.Content} (hbuild : Unaware id key build) :
    Unaware id key (remember context k kind build) := by
  refine reading (fun w => ?_) fun _ _ _ => rfl
  cases w.known? context k kind with
  | some content => exact (note _).bind fun _ => pure content
  | none =>
    exact hbuild.bind fun content => (keep _ _ _).bind fun _ => (note _).bind fun _ => pure content

theorem wrap (site : Site) (subject : Subject) :
    Unaware id key (wrap site subject : ScriptM σ ObjectId) :=
  remember _ _ _ (allocate _)

theorem crossOut (site : Site) (value : HostValue) :
    Unaware id key (crossOut site value : ScriptM σ ScriptValue) := by
  cases value with
  | object o => exact (wrap site _).bind fun _ => pure _
  | callable c => exact (wrap site _).bind fun _ => pure _
  | hostClass c => exact (wrap site _).bind fun _ => pure _
  | _ => exact pure _

theorem toHost (policy : Policy) (value : ScriptValue) :
    Unaware id key (toHost policy value : ScriptM σ HostValue) := by
  refine reading (fun w => (note _).bind fun _ => ?_) fun w h' hh => ?_
  · split
    · exact pure _
    · exact throw _
  · simp only [hh.kinds.letIn]

theorem toScript [Naming σ] (site : Site) (value : HostValue) :
    Unaware id key (toScript site value : ScriptM σ ScriptValue) := by
  refine viewing (fun v => (note _).bind fun _ => ?_) fun h h' s hh => ?_
  · split
    · exact throw _
    · exact pure _
    · exact crossOut site value
  · simp only [hh.kinds.className s]

/-! ### Members of a host value -/

theorem handOut (site : Site) (m : Member) :
    Unaware id key (handOut site m : ScriptM σ ScriptValue) :=
  freshAddress.bind fun _ => (wrap site _).bind fun _ => pure _

section Host

variable [Host σ] (hd : Host.Discreet (Heap.SameBut id key) σ)
include hd

theorem hostCall (i : Invocation) : Unaware id key (hostCall i : ScriptM σ HostValue) := by
  have hrun := hd.invocation Heap.SameBut.kinds i
  refine (attempt hrun).bind fun outcome => (note _).bind fun _ => ?_
  cases outcome with
  | ok value => exact pure value
  | error e => exact (allocate _).bind fun _ => throw _

theorem readIndex (host : HostValue) (k : PropertyKey) :
    Unaware id key (host.readIndex k : ScriptM σ HostValue) := by
  refine reading (fun w => ?_) fun _ _ _ => rfl
  cases host.indexReader? w.host.state k with
  | some m => exact hostCall hd _
  | none => exact pure _

theorem getIndexed (site : Site) (host : HostValue) (k : PropertyKey) :
    Unaware id key (getIndexed site host k : ScriptM σ (Option ScriptValue)) := by
  refine (readIndex hd host k).bind fun value => ?_
  split
  · exact pure none
  · exact (toScript site value).bind fun v => pure (some v)

theorem getNamed (asProperty : σ → HostValue → String → Bool) (site : Site) (host : HostValue)
    (k : PropertyKey) : Unaware id key (getNamed asProperty site host k) := by
  refine reading (fun w => ?_) fun _ _ _ => rfl
  dsimp only
  cases host.reader? w.host.state k with
  | some m =>
    dsimp only
    split
    · exact (hostCall hd _).bind fun value => (toScript site value).bind fun v => pure (some v)
    · exact (handOut site m).bind fun f => pure (some f)
  | none =>
    cases host.writer? w.host.state k with
    | some m => exact pure _
    | none => exact getIndexed hd site host k

theorem hasNamed (host : HostValue) (k : PropertyKey) :
    Unaware id key (hasNamed host k : ScriptM σ (Option Bool)) := by
  refine reading (fun w => ?_) fun _ _ _ => rfl
  dsimp only
  split
  · exact pure _
  · refine (readIndex hd host k).bind fun value => ?_
    split <;> exact pure _

theorem putNamed (site : Site) (host : HostValue) (k : PropertyKey) (value : ScriptValue) :
    Unaware id key (putNamed site host k value : ScriptM σ Bool) := by
  refine reading (fun w => ?_) fun _ _ _ => rfl
  dsimp only
  cases host.writer? w.host.state k with
  | some m =>
    exact (toHost _ value).bind fun _ => (hostCall hd _).discard.bind fun _ => pure true
  | none =>
    cases host.indexWriter? w.host.state k with
    | some m =>
      exact (toHost _ value).bind fun _ => (hostCall hd _).discard.bind fun _ => pure true
    | none => exact pure false

omit hd in
theorem refuse (kind : ErrorKind) (host : HostValue) (receiver : ObjectId) (operation : String) :
    Unaware id key (Accessor.refuse kind host receiver operation : ScriptM σ α) :=
  viewing (fun _ => throw _) fun h h' s hh => by
    rw [hh.kinds.className s, hh.kinds.objectClass s]

theorem accessorGet (accessor : Accessor) (site : Site) (host : HostValue) (receiver : ObjectId)
    (k : PropertyKey) : Unaware id key (accessor.get site host receiver k : ScriptM σ _) := by
  cases accessor with
  | standard => exact getNamed hd _ site host k
  | attributes => exact getNamed hd _ site host k
  | transparent => exact pure none
  | deny => exact refuse _ host receiver _

theorem accessorHas (accessor : Accessor) (host : HostValue) (k : PropertyKey) :
    Unaware id key (accessor.has host k : ScriptM σ _) := by
  cases accessor with
  | standard => exact hasNamed hd host k
  | attributes => exact hasNamed hd host k
  | transparent => exact pure none
  | deny => exact pure (some false)

theorem accessorPut (accessor : Accessor) (site : Site) (host : HostValue) (receiver : ObjectId)
    (k : PropertyKey) (value : ScriptValue) :
    Unaware id key (accessor.put site host receiver k value : ScriptM σ _) := by
  cases accessor with
  | standard => exact putNamed hd site host k value
  | attributes => exact putNamed hd site host k value
  | transparent => exact pure false
  | deny =>
    exact viewing (fun _ => refuse _ host receiver _) fun h h' s hh => by
      rw [hh.kinds.render s]

/-! ### Objects -/

/-- An object may be asked for a property, unless it is the wrapper and the property its own. -/
theorem getOwn {x : ObjectId} {k : PropertyKey} (hread : x ≠ id ∨ k ≠ key) :
    Unaware id key (x.getOwn k : ScriptM σ _) := by
  refine reading (fun w => ?_) fun w h' hh => ?_
  · dsimp only
    split
    · exact (accessorGet hd _ _ _ x k).orElseFrom _
    · exact pure _
    · exact pure _
  · dsimp only
    rw [hh.get?_eq hread, hh.kinds x]
    rfl

theorem hasOwn {x : ObjectId} {k : PropertyKey} (hread : x ≠ id ∨ k ≠ key) :
    Unaware id key (x.hasOwn k : ScriptM σ _) := by
  refine reading (fun w => ?_) fun w h' hh => ?_
  · dsimp only
    split
    · split
      · exact pure _
      · exact (accessorHas hd _ _ k).orElseFrom _
    · exact pure _
    · exact pure _
  · dsimp only
    rw [Store.contains, hh.get?_eq hread, ← Store.contains, hh.kinds x]

/-- A property may be read, unless the look-up comes past the wrapper and asks for its property. -/
theorem get? {x : ObjectId} {k : PropertyKey} {w u : World σ} (hu : w.SameBut id key u)
    (hread : id ∈ w.heap.chain x → k ≠ key) :
    World.SameOutcome id key ((x.get? k).on w) ((x.get? k).on u) := by
  obtain ⟨h', hh, rfl⟩ := hu
  have hask : ∀ y ∈ w.heap.chain x, Unaware id key (y.getOwn k : ScriptM σ _) := fun y hy =>
    getOwn hd (Decidable.or_iff_not_imp_left.2 fun hyid =>
      hread (Decidable.not_not.1 hyid ▸ hy))
  rw [ObjectId.get?, on_get_bind, on_get_bind, hh.chain x]
  exact firstAlong hask w _ ⟨h', hh, rfl⟩

theorem has {x : ObjectId} {k : PropertyKey} {w u : World σ} (hu : w.SameBut id key u)
    (hread : id ∈ w.heap.chain x → k ≠ key) :
    World.SameOutcome id key ((x.has k).on w) ((x.has k).on u) := by
  obtain ⟨h', hh, rfl⟩ := hu
  have hask : ∀ y ∈ w.heap.chain x, Unaware id key (y.hasOwn k : ScriptM σ _) := fun y hy =>
    hasOwn hd (Decidable.or_iff_not_imp_left.2 fun hyid =>
      hread (Decidable.not_not.1 hyid ▸ hy))
  rw [ObjectId.has, on_get_bind, on_get_bind, hh.chain x]
  exact ((firstAlong hask).bind fun _ => pure _) w _ ⟨h', hh, rfl⟩

omit [Host σ] hd in
theorem putOwn (x : ObjectId) (k : PropertyKey) (value : ScriptValue) :
    Unaware id key (x.putOwn k value : ScriptM σ Unit) := by
  rintro w _ ⟨h', hh, rfl⟩
  have htakes : ((h'.store x).contains k || (h'.store x).extensible) =
      ((w.heap.store x).contains k || (w.heap.store x).extensible) := by
    by_cases hx : x = id
    · rw [hh.extensible_eq x, hx, hh.extensible, Bool.or_true, Bool.or_true]
    · rw [hh.others x hx]
  rw [on_putOwn, on_putOwn, htakes]
  split
  · exact ⟨rfl, _, hh.define x k value, rfl⟩
  · exact ⟨rfl, h', hh, rfl⟩

theorem put (x : ObjectId) (k : PropertyKey) (value : ScriptValue) :
    Unaware id key (x.put k value : ScriptM σ Unit) := by
  refine reading (fun w => ?_) fun w h' hh => ?_
  · split
    · refine (accessorPut hd _ _ _ x k value).bind fun taken => ?_
      cases taken with
      | true => exact pure ()
      | false => exact putOwn x k value
    · exact putOwn x k value
  · rw [hh.kinds.wrapper? x]
    rfl

omit [Host σ] hd in
theorem setPrototype (x : ObjectId) (link : Option ObjectId) :
    Unaware id key (x.setPrototype link : ScriptM σ Bool) := by
  rintro w _ ⟨h', hh, rfl⟩
  rw [on_setPrototype, on_setPrototype]
  cases link with
  | none => exact ⟨rfl, _, hh.link x none, rfl⟩
  | some y =>
    have hrefuses : (!(h'.store x).extensible || decide (x ∈ h'.chain y)) =
        (!(w.heap.store x).extensible || decide (x ∈ w.heap.chain y)) := by
      rw [hh.extensible_eq x, hh.chain y]
    dsimp only
    rw [hh.prototype x, hrefuses]
    split
    · exact ⟨rfl, h', hh, rfl⟩
    · split
      · exact ⟨rfl, h', hh, rfl⟩
      · exact ⟨rfl, _, hh.link x (some y), rfl⟩

/-! ### Calls -/

theorem calleeCall (callee : Callee) (site : Site) (this : ScriptValue) (args : List ScriptValue) :
    Unaware id key (callee.call site this args : ScriptM σ ScriptValue) := by
  have hreceiver : Unaware id key (callee.receiver site.policy this : ScriptM σ _) := by
    unfold Callee.receiver
    split
    · exact (toHost _ this).map _
    · exact pure none
  refine (mapM (toHost _) _).bind fun hostArgs => hreceiver.bind fun receiver => ?_
  exact (hostCall hd _).bind fun value => toScript site value

theorem call (x : ObjectId) (context : Option ContextId) (realm : Option Realm)
    (this : ScriptValue) (args : List ScriptValue) :
    Unaware id key (x.call context realm this args : ScriptM σ ScriptValue) := by
  refine reading (fun w => ?_) fun w h' hh => ?_
  · split
    · exact calleeCall hd _ _ this args
    · exact viewing (fun _ => throw _) fun h h' s hh => by rw [hh.kinds.objectText s]
  · rw [Heap.callee?, hh.kinds.wrapper? x, ← Heap.callee?]

theorem construct (x : ObjectId) (context : Option ContextId) (realm : Option Realm)
    (args : List ScriptValue) :
    Unaware id key (x.construct context realm args : ScriptM σ ScriptValue) := by
  refine reading (fun w => ?_) fun w h' hh => ?_
  · split
    · exact calleeCall hd _ _ .undefined args
    · exact viewing (fun _ => throw _) fun h h' s hh => by rw [hh.kinds.objectText s]
  · rw [Heap.callee?, hh.kinds.wrapper? x, ← Heap.callee?]

theorem hasInstance (x : ObjectId) (value : ScriptValue) :
    Unaware id key (x.hasInstance value : ScriptM σ Bool) := by
  refine viewing (fun v => ?_) fun h h' s hh => ?_
  · split
    · split
      · exact pure false
      · split
        · exact pure _
        · exact (toHost _ value).bind fun _ => pure _
    · exact throw _
  · have hinstance : ∀ (c : HostClass) (value : HostValue),
        c.isInstance ⟨h', s⟩ value = c.isInstance ⟨h, s⟩ value := by
      intro c value
      unfold HostClass.isInstance
      split
      · rfl
      · exact hd.isInstance h h' s c value hh
    have hwrapped : ObjectId.hasInstance.wrapped? h' value =
        ObjectId.hasInstance.wrapped? h value := by
      cases value with
      | object y => simp only [ObjectId.hasInstance.wrapped?, hh.kinds.wrapper? y]
      | _ => rfl
    dsimp only
    simp only [hh.kinds.wrapper? x, hwrapped, hinstance, hh.kinds.objectText s]

end Host

/-! ### New objects -/

theorem caught (e : ScriptError) (realm : Option Realm) :
    Unaware id key (e.caught realm : ScriptM σ ScriptValue) := by
  cases e with
  | thrown value => exact pure value
  | fault f => exact (allocate _).bind fun _ => pure _
  | reported kind message => exact (allocate _).bind fun _ => pure _

theorem makeRealm : Unaware id key (Realm.make : ScriptM σ Realm) :=
  (allocate _).bind fun _ => (allocate _).bind fun _ => (allocate _).bind fun _ => pure _

end ScriptM.Unaware

/-! ## The same moves in both worlds -/

/-- The move asks nobody for the property, and what the host does of itself is discreet about it. -/
def Move.PassesBy (id : ObjectId) (key : PropertyKey) (w : World σ) : Move σ → Prop
  | .get x k | .has x k => id ∈ w.heap.chain x → k ≠ key
  | .host act => act.Discreet (Heap.SameBut id key)
  | _ => True

/-- One and the same move, which asks nobody for the property, leads from two worlds to two
others. -/
def World.LeadBoth [Host σ] (id : ObjectId) (key : PropertyKey)
    (worlds worlds' : World σ × World σ) : Prop :=
  ∃ m : Move σ, m.Allowed worlds.1 ∧ m.PassesBy id key worlds.1 ∧
    worlds' = (worlds.1.after m, worlds.2.after m)

section Moves

variable [Host σ] {id : ObjectId} {key : PropertyKey} (hd : Host.Discreet (Heap.SameBut id key) σ)
  {w u : World σ}

/-- A move after which two worlds are the same but for the property if they were so before. -/
theorem ScriptM.Unaware.move {m : Move σ} (hm : Unaware id key m.run) (hu : w.SameBut id key u) :
    (w.after m).SameBut id key (u.after m) :=
  (hm w u hu).2

include hd

/-- **A move that asks nobody for a property leaves worlds that are the same but for it.** -/
theorem World.SameBut.after (hu : w.SameBut id key u) {m : Move σ} (hm : m.Allowed w)
    (hpass : m.PassesBy id key w) : (w.after m).SameBut id key (u.after m) := by
  have hheap : ∃ h', w.heap.SameBut id key h' ∧ u = { w with heap := h' } := hu
  cases m with
  | openContext policy | retain c | release c | setInForce accessor =>
    obtain ⟨h', hh, rfl⟩ := hheap
    exact ⟨h', hh, rfl⟩
  | define x k value =>
    obtain ⟨h', hh, rfl⟩ := hheap
    exact ⟨_, hh.define x k value, rfl⟩
  | erase x k =>
    obtain ⟨h', hh, rfl⟩ := hheap
    exact ⟨_, hh.rewrite (f := fun s => s.erase k)
      fun hx => absurd hx (hh.ne_of_isOrdinary hm), rfl⟩
  | preventExtensions x =>
    obtain ⟨h', hh, rfl⟩ := hheap
    exact ⟨_, hh.rewrite (f := Store.preventExtensions)
      fun hx => absurd hx (hh.ne_of_isOrdinary hm), rfl⟩
  | get x k =>
    show World.SameBut id key ((discard (x.get? k)).on w).2 ((discard (x.get? k)).on u).2
    rw [ScriptM.on_discard, ScriptM.on_discard]
    exact (ScriptM.Unaware.get? hd hu hpass).2
  | has x k =>
    show World.SameBut id key ((discard (x.has k)).on w).2 ((discard (x.has k)).on u).2
    rw [ScriptM.on_discard, ScriptM.on_discard]
    exact (ScriptM.Unaware.has hd hu hpass).2
  | memoize context k entry =>
    exact (ScriptM.Unaware.remember context k _ (.pure _)).discard.move hu
  | host act => exact (ScriptM.Unaware.attempt hpass).discard.move hu
  | makeRealm => exact ScriptM.Unaware.makeRealm.discard.move hu
  | ordinary className => exact (ScriptM.Unaware.allocate _).discard.move hu
  | wrapError error => exact (ScriptM.Unaware.allocate _).discard.move hu
  | caught error realm => exact (ScriptM.Unaware.caught error realm).discard.move hu
  | wrap site subject => exact (ScriptM.Unaware.wrap site subject).discard.move hu
  | toScript site value => exact (ScriptM.Unaware.toScript site value).discard.move hu
  | toHost policy value => exact (ScriptM.Unaware.toHost policy value).discard.move hu
  | put x k value => exact (ScriptM.Unaware.put hd x k value).move hu
  | setPrototype x link => exact (ScriptM.Unaware.setPrototype x link).discard.move hu
  | call x context realm this args =>
    exact (ScriptM.Unaware.call hd x context realm this args).discard.move hu
  | construct x context realm args =>
    exact (ScriptM.Unaware.construct hd x context realm args).discard.move hu
  | hasInstance x value => exact (ScriptM.Unaware.hasInstance hd x value).discard.move hu

/-- So does a whole run of such moves. -/
theorem World.SameBut.run (hu : w.SameBut id key u) {w' u' : World σ}
    (h : Relation.ReflTransGen (World.LeadBoth id key) (w, u) (w', u')) : w'.SameBut id key u' := by
  have hrun : ∀ worlds : World σ × World σ,
      Relation.ReflTransGen (World.LeadBoth id key) (w, u) worlds →
      worlds.1.SameBut id key worlds.2 := by
    intro worlds h
    induction h with
    | refl => exact hu
    | tail _ hstep ih =>
      obtain ⟨m, hm, hpass, rfl⟩ := hstep
      exact ih.after hd hm hpass
  exact hrun _ h

end Moves

end Membrane
