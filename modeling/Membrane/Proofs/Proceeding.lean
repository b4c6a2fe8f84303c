import Membrane.Proofs.Chain
import Membrane.Proofs.Border

/-!
# Every operation is made of elementary steps

One lemma for each operation, in the order in which the operations are built on each other:
crossing, access to the members of a host value, look-up along the prototypes, calls. What an
operation needs is that its sites are there (`Site.Stands`) and that its policies are among those of
the terms. An operation on an object needs that of the wrappers it asks, which is `Suits`.
-/

namespace Membrane

variable {σ α β : Type} {t : Terms} {w : World σ}

/-- What the wrapper at a place, if there is one, brings into an operation suits the terms. -/
structure Suits (t : Terms) (w : World σ) (id : ObjectId) : Prop where
  holds : w.heap.Holds id
  policy : ∀ v, w.heap.wrapper? id = some v → t.policy v.policy
  accessor : ∀ v, w.heap.wrapper? id = some v → t.lenient ∨ v.policy.accessor ≠ .deny
  realm : ∀ v r, w.heap.wrapper? id = some v → v.realm = some r → w.heap.HoldsRealm r

theorem Suits.mono {w' : World σ} {id : ObjectId} (h : Suits t w id) (he : w.Extends w') :
    Suits t w' id where
  holds := he.holds id h.holds
  policy v hv := h.policy v (he.wrapper? h.holds ▸ hv)
  accessor v hv := h.accessor v (he.wrapper? h.holds ▸ hv)
  realm v r hv hr := he.holdsRealm (h.realm v r (he.wrapper? h.holds ▸ hv) hr)

/-- A wrapper works at a site that is there: a context that nobody holds any more is left out. -/
theorem Suits.stands {id : ObjectId} (h : Suits t w id) {v : Wrapper}
    (hv : w.heap.wrapper? id = some v) : (v.site w).Stands w where
  alive c hc := by
    obtain ⟨-, halive⟩ := Option.filter_eq_some_iff.1 hc
    exact halive
  realm r hr := h.realm v r hv hr

namespace ScriptM.Proceeds

variable [Host σ]

/-! ## Crossing -/

theorem reading {next : World σ → ScriptM σ β} (h : Proceeds t (next w) w) :
    Proceeds t (MonadState.get >>= next) w := h

theorem viewing {next : View σ → ScriptM σ β} (h : Proceeds t (next w.view) w) :
    Proceeds t (ScriptM.view >>= next) w := h

theorem hostCall (i : Invocation) : Proceeds t (hostCall i) w := by
  unfold Proceeds
  rw [on_hostCall]
  cases h : w.invoke i with
  | mk outcome w' =>
    have hw' : (w.invoke i).2 = w' := by rw [h]
    cases outcome with
    | ok value => exact hw' ▸ .single (.ran i (by rw [h]))
    | error e => exact ⟨w, .refl, hw' ▸ .ran i (by rw [h])⟩

theorem toHost {policy : Policy} (hp : t.policy policy) (value : ScriptValue) :
    Proceeds t (toHost policy value) w := by
  unfold Proceeds
  rw [on_toHost]
  cases h : policy.converter.letIn w.heap value with
  | ok hostValue => exact .single (.incoming policy value hp h)
  | error e => exact ⟨w, .refl, .incoming policy value hp h⟩

theorem wrap {site : Site} (hs : site.Stands w) (subject : Subject) :
    Proceeds t (wrap site subject) w := by
  unfold Proceeds
  rw [on_wrap]
  cases h : w.wrapper? site subject with
  | some id => exact .single (.recalled site subject hs h)
  | none => exact .single (.wrapped site subject hs h)

theorem crossOut {site : Site} (hs : site.Stands w) (value : HostValue) :
    Proceeds t (crossOut site value) w := by
  cases value with
  | object o => exact (wrap hs _).bind fun id w' _ _ => pure _
  | callable c => exact (wrap hs _).bind fun id w' _ _ => pure _
  | hostClass c => exact (wrap hs _).bind fun id w' _ _ => pure _
  | _ => exact pure _

theorem toScript {site : Site} (hs : site.Stands w) (hp : t.policy site.policy)
    (value : HostValue) : Proceeds t (toScript site value) w := by
  unfold Proceeds
  rw [on_toScript]
  cases h : site.policy.converter.outgoing (w.view.className value) value with
  | error e => exact ⟨w, .refl, .outgoing site.policy value hp h⟩
  | ok decision =>
    have hstep : Border t w (w.note (.outgoing value (.ok decision))) :=
      .outgoing site.policy value hp h
    cases decision with
    | some replacement => exact .single hstep
    | none => exact Follows.trans (.single hstep) (crossOut (hs.mono hstep.widens) value)

/-! ## Members of a host value -/

section Members

variable {site : Site} (hs : site.Stands w) (hp : t.policy site.policy)
include hs

theorem handOut (m : Member) : Proceeds t (handOut site m) w := by
  have hfresh : Border t w { w with host := w.host.fresh.2 } := .address
  have haddress : Proceeds t ScriptM.freshAddress w := .single hfresh
  refine haddress.bind fun address w' _ hw' => ?_
  exact (wrap (hs.mono hw'.widens) _).bind fun id w'' _ _ => pure _

omit hs in
theorem readIndex (host : HostValue) (key : PropertyKey) :
    Proceeds t (host.readIndex key) w := by
  unfold HostValue.readIndex
  refine reading ?_
  cases host.indexReader? w.host.state key with
  | some reader => exact hostCall _
  | none => exact pure _

include hp

theorem getIndexed (host : HostValue) (key : PropertyKey) :
    Proceeds t (getIndexed site host key) w := by
  refine (readIndex host key).bind fun value w' _ hw' => ?_
  cases value.isNil with
  | true => exact pure none
  | false => exact (toScript (hs.mono hw'.widens) hp value).bind fun v w'' _ _ => pure (some v)

theorem getNamed (asProperty : σ → HostValue → String → Bool) (host : HostValue)
    (key : PropertyKey) : Proceeds t (getNamed asProperty site host key) w := by
  unfold Membrane.getNamed
  refine reading ?_
  dsimp only
  cases host.reader? w.host.state key with
  | some m =>
    dsimp only
    split
    · refine (hostCall _).bind fun value w₁ _ hw₁ => ?_
      exact (toScript (hs.mono hw₁.widens) hp value).bind fun r w₂ _ _ => pure (some r)
    · exact (handOut hs m).bind fun r w₁ _ _ => pure (some r)
  | none =>
    cases host.writer? w.host.state key with
    | some m => exact pure _
    | none => exact getIndexed hs hp host key

omit hs hp in
theorem hasNamed (host : HostValue) (key : PropertyKey) : Proceeds t (hasNamed host key) w := by
  unfold Membrane.hasNamed
  refine reading ?_
  dsimp only
  split
  · exact pure _
  · refine (readIndex host key).bind fun value w₁ _ _ => ?_
    split <;> exact pure _

omit hs in
theorem putNamed (host : HostValue) (key : PropertyKey) (value : ScriptValue) :
    Proceeds t (putNamed site host key value) w := by
  unfold Membrane.putNamed
  refine reading ?_
  dsimp only
  split
  case h_1 | h_2 =>
    refine (toHost hp value).bind fun hostValue w₁ _ _ => ?_
    exact ((hostCall _).map _).bind fun _ w₂ _ _ => pure true
  case h_3 => exact pure false

/-! ## The strategies -/

variable {accessor : Accessor} (ha : t.lenient ∨ accessor ≠ .deny)
include ha

theorem get (host : HostValue) (receiver : ObjectId) (key : PropertyKey) :
    Proceeds t (accessor.get site host receiver key) w := by
  cases accessor with
  | standard => exact getNamed hs hp (fun _ _ _ => true) host key
  | attributes => exact getNamed hs hp (fun s value name => value.isAttribute s name) host key
  | transparent => exact pure none
  | deny =>
    refine viewing ?_
    exact throw (ha.resolve_right fun h => h rfl) _

omit hs hp ha in
theorem has (accessor : Accessor) (host : HostValue) (key : PropertyKey) :
    Proceeds t (accessor.has host key) w := by
  cases accessor with
  | standard => exact hasNamed host key
  | attributes => exact hasNamed host key
  | transparent => exact pure none
  | deny => exact pure (some false)

omit hs in
theorem put (host : HostValue) (receiver : ObjectId) (key : PropertyKey) (value : ScriptValue) :
    Proceeds t (accessor.put site host receiver key value) w := by
  cases accessor with
  | standard => exact putNamed hp host key value
  | attributes => exact putNamed hp host key value
  | transparent => exact pure false
  | deny =>
    refine viewing ?_
    refine viewing ?_
    exact throw (ha.resolve_right fun h => h rfl) _

end Members

/-! ## Look-up along the prototypes -/

section LookUp

theorem getOwn {id : ObjectId} (hs : Suits t w id) (key : PropertyKey) :
    Proceeds t (id.getOwn key) w := by
  unfold ObjectId.getOwn
  refine reading ?_
  split
  case h_1 u hu =>
    have hu := Heap.wrapper?_eq_some.2 hu
    exact (get (hs.stands hu) (hs.policy u hu) (hs.accessor u hu) _ id key).orElseFrom _
  case h_2 => exact pure _
  case h_3 => exact pure _

/-- If every object of a list is asked in elementary steps, so are all of them in turn. -/
theorem firstAlong {ask : ObjectId → ScriptM σ (Option α)} (ids : List ObjectId)
    (hs : ∀ id ∈ ids, ∀ w', w.Extends w' → Proceeds t (ask id) w') :
    Proceeds t (firstAlong ask ids) w := by
  induction ids generalizing w with
  | nil => exact pure none
  | cons id rest ih =>
    refine (hs id List.mem_cons_self w (.refl w)).bind fun answer w₁ _ hw₁ => ?_
    cases answer with
    | some a => exact pure (some a)
    | none =>
      exact ih fun x hx w' hw' => hs x (List.mem_cons_of_mem _ hx) w' (hw₁.widens.trans hw')

theorem get? {id : ObjectId} (hs : ∀ x ∈ w.heap.chain id, Suits t w x) (key : PropertyKey) :
    Proceeds t (id.get? key) w :=
  reading (firstAlong _ fun x hx _ hw' => getOwn ((hs x hx).mono hw') key)

theorem hasOwn (id : ObjectId) (key : PropertyKey) : Proceeds t (id.hasOwn key) w := by
  unfold ObjectId.hasOwn
  refine reading ?_
  dsimp only
  rcases w.heap.kind? id with _ | (_ | u | e)
  · exact pure _
  · exact pure _
  · dsimp only
    split
    · exact pure (some true)
    · exact (has u.policy.accessor _ key).orElseFrom _
  · exact pure _

theorem has? (id : ObjectId) (key : PropertyKey) : Proceeds t (id.has key) w :=
  reading ((firstAlong _ fun x _ _ _ => hasOwn x key).bind fun _ _ _ _ => pure _)

end LookUp

/-! ## Calls -/

section Calls

theorem receiver {policy : Policy} (hp : t.policy policy) (callee : Callee) (this : ScriptValue) :
    Proceeds t (callee.receiver policy this) w := by
  unfold Callee.receiver
  split
  · exact (toHost hp this).map _
  · exact pure none

theorem calleeCall {site : Site} (hs : site.Stands w) (hp : t.policy site.policy)
    (callee : Callee) (this : ScriptValue) (args : List ScriptValue) :
    Proceeds t (callee.call site this args) w := by
  unfold Callee.call
  refine (mapM _ (fun value w' => toHost hp value) w).bind fun hostArgs w₁ _ hw₁ => ?_
  refine (receiver hp callee this).bind fun receiver w₂ _ hw₂ => ?_
  refine (hostCall _).bind fun value w₃ _ hw₃ => ?_
  exact toScript (((hs.mono hw₁.widens).mono hw₂.widens).mono hw₃.widens) hp value

variable {id : ObjectId} {context : Option ContextId} {realm : Option Realm}

omit [Host σ] in
/-- The callee behind an object is to be called at a site that is there. -/
theorem callee_stands (hs : Suits t w id) (hcaller : w.Serves context realm) {callee : Callee}
    {site : Site} (hc : w.heap.callee? id context realm = some (callee, site)) :
    site.Stands w ∧ t.policy site.policy := by
  obtain ⟨v, hv, hsite⟩ := Option.bind_eq_some_iff.1 hc
  obtain ⟨_, -, heq⟩ := Option.map_eq_some_iff.1 hsite
  cases heq
  refine ⟨⟨hcaller.alive, fun r hr => ?_⟩, hs.policy v hv⟩
  rcases Option.or_eq_some_iff.1 hr with hr | ⟨-, hr⟩
  · exact hcaller.realm r hr
  · exact hs.realm v r hv hr

theorem call (hs : Suits t w id) (hcaller : w.Serves context realm)
    (hc : t.lenient ∨ (w.heap.callee? id context realm).isSome) (this : ScriptValue)
    (args : List ScriptValue) : Proceeds t (id.call context realm this args) w := by
  refine reading ?_
  cases h : w.heap.callee? id context realm with
  | some found =>
    obtain ⟨hsite, hp⟩ := callee_stands hs hcaller h
    exact calleeCall hsite hp found.1 this args
  | none =>
    rw [h] at hc
    exact throw (hc.resolve_right Bool.false_ne_true) _

theorem construct (hs : Suits t w id) (hcaller : w.Serves context realm)
    (hc : t.lenient ∨ ∃ c site, w.heap.callee? id context realm = some (.hostClass c, site))
    (args : List ScriptValue) : Proceeds t (id.construct context realm args) w := by
  refine reading ?_
  match h : w.heap.callee? id context realm with
  | some (.hostClass c, site) =>
    obtain ⟨hsite, hp⟩ := callee_stands hs hcaller h
    exact calleeCall hsite hp _ _ args
  | some (.callable c, site) =>
    refine throw (hc.resolve_right ?_) _
    rintro ⟨c', site', hfound⟩
    rw [h] at hfound
    cases hfound
  | none =>
    refine throw (hc.resolve_right ?_) _
    rintro ⟨c', site', hfound⟩
    rw [h] at hfound
    cases hfound

theorem hasInstance (hs : Suits t w id) (hl : t.lenient) (value : ScriptValue) :
    Proceeds t (id.hasInstance value) w := by
  refine viewing ?_
  split
  case h_1 c policy _ _ hv =>
    split
    · exact pure false
    · split
      · exact pure _
      · exact (toHost (hs.policy _ hv) value).bind fun _ _ _ _ => pure _
  case h_2 => exact throw hl _

end Calls

end ScriptM.Proceeds

end Membrane
