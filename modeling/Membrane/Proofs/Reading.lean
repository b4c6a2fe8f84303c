import Membrane.Proofs.Agreement
import Membrane.Proofs.Method

/-!
# What a read comes to

A strategy that asks the members of a host value runs the one of the name, or hands it out as a
function. Where the host value has neither a member nor index access for a key, the strategy leaves
it to the wrapper, which answers with what every wrapper of its kind has.
-/

namespace Membrane

variable {σ : Type} [Host σ] {w : World σ}

/-! ## Members that are run -/

/-- Which members a strategy runs when they are read. The others it hands out. -/
def Accessor.RunsMember (accessor : Accessor) (s : σ) (host : HostValue) (name : String)
    (m : Member) : Prop :=
  match accessor with
  | .standard => m.arity = .exactly 0
  | .attributes => m.arity = .exactly 0 ∧ host.isAttribute s name = true
  | .transparent | .deny => False

/-- A strategy that runs a member lets its answer cross. -/
theorem on_accessor_get_of_runs {accessor : Accessor} {host : HostValue} {key : PropertyKey}
    {name : String} {m : Member} (site : Site) (receiver : ObjectId)
    (hkey : key.memberName? = some name) (hm : host.member? w.host.state name = some m)
    (hruns : accessor.RunsMember w.host.state host name m) :
    (accessor.get site host receiver key).on w =
      (some <$> (ScriptM.hostCall (.member host m []) >>= toScript site)).on w := by
  have hnamed : ∀ asProperty : σ → HostValue → String → Bool,
      m.arity = .exactly 0 → asProperty w.host.state host name = true →
      (getNamed asProperty site host key).on w =
        (some <$> (ScriptM.hostCall (.member host m []) >>= toScript site)).on w := by
    intro asProperty harity hproperty
    rw [on_getNamed_of_member asProperty site hkey hm, decide_eq_true harity, hproperty,
      Bool.and_self, if_pos rfl]
  cases accessor with
  | standard => exact hnamed (fun _ _ _ => true) hruns rfl
  | attributes => exact hnamed (fun s value name => value.isAttribute s name) hruns.1 hruns.2
  | transparent => exact hruns.elim
  | deny => exact hruns.elim

/-! ## Members that are handed out -/

omit [Host σ] in
/-- A member that is handed out becomes a function: the wrapper of its method, or the one that the
context of the site remembers under the rendering of the method. No host code is run for it. -/
theorem World.Typed.handOut_cases (h : w.Typed) (site : Site) (m : Member) :
    ∃ (f : ObjectId) (w₁ : World σ) (u : Wrapper) (c : HostCallable),
      (handOut site m).on w = (.ok (.object f), w₁) ∧ w₁.host = w.host.fresh.2 ∧
      w₁.runs = w.runs ∧ w₁.heap.wrapper? f = some u ∧ u.subject = .function c ∧
      (u.policy = site.policy ∧ c = .unbound (m.method w.host.next) ∨
        w.heap.wrapper? f = some u ∧ ∃ context, site.context = some context ∧
          (w.cache context).get? (.callable (m.method w.host.next).render) =
            some ⟨.wrapper .function, f⟩) := by
  have htyped : World.Typed { w with host := w.host.fresh.2 } := h
  obtain ⟨f, w₁, u, hwrap, hhost, hu, hkind, hcases⟩ :=
    htyped.wrap_cases site (.function (.unbound (m.method w.host.next)))
  -- the address for the method is taken before the wrapper is asked for
  have hruns := runs_wrap site (.function (.unbound (m.method w.host.next)))
    { w with host := w.host.fresh.2 }
  rw [hwrap] at hruns
  obtain ⟨c, hc⟩ := Subject.exists_function hkind
  refine ⟨f, w₁, u, c, on_handOut hwrap, hhost, hruns, hu, hc, ?_⟩
  rcases hcases with rfl | hremembered
  · cases hc
    exact .inl ⟨rfl, rfl⟩
  · exact .inr hremembered

/-! ## Keys that are left to the wrapper -/

/-- The strategy asks the members of the host value. -/
def Accessor.AsksMembers (accessor : Accessor) : Prop :=
  accessor = .standard ∨ accessor = .attributes

/-- A host value has neither a member nor index access for a key. -/
structure HostValue.IsSilent (s : σ) (host : HostValue) (key : PropertyKey) : Prop where
  reader : host.reader? s key = none
  writer : host.writer? s key = none
  indexReader : host.indexReader? s key = none

theorem HostValue.IsSilent.on_readIndex {host : HostValue} {key : PropertyKey}
    (h : host.IsSilent w.host.state key) : (host.readIndex key).on w = (.ok .nil, w) := by
  rw [readIndex, ScriptM.on_get_bind, h.indexReader]
  rfl

theorem on_accessor_get_of_silent {accessor : Accessor} (haccess : accessor.AsksMembers)
    {host : HostValue} {key : PropertyKey} (h : host.IsSilent w.host.state key) (site : Site)
    (receiver : ObjectId) : (accessor.get site host receiver key).on w = (.ok none, w) := by
  have hnamed : ∀ asProperty : σ → HostValue → String → Bool,
      (getNamed asProperty site host key).on w = (.ok none, w) := by
    intro asProperty
    rw [getNamed, ScriptM.on_get_bind]
    dsimp only
    rw [h.reader, h.writer]
    exact ScriptM.on_bind_of_ok h.on_readIndex _
  rcases haccess with rfl | rfl
  · exact hnamed fun _ _ _ => true
  · exact hnamed fun s value name => value.isAttribute s name

theorem on_accessor_has_of_silent {accessor : Accessor} (haccess : accessor.AsksMembers)
    {host : HostValue} {key : PropertyKey} (h : host.IsSilent w.host.state key) :
    (accessor.has host key).on w = (.ok none, w) := by
  have hnamed : (hasNamed host key).on w = (.ok none, w) := by
    rw [hasNamed, ScriptM.on_get_bind]
    dsimp only
    rw [h.reader, h.writer]
    exact ScriptM.on_bind_of_ok h.on_readIndex _
  rcases haccess with rfl | rfl
  · exact hnamed
  · exact hnamed

/-! ## One object -/

variable {id : ObjectId} {v : Wrapper} {key : PropertyKey}

omit [Host σ] in
/-- Only what can be called has something of its kind, and that under two keys. -/
theorem Subject.intrinsic?_eq_none {subject : Subject}
    (h : subject.kind ≠ .object → key ≠ .name "length" ∧ key ≠ .name "name") :
    subject.intrinsic? key = none := by
  have hcallable : key ≠ .name "length" ∧ key ≠ .name "name" →
      ∀ arity name, intrinsic?.callable key arity name = none := by
    rintro ⟨hlength, hname⟩ arity name
    unfold intrinsic?.callable
    split
    · exact absurd rfl hlength
    · exact absurd rfl hname
    · rfl
  cases subject with
  | object o => rfl
  | function c => exact hcallable (h nofun) ..
  | constructor c => exact hcallable (h nofun) ..

theorem on_getOwn_of_wrapper (hv : w.heap.wrapper? id = some v) (key : PropertyKey) :
    (id.getOwn key).on w =
      (orElseFrom (v.policy.accessor.get (v.site w) v.subject.value id key)
        ((v.subject.intrinsic? key).or ((w.heap.store id).get? key))).on w := by
  rw [ObjectId.getOwn, ScriptM.on_get_bind]
  dsimp only
  rw [Heap.wrapper?_eq_some.1 hv]

/-- An object that is no wrapper is read as it is, and no host code is run for it. -/
theorem on_getOwn_of_not_wrapper (hv : w.heap.wrapper? id = none) (key : PropertyKey) :
    (id.getOwn key).on w =
      (.ok (((w.heap.store id).get? key).or ((w.heap.hostError? id).bind (·.intrinsic? key))), w)
    := by
  rw [ObjectId.getOwn, ScriptM.on_get_bind, Heap.hostError?]
  rcases hkind : w.heap.kind? id with _ | (className | v | e)
  · rw [Option.bind_none, Option.or_none]
    rfl
  · rw [Option.bind_none, Option.or_none]
    rfl
  · cases (Heap.wrapper?_eq_some.2 hkind).symm.trans hv
  · rfl

/-- Whether an own part has a property, as a search in it answers. -/
def Store.decides (s : Store) (key : PropertyKey) : Option Bool :=
  if s.contains key then some true else none

theorem on_hasOwn_of_wrapper (hv : w.heap.wrapper? id = some v) (key : PropertyKey) :
    (id.hasOwn key).on w = if (v.subject.intrinsic? key).isSome then (.ok (some true), w)
      else (orElseFrom (v.policy.accessor.has v.subject.value key)
        ((w.heap.store id).decides key)).on w := by
  rw [ObjectId.hasOwn, ScriptM.on_get_bind]
  dsimp only
  rw [Heap.wrapper?_eq_some.1 hv]
  dsimp only
  split <;> rfl

/-- An object that is no wrapper is searched as it is, and no host code is run for it. -/
theorem on_hasOwn_of_not_wrapper (hv : w.heap.wrapper? id = none) (key : PropertyKey) :
    (id.hasOwn key).on w =
      (.ok (if ((w.heap.hostError? id).bind (·.intrinsic? key)).isSome then some true
        else (w.heap.store id).decides key), w) := by
  rw [ObjectId.hasOwn, ScriptM.on_get_bind, Heap.hostError?]
  rcases hkind : w.heap.kind? id with _ | (className | v | e)
  · rfl
  · rfl
  · cases (Heap.wrapper?_eq_some.2 hkind).symm.trans hv
  · rfl

/-- What the strategy of a wrapper does not leave to it is what reading the wrapper comes to. -/
theorem on_get?_of_accessor_ne (hv : w.heap.wrapper? id = some v)
    (h : ((v.policy.accessor.get (v.site w) v.subject.value id key).on w).1 ≠ .ok none) :
    (id.get? key).on w = (v.policy.accessor.get (v.site w) v.subject.value id key).on w := by
  have hown := (on_getOwn_of_wrapper hv key).trans (on_orElseFrom_of_ne h _)
  rw [ObjectId.get?, ScriptM.on_get_bind, Heap.chain_eq_cons (Heap.holds_of_wrapper? hv),
    on_firstAlong_of_ne (hown ▸ h), hown]

/-- What the strategy leaves to the wrapper is read from what every wrapper of its kind has. -/
theorem on_get?_of_intrinsic (hv : w.heap.wrapper? id = some v) {w' : World σ}
    (h : (v.policy.accessor.get (v.site w) v.subject.value id key).on w = (.ok none, w'))
    {value : ScriptValue} (hvalue : v.subject.intrinsic? key = some value) :
    (id.get? key).on w = (.ok (some value), w') := by
  refine on_get?_of_own (Heap.holds_of_wrapper? hv) ?_
  rw [on_getOwn_of_wrapper hv, on_orElseFrom_of_none h, hvalue, Option.some_or]

/-- What an object decides itself is what searching it comes to. -/
theorem on_has_of_own (hid : w.heap.Holds id) {found : Bool} {w' : World σ}
    (h : (id.hasOwn key).on w = (.ok (some found), w')) : (id.has key).on w = (.ok found, w') := by
  have hfirst : (firstAlong (·.hasOwn key) (w.heap.chain id)).on w = (.ok (some found), w') := by
    rw [Heap.chain_eq_cons hid, on_firstAlong_of_ne (h ▸ nofun), h]
  exact on_has hfirst

/-- A search finds what every wrapper of the kind has, and asks nobody. -/
theorem on_has_of_intrinsic (hv : w.heap.wrapper? id = some v) {value : ScriptValue}
    (hvalue : v.subject.intrinsic? key = some value) : (id.has key).on w = (.ok true, w) := by
  refine on_has_of_own (Heap.holds_of_wrapper? hv) ?_
  rw [on_hasOwn_of_wrapper hv, hvalue]
  rfl

end Membrane
