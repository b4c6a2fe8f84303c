import Membrane.Catalog.Running
import Membrane.Proofs.Reading

/-!
# The length and the name of what can be called

Several layers answer to the two keys. The strategy comes first in a read. No callable has a member
`length`, so that this key is left to the wrapper, which answers before its own properties do. But
every class has a reflective member `name`, and so has every callable with a name: what a read comes
to is then up to the strategy and the converter. A search asks the wrapper first and ends there.
-/

namespace Membrane

variable {σ : Type}

/-! ## What the wrapper answers -/

/-- The arity and the declared name of what can be called. -/
def Subject.signature? : Subject → Option (Arity × Option String)
  | .object _ => none
  | .function c => some (c.arity, c.name?)
  | .constructor c => some (c.arity, some c.name)

/-- What can be called has a length and a name, which its signature tells. -/
theorem Subject.intrinsic?_eq {subject : Subject} {arity : Arity} {declared : Option String}
    (h : subject.signature? = some (arity, declared)) (key : PropertyKey) :
    subject.intrinsic? key = intrinsic?.callable key arity (declared.getD "") := by
  cases subject with
  | object o => cases h
  | function c =>
    cases h
    rfl
  | constructor c =>
    cases h
    rfl

/-- The count of required parameters is an integer of script code. -/
theorem Arity.toInt_required (a : Arity) : (Int64.ofNat a.required).toInt = a.required := by
  refine Int64.toInt_ofNat_of_lt ?_
  have hword := a.word.toInt_lt
  have habs := (a.word + 1).abs.toInt_lt
  unfold required
  split <;> omega

/-! ## What the strategy leaves to the wrapper -/

variable [Host σ]

/-- A class has no static member of a name, neither to read nor to write, and no static index
reader. -/
structure HostClass.LacksStatic (s : σ) (c : HostClass) (name : String) : Prop where
  reader : c.static? s name = none
  writer : c.static? s (writerName name) = none
  index : ∀ m, c.static? s "[]" = some m → m.arity ≠ .exactly 1

omit [Host σ] in
theorem memberName?_name : PropertyKey.memberName? (.name "name") = some "name" := by decide

/-- A class leaves the key `length` to its wrapper if it has nothing of its own for it. -/
theorem HostClass.LacksStatic.isSilent_length {s : σ} {c : HostClass}
    (h : c.LacksStatic s "length") : (HostValue.hostClass c).IsSilent s (.name "length") := by
  constructor
  · exact h.reader
  · exact h.writer
  · rw [HostValue.indexReader?, if_neg (by decide), HostValue.memberOf?, Option.filter_eq_none_iff]
    intro m hm
    have := h.index m hm
    simpa using this

variable {subject : Subject} {arity : Arity} {s : σ}

/-- No callable has a member `length` or index access, and so it is for most classes. -/
theorem Subject.isSilent_length {declared : Option String}
    (h : subject.signature? = some (arity, declared))
    (hstatic : ∀ c, subject = .constructor c → c.LacksStatic s "length") :
    subject.value.IsSilent s (.name "length") := by
  cases subject with
  | object o => cases h
  | function c => exact ⟨rfl, rfl, rfl⟩
  | constructor c => exact (hstatic c rfl).isSilent_length

/-- An anonymous callable has no member `name` either. -/
theorem Subject.isSilent_name (h : subject.signature? = some (arity, none)) :
    subject.value.IsSilent s (.name "name") := by
  cases subject with
  | object o => cases h
  | function c =>
    have hname : c.name? = none := congrArg Prod.snd (Option.some.inj h)
    refine ⟨?_, rfl, rfl⟩
    show (if c.name?.isSome then _ else none) = none
    rw [hname]
    rfl
  | constructor c => cases h

/-! ## The reflective name -/

/-- The name of a callable or a class can be asked for through a member without parameters. Running
it does nothing else. -/
theorem Subject.exists_nameMember {text : String}
    (h : subject.signature? = some (arity, some text)) (s : σ) :
    ∃ m, subject.value.member? s "name" = some m ∧ m.arity = .exactly 0 ∧
      (subject.value.perform m [] : HostM σ HostValue) = pure (.str text) := by
  cases subject with
  | object o => cases h
  | function c =>
    have hname : c.name? = some text := congrArg Prod.snd (Option.some.inj h)
    refine ⟨Reflector.callableName.member, ?_, rfl, ?_⟩
    · show (if c.name?.isSome then _ else none) = _
      rw [hname]
      rfl
    · have hother : Reflector.callableName.member.body ≠ .reflector .callableCall := nofun
      rw [HostValue.perform, Subject.value, HostValue.performWith, if_neg hother]
      show pure ((c.name?.map HostValue.str).getD .nil) = _
      rw [hname]
      rfl
  | constructor c =>
    cases h
    refine ⟨Reflector.className.member, rfl, rfl, ?_⟩
    rw [HostValue.perform, Subject.value, HostValue.performWith.eq_def]
    rfl

/-- What a text becomes that crosses to script code. -/
def Converter.textOut (converter : Converter) (text : String) : Except ScriptError ScriptValue :=
  (converter.outgoing "String" (.str text)).map (·.getD (.string text))

omit [Host σ] in
theorem on_toScript_text [Naming σ] (site : Site) (text : String) (w : World σ) :
    ∃ w', (toScript site (.str text)).on w = (site.policy.converter.textOut text, w') ∧
      w.Alike w' := by
  have hclass : w.view.className (.str text) = "String" := rfl
  rw [on_toScript, hclass, Converter.textOut]
  match site.policy.converter.outgoing "String" (.str text) with
  | .error e => exact ⟨_, rfl, w.alike_note rfl⟩
  | .ok (some replacement) => exact ⟨_, rfl, w.alike_note rfl⟩
  | .ok none => exact ⟨_, rfl, w.alike_note rfl⟩

variable {w : World σ} {id : ObjectId} {v : Wrapper} {text : String}

/-- Where the strategy runs the reflective member, reading the name lets the text of the name
cross. -/
theorem on_get?_name_of_runs (hv : w.heap.wrapper? id = some v)
    (hsignature : v.subject.signature? = some (arity, some text))
    (hruns : ∀ m, m.arity = .exactly 0 →
      v.policy.accessor.RunsMember w.host.state v.subject.value "name" m) :
    ∃ w', (id.get? (.name "name")).on w = ((v.policy.converter.textOut text).map some, w') ∧
      w'.heap = w.heap ∧ w'.contexts = w.contexts ∧ w'.host = w.host := by
  obtain ⟨m, hm, harity, hperform⟩ :=
    Subject.exists_nameMember (σ := σ) hsignature w.host.state
  let i : Invocation := .member v.subject.value m []
  let w₁ : World σ := w.note (.ran i (.ok (.str text)))
  have hrun : (ScriptM.hostCall i).on w = (.ok (.str text), w₁) := by
    have hinvoke : w.invoke i = (.ok (.str text), w₁) := by
      rw [World.invoke, Invocation.run, hperform]
      rfl
    rw [ScriptM.on_hostCall, hinvoke]
  obtain ⟨w', hcross, hw'⟩ := on_toScript_text (v.site w) text w₁
  have hget : (v.policy.accessor.get (v.site w) v.subject.value id (.name "name")).on w =
      ((v.policy.converter.textOut text).map some, w') := by
    rw [on_accessor_get_of_runs (v.site w) id memberName?_name hm (hruns m harity),
      ScriptM.on_map_eq, ScriptM.on_bind_of_ok hrun, hcross]
    rfl
  have hne : (v.policy.converter.textOut text).map some ≠ .ok none := by
    intro h
    cases hout : v.policy.converter.textOut text <;> rw [hout] at h <;> cases h
  refine ⟨w', ?_, hw'.heap, hw'.contexts, hw'.host⟩
  rw [on_get?_of_accessor_ne hv (hget ▸ hne), hget]

/-- Where the strategy does not run the reflective member, the name is read as a function. -/
theorem on_get?_name_of_handsOut (htyped : w.Typed) (hv : w.heap.wrapper? id = some v)
    (hsignature : v.subject.signature? = some (arity, some text))
    (hout : ∀ m, m.arity = .exactly 0 →
      v.policy.accessor.HandsOut w.host.state v.subject.value "name" m) :
    ∃ f w', (id.get? (.name "name")).on w = (.ok (some (.object f)), w') ∧ w'.runs = w.runs ∧
      w'.heap.isCallable f = true := by
  obtain ⟨m, hm, harity, -⟩ := Subject.exists_nameMember (σ := σ) hsignature w.host.state
  obtain ⟨f, w', u, c, hhanded, -, hruns, hu, hc, -⟩ := htyped.handOut_cases (v.site w) m
  refine ⟨f, w', ?_, hruns, ?_⟩
  · exact on_get?_of_accessor hv
      (on_accessor_get id memberName?_name hm (hout m harity) hhanded)
  · rw [Heap.isCallable, hu]
    dsimp only
    rw [hc]

/-! ## Both keys -/

/-- **What the length and the name of a function or class are.** Take the wrapper of a callable, or
of a class without static members or a static index reader for the key `length`, whose strategy asks
the members, in any reachable world. Both keys are found, and the length is the number of required
parameters, read without any host code. The name of a callable without one is the empty text. The
name of any other callable and of a class crosses like a text of the host if the strategy reads every
member without parameters as a property, or if the class has a static writer `name=`; otherwise the
name reads as a function, and no host code is run. Own properties never count. -/
theorem World.Reachable.intrinsics (hw : w.Reachable) (hv : w.heap.wrapper? id = some v)
    {declared : Option String} (hsignature : v.subject.signature? = some (arity, declared))
    (hstatic : ∀ c, v.subject = .constructor c → c.LacksStatic w.host.state "length")
    (haccess : v.policy.accessor.AsksMembers) :
    (id.has (.name "length")).on w = (.ok true, w) ∧
    (id.has (.name "name")).on w = (.ok true, w) ∧
    (∃ n : Int64, n.toInt = arity.required ∧
      (id.get? (.name "length")).on w = (.ok (some (.number (.integer n))), w)) ∧
    (declared = none → (id.get? (.name "name")).on w = (.ok (some (.string "")), w)) ∧
    ∀ text, declared = some text →
      (v.policy.accessor = .standard ∨
          v.subject.value.isAttribute w.host.state "name" = true →
        ∃ w', (id.get? (.name "name")).on w = ((v.policy.converter.textOut text).map some, w') ∧
          w'.heap = w.heap ∧ w'.contexts = w.contexts ∧ w'.host = w.host) ∧
      (v.policy.accessor = .attributes →
          v.subject.value.isAttribute w.host.state "name" = false →
        ∃ f w', (id.get? (.name "name")).on w = (.ok (some (.object f)), w') ∧
          w'.runs = w.runs ∧ w'.heap.isCallable f = true) := by
  have hlength : v.subject.intrinsic? (.name "length") =
      some (.number (.integer (Int64.ofNat arity.required))) :=
    Subject.intrinsic?_eq hsignature (.name "length")
  have hname : v.subject.intrinsic? (.name "name") = some (.string (declared.getD "")) :=
    Subject.intrinsic?_eq hsignature (.name "name")
  refine ⟨on_has_of_intrinsic hv hlength, on_has_of_intrinsic hv hname, ?_, ?_, ?_⟩
  · have hsilent := Subject.isSilent_length hsignature hstatic
    have hleft := on_accessor_get_of_silent haccess hsilent (v.site w) id
    exact ⟨_, arity.toInt_required, on_get?_of_intrinsic hv hleft hlength⟩
  · rintro rfl
    have hsilent := Subject.isSilent_name (s := w.host.state) hsignature
    have hleft := on_accessor_get_of_silent haccess hsilent (v.site w) id
    exact on_get?_of_intrinsic hv hleft hname
  · rintro text rfl
    refine ⟨fun hproperty => on_get?_name_of_runs hv hsignature fun m harity => ?_,
      fun hattributes hno => on_get?_name_of_handsOut hw.typed hv hsignature fun m _ => ?_⟩
    · rcases haccess with hstandard | hattributes
      · rw [hstandard]
        exact harity
      · rw [hattributes]
        refine ⟨harity, hproperty.resolve_left ?_⟩
        rw [hattributes]
        exact nofun
    · rw [hattributes]
      exact .inr hno

namespace Catalog

/-- The wrapper of a function of two parameters, made under some policy. -/
def withNamed (accessor : Accessor) (converter : Converter) : World Catalog :=
  (World.initial ⟨8, { definitions := #[⟨some "pair", .function .argumentCount⟩] }⟩
    .standard).after
    (.wrap ⟨⟨{}, accessor, converter⟩, none, none⟩
      (.function (.free ⟨7, some "pair", .exactly 2, ⟨0⟩⟩)))

theorem withNamed_reachable (accessor : Accessor) (converter : Converter) :
    (withNamed accessor converter).Reachable :=
  (World.initial_reachable _ _).reachable.after (World.serves_none _)

theorem wrapper?_withNamed (accessor : Accessor) (converter : Converter) :
    (withNamed accessor converter).heap.wrapper? ⟨0⟩ =
      some ⟨.function (.free ⟨7, some "pair", .exactly 2, ⟨0⟩⟩), ⟨{}, accessor, converter⟩, none,
        none⟩ := rfl

/-- Read as properties, the keys give the number of parameters and the name. -/
theorem intrinsics_withNamed :
    ((ObjectId.get? ⟨0⟩ (.name "length")).on (withNamed .standard .standard)).1 =
      .ok (some (.number (.integer 2))) ∧
    ((ObjectId.get? ⟨0⟩ (.name "name")).on (withNamed .standard .standard)).1 =
      .ok (some (.string "pair")) := by
  obtain ⟨-, -, ⟨n, hn, hlength⟩, -, hname⟩ :=
    (withNamed_reachable .standard .standard).intrinsics (wrapper?_withNamed ..) rfl nofun
      (.inl rfl)
  obtain ⟨w', hget, -⟩ := (hname "pair" rfl).1 (.inl rfl)
  have htwo : n = 2 := Int64.toInt_inj.1 (hn.trans (by decide))
  exact ⟨htwo ▸ congrArg Prod.fst hlength, congrArg Prod.fst hget⟩

/-- Under attribute access the name reads as a function, and a converter may replace its text. -/
theorem name_not_text :
    (∃ v c, (withNamed .attributes .standard).heap.wrapper? ⟨0⟩ = some v ∧
      v.subject = .function c ∧ v.policy.accessor = .attributes ∧ c.displayName = "pair" ∧
      ((ObjectId.get? ⟨0⟩ (.name "name")).on (withNamed .attributes .standard)).1 =
        .ok (some (.object ⟨1⟩))) ∧
    ∃ v c, (withNamed .standard (.filtering [] [] (some (.string "other")))).heap.wrapper? ⟨0⟩ =
        some v ∧ v.subject = .function c ∧ v.policy.accessor = .standard ∧ c.displayName = "pair" ∧
      ((ObjectId.get? ⟨0⟩ (.name "name")).on
        (withNamed .standard (.filtering [] [] (some (.string "other"))))).1 =
        .ok (some (.string "other")) :=
  ⟨⟨_, _, wrapper?_withNamed .., rfl, rfl, rfl, rfl⟩,
    ⟨_, _, wrapper?_withNamed .., rfl, rfl, rfl, rfl⟩⟩

end Catalog

end Membrane
