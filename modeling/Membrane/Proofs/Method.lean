import Membrane.Proofs.Memory
import Membrane.Proofs.Offering

/-!
# Methods that are handed out

Reading a member that needs arguments yields a function. `World.CallsAs` says what a call of it
comes to: the host code runs once, directly, on the receiver and the arguments of the call as they
cross to the host, and its answer crosses back or its error is thrown. Which callable runs is
decided by the memory of the context in which the wrapper was made: the first one there that is
written like the method, unless something else was put there, or the method itself.
-/

namespace Membrane

variable {σ α : Type}

/-! ## Runs of host code -/

/-- A direct run of host code: its outcome and the host's side after it. -/
def World.directly (w : World σ) (act : HostM σ α) : Except HostError α × HostSide σ :=
  ((act.run w.heap).run).run w.host

/-- The outcome of host code as script code gets it. -/
def World.deliver (w : World σ) (site : Site) :
    Except HostError HostValue → Except ScriptError ScriptValue × World σ
  | .ok value => (crossOut site value).on w
  | .error e => (.error (.thrown (.object w.heap.next)), w.pushError e)

variable [Host σ]

/-- A call of an object amounts to one direct run of host code, on the receiver and the fitted
arguments as they cross. -/
def World.CallsAs (w : World σ) (f : ObjectId) (policy : Policy) (realm : Option Realm)
    (arity : Arity) (direct : HostValue → List HostValue → HostM σ HostValue) : Prop :=
  ∀ context caller this args, ∃ (i : Invocation) (w' : World σ),
    i.run = direct (w.heap.crossIn this) ((arity.fit .null args).map w.heap.crossIn) ∧
    w'.heap = w.heap ∧ w'.contexts = w.contexts ∧ w'.host = (w.directly i.run).2 ∧
    w'.runs = w.runs ++ [(i, (w.directly i.run).1)] ∧
    (f.call context caller this args).on w =
      w'.deliver ⟨policy, context, caller.or realm⟩ (w.directly i.run).1

/-! ## Values that cross as they are -/

variable {w : World σ} {policy : Policy}

omit [Host σ] in
theorem toHost_alike (hp : policy.converter = .standard) (value : ScriptValue) (w : World σ) :
    ∃ w', (toHost policy value).on w = (.ok (w.heap.crossIn value), w') ∧ w.Alike w' := by
  refine ⟨w.note (.incoming value (.ok (w.heap.crossIn value))), ?_, w.alike_note rfl⟩
  rw [on_toHost, hp]
  rfl

/-! ## Calls -/

/-- Only a method without a receiver looks at the one given. -/
theorem HostCallable.invoke_receiver {c : HostCallable} (h : c.isUnbound = false)
    (receiver : Option HostValue) (args : List HostValue) :
    (c.invoke receiver args : HostM σ HostValue) = c.invoke none args := by
  cases c with
  | free f => rfl
  | bound r m => rfl
  | unbound m => cases h

/-- Host code that is run for script code runs once, and its outcome is delivered. -/
theorem hostCall_toScript {site : Site} (hp : site.policy.converter = .standard) (i : Invocation)
    (w : World σ) :
    ∃ w' : World σ, w'.heap = w.heap ∧ w'.contexts = w.contexts ∧
      w'.host = (w.directly i.run).2 ∧ w'.runs = w.runs ++ [(i, (w.directly i.run).1)] ∧
      (ScriptM.hostCall i >>= toScript site).on w = w'.deliver site (w.directly i.run).1 := by
  let w₁ : World σ := { w with host := (w.directly i.run).2 }.note (.ran i (w.directly i.run).1)
  have hruns : w₁.runs = w.runs ++ [(i, (w.directly i.run).1)] := World.runs_note ..
  have hinvoke : w.invoke i = ((w.directly i.run).1, w₁) := rfl
  rw [ScriptM.on_bind, ScriptM.on_hostCall, hinvoke]
  cases houtcome : (w.directly i.run).1 with
  | error e => exact ⟨w₁, rfl, rfl, rfl, houtcome ▸ hruns, rfl⟩
  | ok value =>
    have halike : w₁.Alike (w₁.note (.outgoing value (.ok none))) := w₁.alike_note rfl
    refine ⟨w₁.note (.outgoing value (.ok none)), rfl, rfl, rfl,
      halike.runs.trans (houtcome ▸ hruns), ?_⟩
    dsimp only
    rw [on_toScript, hp]
    rfl

/-- Where values cross as they are, a call comes to one run of host code, and its outcome is
delivered. -/
theorem Callee.on_call_standard (callee : Callee) {site : Site}
    (hp : site.policy.converter = .standard) (this : ScriptValue) (args : List ScriptValue)
    (w : World σ) :
    ∃ (receiver : Option HostValue) (i : Invocation) (w' : World σ),
      callee.Receives site.policy w.heap this receiver ∧
      i = callee.invocation receiver ((callee.arity.fit .null args).map w.heap.crossIn) ∧
      w'.heap = w.heap ∧ w'.contexts = w.contexts ∧ w'.host = (w.directly i.run).2 ∧
      w'.runs = w.runs ++ [(i, (w.directly i.run).1)] ∧
      (callee.call site this args).on w = w'.deliver site (w.directly i.run).1 := by
  rcases callee.on_call site this args w with
    ⟨_, _, _, _, -, hrefuses, -⟩ | ⟨hostArgs, receiver, hadmits, hreceives, hcall⟩
  · exact absurd hrefuses (Policy.not_refusesAfter_standard hp)
  obtain rfl := Policy.forall₂_admits_standard hp hadmits
  let i := callee.invocation receiver ((callee.arity.fit .null args).map w.heap.crossIn)
  -- the host code finds the world as it was before the values were offered
  have halike := w.alike_offer site.policy (callee.offered this args)
  obtain ⟨w', hheap, hcontexts, hhost, hruns, hdelivered⟩ :=
    hostCall_toScript hp i (w.offer site.policy (callee.offered this args))
  exact ⟨receiver, i, w', hreceives, rfl, hheap, hcontexts, hhost, halike.runs ▸ hruns,
    hcall.trans hdelivered⟩

/-- A call of the wrapper of a callable runs the callable. -/
theorem callsAs_invoke {f : ObjectId} {u : Wrapper} (hu : w.heap.wrapper? f = some u)
    {c : HostCallable} (hc : u.subject = .function c) (hp : u.policy.converter = .standard) :
    w.CallsAs f u.policy u.realm c.arity fun receiver args => c.invoke (some receiver) args := by
  intro context caller this args
  let site : Site := ⟨u.policy, context, caller.or u.realm⟩
  have hcallee : w.heap.callee? f context caller = some (.callable c, site) := by
    rw [Heap.callee?, hu, Option.bind_some, hc]
    rfl
  have hsite : site.policy.converter = .standard := hp
  obtain ⟨receiver, i, w', hreceives, hi, hheap, hcontexts, hhost, hruns, hcall⟩ :=
    (Callee.callable c).on_call_standard hsite this args w
  have hrun : i.run = (c.invoke (some (w.heap.crossIn this))
      ((c.arity.fit .null args).map w.heap.crossIn) : HostM σ HostValue) := by
    subst hi
    cases receiver with
    | some r =>
      rw [Callee.invocation, Invocation.run, Policy.admits_standard hp hreceives.2, Callee.arity]
    | none =>
      rw [Callee.invocation, Invocation.run, HostCallable.invoke_receiver hreceives (some _),
        Callee.arity]
  refine ⟨i, w', hrun, hheap, hcontexts, hhost, hruns, ?_⟩
  rw [ObjectId.call, ScriptM.on_get_bind, hcallee]
  exact hcall

/-! ## Reading a method -/

/-- Which members a strategy hands out as functions. -/
def Accessor.HandsOut (accessor : Accessor) (s : σ) (host : HostValue) (name : String)
    (m : Member) : Prop :=
  match accessor with
  | .standard => m.arity ≠ .exactly 0
  | .attributes => m.arity ≠ .exactly 0 ∨ host.isAttribute s name = false
  | .transparent | .deny => False

omit [Host σ] in
theorem on_handOut {site : Site} {m : Member} {f : ObjectId} {w₁ : World σ}
    (h : (wrap site (.function (.unbound (m.method w.host.next)))).on
      { w with host := w.host.fresh.2 } = (.ok f, w₁)) :
    (handOut site m).on w = (.ok (.object f), w₁) := by
  rw [handOut, ScriptM.on_bind_of_ok (ScriptM.on_freshAddress w), ScriptM.on_bind_of_ok h]
  rfl

/-- The name of a key that may be looked up is the name that the key is of. -/
theorem PropertyKey.name_of_memberName? {key : PropertyKey} {name : String}
    (h : key.memberName? = some name) : key.name?.getD "" = name := by
  rw [memberName?] at h
  split at h
  · cases h
  · rw [h, Option.getD_some]

/-- A member of the name decides what a read comes to: it is run or handed out. -/
theorem on_getNamed_of_member (asProperty : σ → HostValue → String → Bool) (site : Site)
    {host : HostValue} {key : PropertyKey} {name : String} {m : Member}
    (hkey : key.memberName? = some name) (hm : host.member? w.host.state name = some m) :
    (getNamed asProperty site host key).on w =
      if m.arity = .exactly 0 && asProperty w.host.state host name then
        (some <$> (ScriptM.hostCall (.member host m []) >>= toScript site)).on w
      else (some <$> handOut site m).on w := by
  have hreader : host.reader? w.host.state key = some m := by
    rw [HostValue.reader?, hkey, Option.bind_some, hm]
  rw [getNamed, ScriptM.on_get_bind]
  dsimp only
  rw [hreader, PropertyKey.name_of_memberName? hkey]
  dsimp only
  split
  · rw [map_eq_pure_bind, bind_assoc]
  · rw [map_eq_pure_bind]

/-- A strategy that hands a member out reads the wrapper of the method. -/
theorem on_accessor_get {accessor : Accessor} {site : Site} {host : HostValue} {key : PropertyKey}
    {name : String} {m : Member} {f : ObjectId} {w₁ : World σ} (receiver : ObjectId)
    (hkey : key.memberName? = some name) (hm : host.member? w.host.state name = some m)
    (hout : accessor.HandsOut w.host.state host name m)
    (h : (handOut site m).on w = (.ok (.object f), w₁)) :
    (accessor.get site host receiver key).on w = (.ok (some (.object f)), w₁) := by
  have hnamed : ∀ asProperty : σ → HostValue → String → Bool,
      (m.arity ≠ .exactly 0 ∨ asProperty w.host.state host name = false) →
      (getNamed asProperty site host key).on w = (.ok (some (.object f)), w₁) := by
    intro asProperty hfunction
    have hskip : (decide (m.arity = .exactly 0) && asProperty w.host.state host name) = false := by
      rcases hfunction with harity | hno
      · rw [decide_eq_false harity, Bool.false_and]
      · rw [hno, Bool.and_false]
    rw [on_getNamed_of_member asProperty site hkey hm, hskip, if_neg Bool.false_ne_true,
      ScriptM.on_map, h]
  cases accessor with
  | standard => exact hnamed (fun _ _ _ => true) (.inl hout)
  | attributes => exact hnamed (fun s value name => value.isAttribute s name) hout
  | transparent => exact hout.elim
  | deny => exact hout.elim

omit [Host σ] in
/-- Asking for a wrapper runs no host code. -/
theorem runs_wrap (site : Site) (subject : Subject) (w : World σ) :
    ((wrap site subject).on w).2.runs = w.runs := by
  rw [on_wrap]
  cases w.wrapper? site subject with
  | some id => exact (w.alike_note rfl).runs
  | none =>
    show World.runs (World.note _ _) = _
    rw [World.runs_note, World.runs, World.journal_keep]
    exact List.append_nil _

/-- What an object answers itself is what reading it yields. -/
theorem on_get?_of_own {id : ObjectId} {key : PropertyKey} {value : ScriptValue} {w₁ : World σ}
    (hid : w.heap.Holds id) (h : (id.getOwn key).on w = (.ok (some value), w₁)) :
    (id.get? key).on w = (.ok (some value), w₁) := by
  rw [ObjectId.get?, ScriptM.on_get_bind, Heap.chain_eq_cons hid, firstAlong,
    ScriptM.on_bind_of_ok h]
  rfl

/-- What the strategy of a wrapper answers is what reading the wrapper yields. -/
theorem on_get?_of_accessor {id : ObjectId} {v : Wrapper} {key : PropertyKey} {value : ScriptValue}
    {w₁ : World σ} (hv : w.heap.wrapper? id = some v)
    (h : (v.policy.accessor.get (v.site w) v.subject.value id key).on w =
      (.ok (some value), w₁)) : (id.get? key).on w = (.ok (some value), w₁) := by
  refine on_get?_of_own (Heap.holds_of_wrapper? hv) ?_
  rw [ObjectId.getOwn, ScriptM.on_get_bind]
  dsimp only
  rw [Heap.wrapper?_eq_some.1 hv]
  dsimp only
  rw [orElseFrom, ScriptM.on_bind_of_ok h]
  rfl

/-- Reading a wrapper in a reachable world leads to a sound one. -/
theorem World.Reachable.sound_of_get (hw : w.Reachable) {id : ObjectId} {v : Wrapper}
    (hv : w.heap.wrapper? id = some v) {key : PropertyKey} {r : Option ScriptValue} {w₁ : World σ}
    (hread : (id.get? key).on w = (.ok r, w₁)) : w₁.Sound := by
  have hafter := hw.after (m := .get id key) (Heap.holds_of_wrapper? hv)
  have hrun : ((Move.get id key : Move σ).run).on w = (.ok (), w₁) := by
    rw [Move.run, ScriptM.on_discard, hread]
    rfl
  rw [World.after, hrun] at hafter
  exact hafter.sound

/-! ## Calling a method that was read -/

variable (σ) in
/-- A callable does what a method does: it has the same arity and, on any receiver and any
arguments, the same effects and outcome. -/
structure HostCallable.Performs (c : HostCallable) (m : Member) : Prop where
  arity : c.arity = m.arity
  invoke : ∀ receiver args,
    (c.invoke (some receiver) args : HostM σ HostValue) = receiver.perform m args

/-- A method does what the member does that it was handed out for, wherever it was looked up. -/
theorem Member.performs_method (m : Member) (address : Nat) :
    (HostCallable.unbound (m.method address)).Performs σ m :=
  ⟨rfl, fun _ _ => rfl⟩

/-- **Reading a method and calling it is calling it directly.** Let the strategy of a wrapper hand
out a member of its host value, where all values cross as they are. Then reading the member yields a
function, and a call of it, at once or in any later world, with any receiver, arguments, context and
realm amounts to one run of a callable on that receiver: of the method itself, or of the callable
whose wrapper is remembered under the rendering of the method in the context of the wrapper. If
nobody wrote to that memory directly, it is the callable that is written like the method and was the
first to be asked for there. In all cases, if the callable does what the member does, the call
amounts to one run of the member on the receiver of the call. -/
theorem World.Reachable.method_call (hw : w.Reachable)
    (hstandard : ∀ x u, w.heap.wrapper? x = some u → u.policy.converter = .standard)
    {id : ObjectId} {v : Wrapper} (hv : w.heap.wrapper? id = some v) {key : PropertyKey}
    {name : String} (hkey : key.memberName? = some name) {m : Member}
    (hm : v.subject.value.member? w.host.state name = some m)
    (hout : v.policy.accessor.HandsOut w.host.state v.subject.value name m) :
    ∃ (f : ObjectId) (w₁ : World σ) (u : Wrapper) (c : HostCallable),
      (id.get? key).on w = (.ok (some (.object f)), w₁) ∧ w₁.host = w.host.fresh.2 ∧
      w₁.runs = w.runs ∧ w₁.heap.wrapper? f = some u ∧ u.subject = .function c ∧
      (c = .unbound (m.method w.host.next) ∧ c.Performs σ m ∨
        ∃ context, w.revive? v.context = some context ∧
          (w.cache context).get? (.callable (m.method w.host.next).render) =
            some ⟨.wrapper .function, f⟩ ∧
          (w.PlainlyReachable → c.render = (m.method w.host.next).render ∧
            ∀ answer, (.callable (m.method w.host.next).render, answer) ∈ w.requests context →
              answer = ⟨.wrapper .function, f⟩)) ∧
      ∀ w₂, w₁.Reaches w₂ →
        (w₂.CallsAs f u.policy u.realm c.arity fun receiver args =>
          c.invoke (some receiver) args) ∧
        (c.Performs σ m → w₂.CallsAs f u.policy u.realm m.arity fun receiver args =>
          receiver.perform m args) := by
  let method := m.method w.host.next
  let w₀ : World σ := { w with host := w.host.fresh.2 }
  have htyped : w₀.Typed := hw.typed
  obtain ⟨f, w₁, u, hwrap, hhost, hu, hkind, hcases⟩ :=
    htyped.wrap_cases (v.site w) (.function (.unbound method))
  obtain ⟨c, hc⟩ := Subject.exists_function hkind
  have hread := on_get?_of_accessor hv (on_accessor_get id hkey hm hout (on_handOut hwrap))
  have hruns : w₁.runs = w₀.runs := by
    have h := runs_wrap (v.site w) (.function (.unbound method)) w₀
    rwa [hwrap] at h
  have hpolicy : u.policy.converter = .standard := by
    rcases hcases with rfl | ⟨hold, -⟩
    · exact hstandard id v hv
    · exact hstandard f u hold
  refine ⟨f, w₁, u, c, hread, hhost, hruns, hu, hc, ?_, fun w₂ hlater => ?_⟩
  · rcases hcases with rfl | ⟨hold, context, hcontext, hentry⟩
    · cases hc
      exact .inl ⟨rfl, m.performs_method _⟩
    · refine .inr ⟨context, hcontext, hentry, fun hplain => ?_⟩
      have halive : w.isAlive context := (Option.filter_eq_some_iff.1 hcontext).2
      have hmemory := hplain.faithful.remembers context halive
      constructor
      · obtain ⟨u', hu', -, hidentity⟩ := hmemory.exists_wrapper hentry
        obtain rfl := Option.some.inj (hold.symm.trans hu')
        rw [hc] at hidentity
        exact Identity.callable.inj hidentity
      · intro answer hanswer
        have hanswer := (hmemory.asked _ _).2 hanswer
        exact Option.some.inj (hanswer.symm.trans hentry)
  · have hu₂ : w₂.heap.wrapper? f = some u :=
      Heap.wrapper?_eq_some.2 (hlater.kind? (hw.sound_of_get hv hread) (Heap.wrapper?_eq_some.1 hu))
    have hcalls := callsAs_invoke hu₂ hc hpolicy
    refine ⟨hcalls, fun hperforms => ?_⟩
    rw [hperforms.arity] at hcalls
    simpa only [hperforms.invoke] using hcalls

/-- A method of one parameter, which answers with its argument. -/
def Catalog.echo : Member := ⟨"Point", "echo", .exactly 1, .code ⟨0⟩ (some "Point"), none⟩

/-- The wrapper of an object with this method. -/
def Catalog.withPoint : World Catalog :=
  (World.initial ⟨8, {
      definitions := #[⟨some "echo", .stateMethod (.argument 0)⟩]
      objects := #[⟨⟨7, "Point"⟩,
        { className := "Point", methods := [echo], members := ["echo"] }, []⟩]
    }⟩ .standard).after (.wrap ⟨⟨{}, .standard, .standard⟩, none, none⟩ (.object ⟨7, "Point"⟩))

/-- A call of the method that was read from the wrapper runs the method on the receiver. -/
theorem Catalog.method_call_echo : ∃ f w₁ policy realm,
    (ObjectId.get? ⟨0⟩ (.name "echo")).on withPoint = (.ok (some (.object f)), w₁) ∧
      w₁.CallsAs f policy realm (.exactly 1) fun receiver args => receiver.perform echo args := by
  have hw : withPoint.Reachable :=
    (World.initial_reachable _ _).reachable.after (World.serves_none _)
  have hstandard : ∀ x u, withPoint.heap.wrapper? x = some u →
      u.policy.converter = .standard := by
    rintro ⟨x⟩ u hu
    have hx : x < 1 := Heap.holds_of_wrapper? hu
    obtain rfl : x = 0 := by omega
    cases hu
    rfl
  have hv : withPoint.heap.wrapper? ⟨0⟩ =
      some ⟨.object ⟨7, "Point"⟩, ⟨{}, .standard, .standard⟩, none, none⟩ := rfl
  have hkey : PropertyKey.memberName? (.name "echo") = some "echo" := by decide
  have hm : (HostValue.object ⟨7, "Point"⟩).member? withPoint.host.state "echo" = some echo := by
    decide
  have hout : echo.arity ≠ .exactly 0 := by decide
  obtain ⟨f, w₁, u, c, hread, -, -, -, -, hc, hcalls⟩ :=
    hw.method_call hstandard hv hkey hm hout
  refine ⟨f, w₁, u.policy, u.realm, hread, (hcalls w₁ .refl).2 ?_⟩
  rcases hc with ⟨-, hc⟩ | ⟨context, hcontext, -⟩
  · exact hc
  · cases hcontext

end Membrane
