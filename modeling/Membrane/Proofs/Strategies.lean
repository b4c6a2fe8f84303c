import Membrane.Catalog.Running
import Membrane.Proofs.Fitting
import Membrane.Proofs.Reading
import Membrane.Proofs.RoundTrip
import Membrane.Proofs.Sameness

/-!
# The standard strategy and attribute access

The two differ in one kind of read: a member without parameters that has neither a writer nor a field
is run by the standard strategy and handed out as a function by attribute access. The function, when
it is called on the wrapper, runs the member after all, and no arguments reach it. `World.Yields` is
what a run of host code comes to for script code. Both the read and the call yield the run of the
member on the host value; only the context in which a result crosses can make a difference.
-/

namespace Membrane

variable {σ : Type} [Host σ] {w : World σ}

/-! ## What a run of host code comes to -/

/-- The outcome is that of one run of host code whose answer crosses in a context: the thrown
wrapping of its error, or a value that crosses back as what its answer comes back as. -/
structure World.Yields (w : World σ) (direct : HostM σ HostValue) (context : Option ContextId)
    (outcome : Except ScriptError ScriptValue × World σ) : Prop where
  host : outcome.2.host = (w.directly direct).2
  runs : ∃ i : Invocation, i.run = direct ∧
    outcome.2.runs = w.runs ++ [(i, (w.directly direct).1)]
  error : ∀ e, (w.directly direct).1 = .error e →
    outcome.1 = .error (.thrown (.object w.heap.next)) ∧
      outcome.2.heap = w.heap.push { kind := .hostError e }
  value : ∀ value, (w.directly direct).1 = .ok value →
    ∃ r, outcome.1 = .ok r ∧ outcome.2.heap.crossIn r = w.returned context value

/-- What is delivered of a run is what the run comes to. -/
theorem World.yields_deliver {i : Invocation} {direct : HostM σ HostValue} (hrun : i.run = direct)
    {w' : World σ} (hheap : w'.heap = w.heap) (hcontexts : w'.contexts = w.contexts)
    (hhost : w'.host = (w.directly direct).2)
    (hruns : w'.runs = w.runs ++ [(i, (w.directly direct).1)]) (site : Site) :
    w.Yields direct site.context (w'.deliver site (w.directly direct).1) := by
  cases houtcome : (w.directly direct).1 with
  | error e =>
    refine ⟨hhost, ⟨i, hrun, hruns⟩, fun e' he => ?_, fun value hvalue => ?_⟩
    · cases houtcome.symm.trans he
      exact ⟨by rw [World.deliver, hheap], by rw [← hheap]; rfl⟩
    · cases houtcome.symm.trans hvalue
  | ok value =>
    obtain ⟨r, w'', hcross, hback, hhost', hruns'⟩ := on_crossOut_returned site value w'
    rw [World.deliver, hcross]
    refine ⟨hhost'.trans hhost, ⟨i, hrun, hruns'.trans hruns⟩, fun e he => ?_, fun a ha => ?_⟩
    · cases houtcome.symm.trans he
    · cases houtcome.symm.trans ha
      exact ⟨r, rfl, hback.trans (World.returned_congr hheap hcontexts ..)⟩

/-! ## Reads that do not differ -/

/-- Attribute access defers the run of a member: it has no parameters, no writer and no field. -/
structure HostValue.Defers (s : σ) (host : HostValue) (key : PropertyKey) (m : Member) : Prop where
  reader : host.reader? s key = some m
  parameters : m.arity = .exactly 0
  noAttribute : host.isAttribute s (key.name?.getD "") = false

/-- Where no run is deferred, the two strategies read alike. -/
theorem on_get_attributes_eq {site : Site} {host : HostValue} {receiver : ObjectId}
    {key : PropertyKey} (h : ∀ m, ¬ host.Defers w.host.state key m) :
    (Accessor.attributes.get site host receiver key).on w =
      (Accessor.standard.get site host receiver key).on w := by
  show (getNamed (fun s value name => value.isAttribute s name) site host key).on w =
    (getNamed (fun _ _ _ => true) site host key).on w
  cases hreader : host.reader? w.host.state key with
  | none =>
    rw [getNamed, getNamed, ScriptM.on_get_bind, ScriptM.on_get_bind]
    dsimp only
    rw [hreader]
    cases host.writer? w.host.state key <;> rfl
  | some m =>
    obtain ⟨name, hkey, hm⟩ := Option.bind_eq_some_iff.1 hreader
    rw [on_getNamed_of_member _ site hkey hm, on_getNamed_of_member _ site hkey hm]
    by_cases harity : m.arity = .exactly 0
    · have hattribute : host.isAttribute w.host.state name = true := by
        refine Bool.of_not_eq_false fun hno => h m ⟨hreader, harity, ?_⟩
        rw [PropertyKey.name_of_memberName? hkey, hno]
      rw [hattribute]
    · rw [decide_eq_false harity, Bool.false_and, Bool.false_and]

/-! ## Reads that are deferred -/

/-- The standard strategy runs the member in the read. -/
theorem standard_yields {site : Site} (hp : site.policy.converter = .standard) {host : HostValue}
    {key : PropertyKey} {m : Member} (hreader : host.reader? w.host.state key = some m)
    (harity : m.arity = .exactly 0) (receiver : ObjectId) :
    ∃ read, (Accessor.standard.get site host receiver key).on w = (read.1.map some, read.2) ∧
      w.Yields (host.perform m []) site.context read := by
  obtain ⟨name, hkey, hm⟩ := Option.bind_eq_some_iff.1 hreader
  have hget : (Accessor.standard.get site host receiver key).on w =
      (some <$> (ScriptM.hostCall (.member host m []) >>= toScript site)).on w :=
    on_accessor_get_of_runs site receiver hkey hm harity
  obtain ⟨w', hheap, hcontexts, hhost, hruns, hdeliver⟩ :=
    hostCall_toScript hp (.member host m []) w
  have hyields := World.yields_deliver (i := .member host m []) rfl hheap hcontexts hhost hruns site
  refine ⟨_, ?_, hyields⟩
  rw [hget, ScriptM.on_map_eq, hdeliver]

/-- A function that does what the member does runs it on the wrapper that it is called on, whatever
the arguments. -/
theorem call_yields {f x : ObjectId} {u v : Wrapper} (hu : w.heap.wrapper? f = some u)
    {c : HostCallable} (hc : u.subject = .function c) (hp : u.policy.converter = .standard)
    {m : Member} (hperforms : c.Performs σ m) (harity : m.arity = .exactly 0)
    (hv : w.heap.wrapper? x = some v) (context : Option ContextId) (caller : Option Realm)
    (args : List ScriptValue) :
    w.Yields (v.subject.value.perform m []) context
      ((f.call context caller (.object x) args).on w) := by
  obtain ⟨i, w', hrun, hheap, hcontexts, hhost, hruns, hcall⟩ :=
    callsAs_invoke hu hc hp context caller (.object x) args
  rw [hperforms.arity, harity, Arity.fit_exactly_zero, Heap.crossIn_of_wrapper? hv] at hrun
  replace hrun := hrun.trans (hperforms.invoke _ _)
  rw [hcall, hrun]
  rw [hrun] at hhost hruns
  exact World.yields_deliver hrun hheap hcontexts hhost hruns ⟨_, context, _⟩

/-- Attribute access hands out a member whose run it defers. -/
theorem attributes_handsOut {site : Site} {host : HostValue} {key : PropertyKey} {m : Member}
    (h : host.Defers w.host.state key m) {f : ObjectId} {w₁ : World σ}
    (hhanded : (handOut site m).on w = (.ok (.object f), w₁)) (receiver : ObjectId) :
    (Accessor.attributes.get site host receiver key).on w = (.ok (some (.object f)), w₁) := by
  obtain ⟨name, hkey, hm⟩ := Option.bind_eq_some_iff.1 h.reader
  have hno := h.noAttribute
  rw [PropertyKey.name_of_memberName? hkey] at hno
  have hout : Accessor.attributes.HandsOut w.host.state host name m := .inr hno
  exact on_accessor_get receiver hkey hm hout hhanded

/-! ## The two compared -/

/-- **Attribute access defers runs, and does everything else like the standard strategy.** Searches
and writes are the same, and so is every read but that of a member without parameters that has
neither a writer nor a field. Such a read runs no host code and yields a function: the method of the
member, or what the context remembers under its rendering. Let that function do what the member
does, and call it in any later world on a wrapper of the host value, with any arguments. Then the
call and the read by the standard strategy in that world both come to the run of the member on the
host value without arguments. In one context the answer crosses back as one host value, which is
identical to itself unless an opaque float that is no number hides in it. What it crosses back as can
only differ between contexts, and if nobody wrote to their memory directly, only by being another
callable that is written alike. -/
theorem Accessor.attributes_standard (site : Site) (host : HostValue) (receiver : ObjectId)
    (key : PropertyKey) (w : World σ) :
    (Accessor.attributes.has host key : ScriptM σ (Option Bool)) =
      Accessor.standard.has host key ∧
    (∀ value, (Accessor.attributes.put site host receiver key value : ScriptM σ Bool) =
      Accessor.standard.put site host receiver key value) ∧
    ((∀ m, ¬ host.Defers w.host.state key m) →
      (Accessor.attributes.get site host receiver key).on w =
        (Accessor.standard.get site host receiver key).on w) ∧
    ∀ m, host.Defers w.host.state key m → w.Reachable → site.Stands w →
      (∀ x u, w.heap.wrapper? x = some u → u.policy.converter = .standard) →
      site.policy.converter = .standard →
      ∃ (f : ObjectId) (w₁ : World σ) (c : HostCallable),
        (Accessor.attributes.get site host receiver key).on w = (.ok (some (.object f)), w₁) ∧
        w₁.host = w.host.fresh.2 ∧ w₁.runs = w.runs ∧ w₁.heap.isCallable f = true ∧
        (c.Performs σ m ∨ ∃ context, site.context = some context ∧
          w₁.heap.crossIn (.object f) = .callable c ∧
          (w.cache context).get? (.callable (m.method w.host.next).render) =
            some ⟨.wrapper .function, f⟩) ∧
        (c.Performs σ m → ∀ w₂, w₁.Reaches w₂ → host.reader? w₂.host.state key = some m →
          ∀ x v, w₂.heap.wrapper? x = some v → v.subject.value = host →
          ∀ place : Site, place.policy.converter = .standard → ∀ context caller args,
            ∃ read, (Accessor.standard.get place host receiver key).on w₂ =
                (read.1.map some, read.2) ∧
              w₂.Yields (host.perform m []) place.context read ∧
              w₂.Yields (host.perform m []) context
                ((f.call context caller (.object x) args).on w₂) ∧
              (∀ value, (w₂.returned context value).hidesNaN = false → place.context = context →
                (w₂.returned place.context value).identical (w₂.returned context value) = true) ∧
              (w₂.PlainlyReachable → ∀ value,
                (w₂.returned place.context value).WrittenAlike (w₂.returned context value))) := by
  refine ⟨rfl, fun _ => rfl, on_get_attributes_eq, ?_⟩
  intro m hdefers hw hsite hstandard hconverter
  obtain ⟨f, w₁, u, c, hhanded, hhost, hruns, hu, hc, hcases⟩ := hw.typed.handOut_cases site m
  have hcross : w₁.heap.crossIn (.object f) = .callable c := by
    rw [Heap.crossIn_of_wrapper? hu, hc]
    rfl
  have hpolicy : u.policy.converter = .standard := by
    rcases hcases with ⟨hpolicy, -⟩ | ⟨hold, -⟩
    · rw [hpolicy, hconverter]
    · exact hstandard f u hold
  have hread := attributes_handsOut hdefers hhanded receiver
  -- the function is found again in later worlds, since they keep the objects of a sound one
  have hsound : w₁.Sound := by
    have hproceeds : (Accessor.attributes.get site host receiver key).Proceeds .any w :=
      .get hsite trivial (.inl trivial) host receiver key
    have hchanges : Changes True w ((Accessor.attributes.get site host receiver key).on w).2 :=
      hproceeds.changes
    rw [hread] at hchanges
    exact hchanges.sound hw.sound
  refine ⟨f, w₁, c, hread, hhost, hruns, ?_, ?_, ?_⟩
  · rw [Heap.isCallable, hu]
    dsimp only
    rw [hc]
  · rcases hcases with ⟨-, rfl⟩ | ⟨-, context, hcontext, hentry⟩
    · exact .inl (m.performs_method _)
    · exact .inr ⟨context, hcontext, hcross, hentry⟩
  · rintro hperforms w₂ hlater hreader x v hv rfl place hplace context caller args
    have hu₂ : w₂.heap.wrapper? f = some u :=
      Heap.wrapper?_eq_some.2 (hlater.kind? hsound (Heap.wrapper?_eq_some.1 hu))
    obtain ⟨read, hstandardRead, hyields⟩ :=
      standard_yields hplace hreader hdefers.parameters receiver
    exact ⟨read, hstandardRead, hyields,
      call_yields hu₂ hc hpolicy hperforms hdefers.parameters hv context caller args,
      fun value hnumber hsame => by rw [hsame, HostValue.identical_self, hnumber, Bool.not_false],
      fun hplain value => hplain.returned_writtenAlike place.context context value⟩

namespace Catalog

/-- A member without parameters, which answers with what its object keeps. -/
def kept : Member := ⟨"Widget", "kept", .exactly 0, .code ⟨0⟩ none, none⟩

/-- Where values cross under attribute access. -/
def deferring : Site := ⟨⟨{}, .attributes, .standard⟩, some ⟨0⟩, none⟩

/-- The wrapper of an object that keeps the method of this member from an earlier look-up. -/
def withKept : World Catalog :=
  ((World.initial ⟨51, {
      definitions := #[⟨some "kept", .stateMethod (.get "kept")⟩]
      objects := #[⟨⟨7, "Widget"⟩,
        { className := "Widget", methods := [kept], members := ["kept"] },
        [("kept", .callable (.unbound (kept.method 50)))]⟩]
    }⟩ .standard).after (.openContext deferring.policy)).after
    (.wrap deferring (.object ⟨7, "Widget"⟩))

theorem withKept_reachable : withKept.PlainlyReachable := by
  refine ((World.PlainlyReachable.after (World.initial_reachable _ _) ?opened ?_).after ?wrapped ?_)
  case opened => trivial
  case wrapped => exact World.serves_some rfl
  all_goals trivial

theorem kept_deferred :
    (HostValue.object ⟨7, "Widget"⟩).Defers withKept.host.state (.name "kept") kept :=
  ⟨by decide, rfl, by decide⟩

/-- The read yields a function, and a call of it with any arguments comes to the run of the member. -/
theorem attributes_standard_kept : ∃ (f : ObjectId) (w₁ : World Catalog),
    (Accessor.attributes.get deferring (.object ⟨7, "Widget"⟩) ⟨0⟩ (.name "kept")).on withKept =
      (.ok (some (.object f)), w₁) ∧
    ∀ args, w₁.Yields ((HostValue.object ⟨7, "Widget"⟩).perform kept []) (some ⟨0⟩)
      ((f.call (some ⟨0⟩) none (.object ⟨0⟩) args).on w₁) := by
  have hstands : deferring.Stands withKept := World.serves_some rfl
  have hstandard : ∀ x u, withKept.heap.wrapper? x = some u → u.policy.converter = .standard := by
    rintro ⟨x⟩ u hu
    have hx : x < 1 := Heap.holds_of_wrapper? hu
    obtain rfl : x = 0 := by omega
    cases hu
    rfl
  obtain ⟨f, w₁, c, hread, hhost, -, -, hc, hcalls⟩ :=
    (Accessor.attributes_standard deferring (.object ⟨7, "Widget"⟩) ⟨0⟩ (.name "kept")
      withKept).2.2.2 kept kept_deferred withKept_reachable.reachable hstands hstandard rfl
  have hperforms : c.Performs Catalog kept := by
    rcases hc with hc | ⟨context, hcontext, -, hentry⟩
    · exact hc
    · cases hcontext
      have hnone : (withKept.cache ⟨0⟩).get? (.callable "fn Widget::kept") = none := rfl
      exact nomatch hnone.symm.trans hentry
  have hreader : (HostValue.object ⟨7, "Widget"⟩).reader? w₁.host.state (.name "kept") =
      some kept := by
    rw [hhost]
    exact kept_deferred.reader
  have hwrapper : w₁.heap.wrapper? ⟨0⟩ =
      some ⟨.object ⟨7, "Widget"⟩, deferring.policy, some ⟨0⟩, none⟩ := by
    obtain rfl := congrArg Prod.snd hread
    rfl
  refine ⟨f, w₁, hread, fun args => ?_⟩
  obtain ⟨-, -, -, hyields, -⟩ := hcalls hperforms w₁ .refl hreader ⟨0⟩ _ hwrapper rfl deferring rfl
    (some ⟨0⟩) none args
  exact hyields

/-- The answer of the member comes back from the read as the method that the object keeps, and from
the call as the method that was looked up for the call. -/
theorem kept_not_identical : ∃ (r : ScriptValue) (w' : World Catalog) (f : ObjectId)
    (w₁ : World Catalog) (r' : ScriptValue) (w₂ : World Catalog),
    withKept.Reachable ∧ (∀ text, (withKept.cache ⟨0⟩).get? (.callable text) = none) ∧
    (HostCallable.unbound (kept.method 50)).Performs Catalog kept ∧
    (Accessor.standard.get deferring (.object ⟨7, "Widget"⟩) ⟨0⟩ (.name "kept")).on withKept =
      (.ok (some r), w') ∧
    (Accessor.attributes.get deferring (.object ⟨7, "Widget"⟩) ⟨0⟩ (.name "kept")).on withKept =
      (.ok (some (.object f)), w₁) ∧
    (f.call (some ⟨0⟩) none (.object ⟨0⟩) []).on w₁ = (.ok r', w₂) ∧
    w'.heap.crossIn r = .callable (.unbound (kept.method 50)) ∧
    (w₂.heap.crossIn r').identical (w'.heap.crossIn r) = false := by
  exact ⟨_, _, _, _, _, _, withKept_reachable.reachable, fun _ => rfl, kept.performs_method 50, rfl,
    rfl, rfl, rfl, rfl⟩

end Catalog

end Membrane
