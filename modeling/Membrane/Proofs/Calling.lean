import Membrane.Proofs.Arguments

/-!
# What a call comes to

A call offers values to the converter in a fixed order: the arguments as they fit the arity of what
is called, then the receiver if that is handed on. The first value that is refused ends the call
before any host code has run. If all are admitted, one body runs once on what they crossed as, and
its answer is offered to the converter in turn.
-/

namespace Membrane

variable {σ : Type}

/-! ## What is run -/

/-- Only the wrapper of a class runs one. -/
theorem Subject.eq_constructor {subject : Subject} {c : HostClass}
    (h : subject.callee? = some (.hostClass c)) : subject = .constructor c := by
  cases subject with
  | object o => cases h
  | function f => cases h
  | constructor k =>
    cases h
    rfl

namespace Callee

/-- A callee that is given the receiver it asks for has a body to run. -/
theorem Receives.exists_body {callee : Callee} {policy : Policy} {h : Heap} {this : ScriptValue}
    {receiver : Option HostValue} (hreceiver : callee.Receives policy h this receiver)
    (hostArgs : List HostValue) : ∃ b, (callee.invocation receiver hostArgs).body? = some b := by
  cases callee with
  | hostClass c => exact ⟨_, rfl⟩
  | callable c =>
    cases c with
    | free f => exact ⟨_, rfl⟩
    | bound r m => exact ⟨_, rfl⟩
    | unbound m =>
      cases receiver with
      | some r => exact ⟨_, rfl⟩
      | none => cases hreceiver

theorem args_invocation (callee : Callee) (receiver : Option HostValue)
    (hostArgs : List HostValue) : (callee.invocation receiver hostArgs).args = hostArgs := by
  cases callee <;> rfl

end Callee

/-! ## The whole call -/

/-- Asking for a wrapper yields one, and leaves the host's side as it is. -/
theorem exists_on_wrap (site : Site) (subject : Subject) (w : World σ) :
    ∃ id w', (wrap site subject).on w = (.ok id, w') ∧ w'.host = w.host ∧ w'.runs = w.runs := by
  have hruns := runs_wrap site subject w
  rw [on_wrap] at hruns ⊢
  cases hknown : w.wrapper? site subject with
  | some id => exact ⟨id, _, rfl, rfl, (w.alike_note rfl).runs⟩
  | none =>
    rw [hknown] at hruns
    exact ⟨w.heap.next, _, rfl, World.host_pushWrapper .., hruns⟩

/-- Every host value has a script form, and giving it leaves the host's side as it is. -/
theorem exists_on_crossOut (site : Site) (value : HostValue) (w : World σ) :
    ∃ result w', (crossOut site value).on w = (.ok result, w') ∧ w'.host = w.host ∧
      w'.runs = w.runs := by
  have hwrapped : ∀ subject : Subject, ∃ result w',
      (crossOut site subject.value).on w = (.ok result, w') ∧ w'.host = w.host ∧
        w'.runs = w.runs := by
    intro subject
    obtain ⟨id, w', hwrap, hsame⟩ := exists_on_wrap site subject w
    exact ⟨.object id, w', on_crossOut hwrap, hsame⟩
  cases value with
  | object o => exact hwrapped (.object o)
  | callable c => exact hwrapped (.function c)
  | hostClass c => exact hwrapped (.constructor c)
  | nil => exact ⟨.null, w, rfl, rfl, rfl⟩
  | bool value => exact ⟨.boolean value, w, rfl, rfl, rfl⟩
  | int value => exact ⟨.number (.integer value), w, rfl, rfl, rfl⟩
  | float value => exact ⟨.number (.ofBinary64 value), w, rfl, rfl, rfl⟩
  | str text => exact ⟨.string text, w, rfl, rfl, rfl⟩
  | script value => exact ⟨value, w, rfl, rfl, rfl⟩

variable [Host σ]

/-- Some values were offered to the converter of a policy, and then a body was run once. -/
structure World.RanOnce (w : World σ) (policy : Policy) (offered : List ScriptValue)
    (i : Invocation) (b : HostBody) (w' : World σ) : Prop where
  body : i.body? = some b
  heap : w'.heap = w.heap
  contexts : w'.contexts = w.contexts
  host : w'.host = (w.directly (b.run i.args)).2
  runs : w'.runs = w.runs ++ [(i, (w.directly (b.run i.args)).1)]
  journal : w'.journal =
    (w.offer policy offered).journal ++ [.ran i (w.directly (b.run i.args)).1]

/-- The answer of host code is offered to the converter of a site. An answer that is refused keeps
what the host code did. -/
def World.Answers (w : World σ) (site : Site) (answer : HostValue)
    (result : Except ScriptError ScriptValue × World σ) : Prop :=
  match site.policy.converter.outgoing (w.view.className answer) answer with
  | .error e => result.1 = .error e ∧ w.Alike result.2
  | .ok (some replacement) => result.1 = .ok replacement ∧ w.Alike result.2
  | .ok none => result = (crossOut site answer).on (w.note (.outgoing answer (.ok none))) ∧
      ∃ value, result.1 = .ok value ∧ result.2.host = w.host ∧ result.2.runs = w.runs

theorem World.answers_toScript (w : World σ) (site : Site) (answer : HostValue) :
    w.Answers site answer ((toScript site answer).on w) := by
  unfold Answers
  rw [on_toScript]
  cases site.policy.converter.outgoing (w.view.className answer) answer with
  | error e => exact ⟨rfl, w.alike_note rfl⟩
  | ok decision =>
    cases decision with
    | some replacement => exact ⟨rfl, w.alike_note rfl⟩
    | none =>
      obtain ⟨value, w', hcross, hhost, hruns⟩ :=
        exists_on_crossOut site answer (w.note (.outgoing answer (.ok none)))
      dsimp only
      rw [hcross]
      exact ⟨rfl, value, rfl, hhost, hruns.trans (w.alike_note rfl).runs⟩

/-- A run of host code after values were offered. -/
theorem World.ranOnce_invoke (w : World σ) (policy : Policy) (offered : List ScriptValue)
    {i : Invocation} {b : HostBody} (hb : i.body? = some b) :
    w.RanOnce policy offered i b ((w.offer policy offered).invoke i).2 ∧
      ((w.offer policy offered).invoke i).1 = (w.directly (b.run i.args)).1 := by
  have hrun : ((w.offer policy offered).directly i.run) = w.directly (b.run i.args) := by
    rw [Invocation.run_of_body? hb]
    rfl
  have hruns : ((w.offer policy offered).invoke i).2.runs =
      (w.offer policy offered).runs ++ [(i, ((w.offer policy offered).directly i.run).1)] :=
    World.runs_note { w.offer policy offered with host := _ } _
  constructor
  · constructor
    · exact hb
    · rfl
    · rfl
    · exact congrArg Prod.snd hrun
    · rw [hruns, hrun, (w.alike_offer policy offered).runs]
    · show (w.offer policy offered).journal ++ [.ran i _] = _
      rw [← hrun]
      rfl
  · exact congrArg Prod.fst hrun

/-- What a run of host code comes to for script code after values were offered. -/
theorem World.on_hostCall_offer (w : World σ) (site : Site) (offered : List ScriptValue)
    {i : Invocation} {b : HostBody} (hb : i.body? = some b) :
    ∃ w₁, w.RanOnce site.policy offered i b w₁ ∧
      (∀ e, (w.directly (b.run i.args)).1 = .error e →
        (ScriptM.hostCall i >>= toScript site).on (w.offer site.policy offered) =
          (.error (.thrown (.object w.heap.next)), w₁.pushError e)) ∧
      ∀ answer, (w.directly (b.run i.args)).1 = .ok answer →
        w₁.Answers site answer
          ((ScriptM.hostCall i >>= toScript site).on (w.offer site.policy offered)) := by
  obtain ⟨hran, houtcome⟩ := w.ranOnce_invoke site.policy offered hb
  have hinvoke : (w.offer site.policy offered).invoke i =
      ((w.directly (b.run i.args)).1, _) := Prod.ext houtcome rfl
  refine ⟨_, hran, fun e he => ?_, fun answer hanswer => ?_⟩
  · rw [ScriptM.on_bind, ScriptM.on_hostCall, hinvoke, he]
    rfl
  · rw [ScriptM.on_bind, ScriptM.on_hostCall, hinvoke, hanswer]
    exact World.answers_toScript _ site answer

/-- **A call offers its values in order and then runs one body once.** Take a call of a wrapper that
can be called, under any converter and with any context, realm, receiver and arguments. If the
converter refuses one of the offered values, the call fails with the error of the first such value;
only the values up to it have been offered, and no host code has run. Otherwise the body of what is
called runs once on what the values crossed as: if it fails, its error is thrown as a new object,
and if not, its answer is offered to the converter. Arguments beyond a fixed arity count for
nothing, and arguments that are missing count as nulls. A class is constructed with as it is called,
on whatever receiver. -/
theorem World.call_offers_then_runs (w : World σ) {id : ObjectId} {v : Wrapper}
    (hv : w.heap.wrapper? id = some v) {callee : Callee} (hc : v.subject.callee? = some callee)
    (context : Option ContextId) (realm : Option Realm) (this : ScriptValue)
    (args : List ScriptValue) :
    ((∃ before value after e, callee.offered this args = before ++ value :: after ∧
        v.policy.RefusesAfter w.heap before value e ∧
        (id.call context realm this args).on w =
          (.error e, w.offer v.policy (before ++ [value])) ∧
        w.Alike (w.offer v.policy (before ++ [value]))) ∨
      ∃ hostArgs receiver b w₁,
        List.Forall₂ (v.policy.Admits w.heap) (callee.arity.fit .null args) hostArgs ∧
        callee.Receives v.policy w.heap this receiver ∧
        w.RanOnce v.policy (callee.offered this args) (callee.invocation receiver hostArgs) b w₁ ∧
        (∀ e, (w.directly (b.run hostArgs)).1 = .error e →
          (id.call context realm this args).on w =
            (.error (.thrown (.object w.heap.next)), w₁.pushError e)) ∧
        ∀ answer, (w.directly (b.run hostArgs)).1 = .ok answer →
          w₁.Answers ⟨v.policy, context, realm.or v.realm⟩ answer
            ((id.call context realm this args).on w)) ∧
    (callee.arity.isVariadic = false → callee.arity.required ≤ args.length → ∀ extra,
      (id.call context realm this (args ++ extra)).on w =
        (id.call context realm this args).on w) ∧
    (∀ count, args.length + count ≤ callee.arity.required →
      (id.call context realm this (args ++ List.replicate count .null)).on w =
        (id.call context realm this args).on w) ∧
    (∀ c, callee = .hostClass c → ∀ receiver,
      (id.construct context realm args).on w = (id.call context realm receiver args).on w) := by
  let site : Site := ⟨v.policy, context, realm.or v.realm⟩
  have hcallee : w.heap.callee? id context realm = some (callee, site) := by
    rw [Heap.callee?, hv, Option.bind_some, hc]
    rfl
  have hcall : ∀ receiver values, (id.call context realm receiver values).on w =
      (callee.call site receiver values).on w := by
    intro receiver values
    rw [ObjectId.call, ScriptM.on_get_bind, hcallee]
  have hfit : ∀ values, callee.arity.fit .null values = callee.arity.fit .null args →
      (id.call context realm this values).on w = (id.call context realm this args).on w := by
    intro values hvalues
    rw [hcall, hcall, Callee.call, hvalues, Callee.call]
  refine ⟨?_, fun hfixed hlong extra => hfit _ (Arity.fit_append hfixed hlong extra _),
    fun count hcount => hfit _ (Arity.fit_append_replicate hcount _), ?_⟩
  · rw [hcall]
    rcases callee.on_call site this args w with
      ⟨before, value, after, e, hvalues, hrefuses, h⟩ | ⟨hostArgs, receiver, hargs, hreceives, h⟩
    · exact .inl ⟨before, value, after, e, hvalues, hrefuses, h, w.alike_offer ..⟩
    · obtain ⟨b, hb⟩ := hreceives.exists_body hostArgs
      obtain ⟨w₁, hran, hfails, hanswers⟩ := w.on_hostCall_offer site (callee.offered this args) hb
      rw [callee.args_invocation] at hfails hanswers
      rw [h]
      exact .inr ⟨hostArgs, receiver, b, w₁, hargs, hreceives, hran, hfails, hanswers⟩
  · rintro c rfl receiver
    exact (on_call_eq_construct hv (Subject.eq_constructor hc) context realm receiver args).symm

namespace Catalog

/-- The wrapper of a function of two parameters, whose converter refuses truth values. -/
def selective : World Catalog :=
  (World.initial ⟨8, { definitions := #[⟨some "pair", .function .argumentCount⟩] }⟩
    .standard).after
    (.wrap ⟨⟨{}, .standard, .filtering ["boolean"] [] none⟩, none, none⟩ (.function (.free pair)))

/-- A truth value among the first two arguments fails the call before the function has run, and one
behind them counts for nothing. -/
theorem call_selective :
    (∃ w', (ObjectId.call ⟨0⟩ none none .undefined [.boolean true, .null]).on selective =
        (.error (.reported .range "boolean is not accepted"), w') ∧ selective.Alike w') ∧
      (ObjectId.call ⟨0⟩ none none .undefined [.null, .null, .boolean true]).on selective =
        (ObjectId.call ⟨0⟩ none none .undefined [.null, .null]).on selective := by
  have hv : selective.heap.wrapper? ⟨0⟩ =
      some ⟨.function (.free pair), ⟨{}, .standard, .filtering ["boolean"] [] none⟩, none, none⟩ :=
    rfl
  have hcalls := fun args => selective.call_offers_then_runs hv rfl none none .undefined args
  have hrefused : ¬ ∃ y, Policy.Admits ⟨{}, .standard, .filtering ["boolean"] [] none⟩
      selective.heap (.boolean true) y := by
    rintro ⟨y, hy⟩
    cases hy
  refine ⟨?_, (hcalls [.null, .null]).2.1 rfl (by decide) [.boolean true]⟩
  rcases (hcalls [.boolean true, .null]).1 with
    ⟨before, value, after, e, hvalues, hrefuses, hcall, halike⟩ | ⟨hostArgs, _, _, _, hargs, -⟩
  · cases before with
    | nil =>
      cases hvalues
      cases hrefuses.refused
      exact ⟨_, hcall, halike⟩
    | cons x rest =>
      obtain ⟨hostValues, hadmitted⟩ := hrefuses.admitted
      obtain rfl : ScriptValue.boolean true = x := (List.cons.inj hvalues).1
      cases hadmitted with
      | cons hfirst _ => exact absurd ⟨_, hfirst⟩ hrefused
  · cases hargs with
    | cons hfirst _ => exact absurd ⟨_, hfirst⟩ hrefused

end Catalog

end Membrane
