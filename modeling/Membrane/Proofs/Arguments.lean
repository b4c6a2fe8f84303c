import Membrane.Catalog.Running
import Membrane.Proofs.Confinement

/-!
# The arguments that host code gets

A run of host code enters a body. The reflective members `call` and `new` have bodies that enter
another one, to which they hand their own arguments on as they are. So the arguments that come by one
of the routes fit what was asked for, but nothing fits them to a body behind it.
-/

namespace Membrane

variable {σ : Type}

/-! ## Bodies that a run enters -/

/-- A body of host code with what it runs on: a function, a method on a receiver, or a class that
makes an instance. -/
inductive HostBody where
  | function (function : HostFunction)
  | method (receiver : HostValue) (owner : String) (arity : Arity) (body : MethodBody)
  | hostClass (hostClass : HostClass)

/-- The declared arity. -/
def HostBody.arity : HostBody → Arity
  | function f => f.arity
  | method _ _ arity _ => arity
  | hostClass c => c.arity

/-- The run of the body on arguments. -/
def HostBody.run [Host σ] (args : List HostValue) : HostBody → HostM σ HostValue
  | function f => Host.run f.body none args
  | method receiver owner _ body => receiver.performWith Host.run owner body args
  | hostClass c => c.instantiate args

/-- The body that a callable enters. A method enters none without a receiver. -/
def HostCallable.body? (receiver : Option HostValue) : HostCallable → Option HostBody
  | free f => some (.function f)
  | bound r m => some (.method r m.owner m.arity m.body)
  | unbound m => receiver.map (.method · m.owner m.arity m.body)

/-- The body that a run enters first. -/
def Invocation.body? : Invocation → Option HostBody
  | member host m _ => some (.method host m.owner m.arity m.body)
  | callable c receiver _ => c.body? receiver
  | hostClass c _ => some (.hostClass c)

/-- The body of a reflective member hands its arguments on to another body. -/
inductive HostBody.HandsOn : HostBody → HostBody → Prop where
  | call (c : HostCallable) (owner : String) (arity : Arity) {b : HostBody}
      (entered : c.body? none = some b) :
      HandsOn (method (.callable c) owner arity (.reflector .callableCall)) b
  | new (c : HostClass) (owner : String) (arity : Arity) :
      HandsOn (method (.hostClass c) owner arity (.reflector .classNew)) (hostClass c)

/-- The run enters a body, as its first one or because another one hands its arguments on. -/
def Invocation.Enters (i : Invocation) (b : HostBody) : Prop :=
  ∃ first, i.body? = some first ∧ Relation.ReflTransGen HostBody.HandsOn first b

section Bodies

variable [Host σ]

theorem HostCallable.invoke_of_body? {c : HostCallable} {receiver : Option HostValue}
    {b : HostBody} (h : c.body? receiver = some b) (args : List HostValue) :
    (c.invoke receiver args : HostM σ HostValue) = b.run args := by
  cases c with
  | free f =>
    cases h
    cases receiver <;> rfl
  | bound r m =>
    cases h
    cases receiver <;> rfl
  | unbound m =>
    obtain ⟨r, rfl, rfl⟩ := Option.map_eq_some_iff.1 h
    rfl

/-- The reflective `call` of a callable runs it without a receiver. -/
theorem performWith_callableCall (c : HostCallable) (owner : String) (args : List HostValue) :
    ((HostValue.callable c).performWith Host.run owner (.reflector .callableCall) args :
      HostM σ HostValue) = c.invoke none args := by
  rw [HostValue.performWith, if_pos rfl]
  cases c <;> rfl

/-- A body that hands its arguments on does nothing else. -/
theorem HostBody.HandsOn.run {b b' : HostBody} (h : b.HandsOn b') (args : List HostValue) :
    (b.run args : HostM σ HostValue) = b'.run args := by
  cases h with
  | call c owner arity entered =>
    exact (performWith_callableCall c owner args).trans (HostCallable.invoke_of_body? entered args)
  | new c owner arity => rfl

theorem Invocation.run_of_body? {i : Invocation} {b : HostBody} (h : i.body? = some b) :
    (i.run : HostM σ HostValue) = b.run i.args := by
  cases i with
  | member host m args =>
    cases h
    rfl
  | callable c receiver args => exact HostCallable.invoke_of_body? h args
  | hostClass c args =>
    cases h
    rfl

omit [Host σ] in
theorem Invocation.arity_of_body? {i : Invocation} {b : HostBody} (h : i.body? = some b) :
    b.arity = i.arity := by
  cases i with
  | member host m args =>
    cases h
    rfl
  | callable c receiver args =>
    cases c with
    | free f =>
      cases h
      rfl
    | bound r m =>
      cases h
      rfl
    | unbound m =>
      obtain ⟨r, -, rfl⟩ := Option.map_eq_some_iff.1 h
      rfl
  | hostClass c args =>
    cases h
    rfl

/-- Every body that a run enters gets the arguments of the run. -/
theorem Invocation.Enters.run {i : Invocation} {b : HostBody} (h : i.Enters b) :
    (i.run : HostM σ HostValue) = b.run i.args := by
  obtain ⟨first, hfirst, hhanded⟩ := h
  induction hhanded with
  | refl => exact run_of_body? hfirst
  | tail _ hstep ih => exact ih.trans (hstep.run i.args)

end Bodies

/-! ## Calling a class -/

/-- A class is called as it is constructed with, whatever the receiver. -/
theorem on_call_eq_construct [Host σ] {w : World σ} {id : ObjectId} {v : Wrapper}
    (hv : w.heap.wrapper? id = some v) {c : HostClass} (hc : v.subject = .constructor c)
    (context : Option ContextId) (realm : Option Realm) (this : ScriptValue)
    (args : List ScriptValue) :
    (id.call context realm this args).on w = (id.construct context realm args).on w := by
  have hcallee : w.heap.callee? id context realm =
      some (.hostClass c, ⟨v.policy, context, realm.or v.realm⟩) := by
    rw [Heap.callee?, hv, Option.bind_some, hc]
    rfl
  rw [ObjectId.call, ScriptM.on_get_bind, hcallee, ObjectId.construct, ScriptM.on_get_bind, hcallee]
  rfl

/-! ## What a run hands over -/

/-- **What arguments host code gets.** Every run of host code that script code asks for comes by one
of the five routes. All the bodies that it enters get the same arguments, and each of them gets a
number of arguments that its arity asks for, with two exceptions: the run may be a write of one value
through a member under the name of a writer, and the arguments may be handed on to the body by a
reflective `call` or `new`. -/
theorem World.Reachable.arguments [Host σ] {w : World σ} (hw : w.Reachable) {i : Invocation}
    {outcome : Except HostError HostValue} (hran : (i, outcome) ∈ w.runs) :
    i.Routed σ ∧ ∀ b, i.Enters b →
      (i.run : HostM σ HostValue) = b.run i.args ∧
      (b.arity.Admits i.args.length ∨ i.IsWrite σ ∨ ∃ b', i.Enters b' ∧ b'.HandsOn b) := by
  have hrouted := hw.routed (i, outcome) hran
  refine ⟨hrouted, fun b hb => ⟨hb.run, ?_⟩⟩
  obtain ⟨first, hfirst, hhanded⟩ := hb
  -- only the first body is what the arguments were fitted to
  rcases hhanded.cases_tail with rfl | ⟨b', hb', hstep⟩
  · rw [Invocation.arity_of_body? hfirst]
    exact hrouted.admits.imp_right .inl
  · exact .inr (.inr ⟨b', ⟨first, hfirst, hb'⟩, hstep⟩)

namespace Catalog

/-- A function of two parameters, which answers with the number of its arguments. -/
def pair : HostFunction := ⟨7, some "pair", .exactly 2, ⟨0⟩⟩

/-- The run of the function that its reflective `call` without arguments leads to. -/
def runOfPair : Invocation :=
  .callable (.unbound (Reflector.callableCall.member.method 8)) (some (.callable (.free pair))) []

/-- The wrapper of the function, after that call. -/
def withPair : World Catalog :=
  (((World.initial ⟨8, { definitions := #[⟨some "pair", .function .argumentCount⟩] }⟩
    .standard).after (.wrap ⟨⟨{}, .standard, .standard⟩, none, none⟩ (.function (.free pair)))).after
    (.get ⟨0⟩ (.name "call"))).after (.call ⟨1⟩ none none (.object ⟨0⟩) [])

theorem withPair_reachable : withPair.Reachable := by
  refine ((World.Reachable.after (World.initial_reachable _ _).reachable ?wrapped).after ?read).after
    ?called
  case wrapped => exact World.serves_none _
  case read =>
    show Heap.Holds _ _
    decide
  case called => exact ⟨by decide, World.serves_none _⟩

theorem runs_withPair : withPair.runs = [(runOfPair, .ok (.int 0))] := rfl

/-- The body of the function is entered behind the body of `call`. -/
theorem enters_pair : runOfPair.Enters (.function pair) :=
  ⟨_, rfl, .single (.call (.free pair) "Callable" (.atLeast 0) rfl)⟩

/-- The function ran on what `call` was given. -/
theorem arguments_pair :
    (runOfPair.run : HostM Catalog HostValue) = (HostBody.function pair).run [] ∧
      ∃ b, runOfPair.Enters b ∧ b.HandsOn (.function pair) := by
  have hran : (runOfPair, Except.ok (HostValue.int 0)) ∈ withPair.runs := by
    rw [runs_withPair]
    exact List.mem_singleton_self _
  obtain ⟨hrun, hfits⟩ := (withPair_reachable.arguments hran).2 _ enters_pair
  refine ⟨hrun, ?_⟩
  rcases hfits with hfits | ⟨s, host, name, m, value, -, heq⟩ | hhanded
  · exact absurd hfits (by decide)
  · cases heq
  · exact hhanded

/-- A function of two parameters was run on no argument at all. -/
theorem pair_unfitted : ∃ (w : World Catalog) (i : Invocation)
    (outcome : Except HostError HostValue) (b : HostBody),
    w.Reachable ∧ (i, outcome) ∈ w.runs ∧ i.Enters b ∧ ¬ b.arity.Admits i.args.length ∧
      (i.run : HostM Catalog HostValue) = b.run i.args :=
  ⟨withPair, runOfPair, .ok (.int 0), .function pair, withPair_reachable,
    runs_withPair ▸ List.mem_singleton_self _, enters_pair, by decide, enters_pair.run⟩

end Catalog

end Membrane
