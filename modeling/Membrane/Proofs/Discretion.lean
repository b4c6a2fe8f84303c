import Membrane.Catalog.Running
import Membrane.Crossing
import Membrane.Proofs.Heap

/-!
# What is seen of script objects

Names, texts and crossings depend on what the script objects are, and on nothing that they have of
their own. `Heap.SameKinds` relates heaps with the same objects but for their own parts.

Host code is discreet about what some heaps differ in if it does the same in them. The embedding
programs that are given by data are discreet about all that script objects have of their own: they
look at them only for what they are.
-/

namespace Membrane

/-! ## Heaps of the same objects -/

/-- Two heaps hold objects of the same kinds at the same places. -/
def Heap.SameKinds (h h' : Heap) : Prop := ∀ id, h'.kind? id = h.kind? id

namespace Heap

variable {h h' : Heap}

theorem holds_iff_isSome_kind? {id : ObjectId} : h.Holds id ↔ (h.kind? id).isSome = true := by
  simp [Holds, kind?, get?]

namespace SameKinds

theorem holds (hk : h.SameKinds h') (id : ObjectId) : h'.Holds id ↔ h.Holds id := by
  rw [holds_iff_isSome_kind?, hk id, holds_iff_isSome_kind?]

theorem next (hk : h.SameKinds h') : h'.next = h.next := by
  have hle : ¬ h'.objects.size < h.objects.size := fun hlt =>
    Nat.lt_irrefl _ ((hk.holds ⟨h'.objects.size⟩).2 hlt)
  have hge : ¬ h.objects.size < h'.objects.size := fun hlt =>
    Nat.lt_irrefl _ ((hk.holds ⟨h.objects.size⟩).1 hlt)
  rw [Heap.next, Heap.next, Nat.le_antisymm (Nat.not_lt.1 hge) (Nat.not_lt.1 hle)]

theorem wrapper? (hk : h.SameKinds h') (id : ObjectId) : h'.wrapper? id = h.wrapper? id := by
  rw [Heap.wrapper?, hk id, Heap.wrapper?]

theorem push (hk : h.SameKinds h') (object : ScriptObject) :
    (h.push object).SameKinds (h'.push object) := by
  intro id
  rw [kind?_push, kind?_push, hk.next, hk id]

theorem setStore (hk : h.SameKinds h') (id : ObjectId) (store store' : Store) :
    (h.setStore id store).SameKinds (h'.setStore id store') := by
  intro x
  rw [kind?_setStore, kind?_setStore, hk x]

theorem isCallable (hk : h.SameKinds h') (id : ObjectId) : h'.isCallable id = h.isCallable id := by
  rw [Heap.isCallable, hk.wrapper? id, Heap.isCallable]

theorem typeOf (hk : h.SameKinds h') (value : ScriptValue) : h'.typeOf value = h.typeOf value := by
  cases value with
  | object id => rw [Heap.typeOf, hk.isCallable id, Heap.typeOf]
  | _ => rfl

theorem crossIn (hk : h.SameKinds h') (value : ScriptValue) :
    h'.crossIn value = h.crossIn value := by
  cases value with
  | object id => simp only [Heap.crossIn, hk.wrapper? id]
  | number n => cases n <;> rfl
  | _ => rfl

theorem letIn (hk : h.SameKinds h') (converter : Converter) (value : ScriptValue) :
    converter.letIn h' value = converter.letIn h value := by
  simp only [Converter.letIn, hk.typeOf, hk.crossIn]

section View

variable {σ : Type} (s : σ)

theorem objectText [Naming σ] (hk : h.SameKinds h') (id : ObjectId) :
    View.objectText ⟨h', s⟩ id = View.objectText ⟨h, s⟩ id := by
  simp only [View.objectText, hk id]

theorem objectClass [Naming σ] (hk : h.SameKinds h') (id : ObjectId) :
    View.objectClass ⟨h', s⟩ id = View.objectClass ⟨h, s⟩ id := by
  simp only [View.objectClass, hk id]

theorem render [Naming σ] (hk : h.SameKinds h') (value : ScriptValue) :
    View.render ⟨h', s⟩ value = View.render ⟨h, s⟩ value := by
  cases value with
  | object id => exact hk.objectText s id
  | _ => rfl

theorem inspect [Naming σ] (hk : h.SameKinds h') (value : ScriptValue) :
    View.inspect ⟨h', s⟩ value = View.inspect ⟨h, s⟩ value := by
  cases value with
  | object id =>
    exact congrArg (fun text => "ScriptValue::Object(" ++ text ++ ")") (hk.objectText s id)
  | _ => rfl

theorem className [Naming σ] (hk : h.SameKinds h') (value : HostValue) :
    View.className ⟨h', s⟩ value = View.className ⟨h, s⟩ value := by
  cases value with
  | script value => exact hk.typeOf value
  | _ => rfl

theorem inspectHost [Naming σ] (hk : h.SameKinds h') (value : HostValue) :
    View.inspectHost ⟨h', s⟩ value = View.inspectHost ⟨h, s⟩ value := by
  cases value with
  | script value =>
    exact congrArg (fun text => "HostValue::Script(" ++ text ++ ")") (hk.inspect s value)
  | _ => rfl

end View

end SameKinds

end Heap

/-! ## Discreet host code -/

variable {σ α β : Type} {related : Heap → Heap → Prop}

/-- The host code does the same in related heaps, and so makes nothing of what they differ in. -/
def HostM.Discreet (related : Heap → Heap → Prop) (act : HostM σ α) : Prop :=
  ∀ h h' : Heap, related h h' → act.run h' = act.run h

/-- Every body does the same in related heaps, whatever it is given. -/
def Runner.Discreet (related : Heap → Heap → Prop) (run : Runner σ) : Prop :=
  ∀ code receiver args, (run code receiver args).Discreet related

/-- An embedding program that makes nothing of what related heaps differ in. -/
structure Host.Discreet (related : Heap → Heap → Prop) (σ : Type) [Host σ] : Prop where
  run : Runner.Discreet related (Host.run : Runner σ)
  isInstance : ∀ (h h' : Heap) (s : σ) (c : HostClass) (value : HostValue), related h h' →
    Reflective.isInstance ⟨h', s⟩ c value = Reflective.isInstance ⟨h, s⟩ c value

/-- Who makes nothing of a difference makes nothing of a smaller one. -/
theorem Host.Discreet.mono [Host σ] {related' : Heap → Heap → Prop}
    (hr : Subrelation related related') (hd : Host.Discreet related' σ) :
    Host.Discreet related σ where
  run code receiver args h h' hh := hd.run code receiver args h h' (hr hh)
  isInstance h h' s c value hh := hd.isInstance h h' s c value (hr hh)

namespace HostM.Discreet

theorem pure (a : α) : Discreet related (Pure.pure a : HostM σ α) := fun _ _ _ => rfl

theorem throw (e : HostError) : Discreet related (MonadExcept.throw e : HostM σ α) :=
  fun _ _ _ => rfl

theorem get : Discreet related (MonadState.get : HostM σ (HostSide σ)) := fun _ _ _ => rfl

theorem fresh : Discreet related (HostM.fresh : HostM σ Nat) := fun _ _ _ => rfl

theorem modifyState (f : σ → σ) : Discreet related (HostM.modifyState f) := fun _ _ _ => rfl

theorem bind {act : HostM σ α} {next : α → HostM σ β} (hact : Discreet related act)
    (hnext : ∀ a, Discreet related (next a)) : Discreet related (act >>= next) := by
  intro h h' hk
  simp only [ReaderT.run_bind, hact h h' hk, fun a => hnext a h h' hk]

theorem discard {act : HostM σ α} (hact : Discreet related act) :
    Discreet related (discard act) := by
  intro h h' hk
  show (Functor.map _ (act.run h') : ExceptT HostError (StateM (HostSide σ)) Unit) = _
  rw [hact h h' hk]
  rfl

/-- What is looked at through a view may be names and texts of values. -/
theorem viewing {next : View σ → HostM σ α} (hnext : ∀ v, Discreet related (next v))
    (hview : ∀ h h' s, related h h' → next ⟨h', s⟩ = next ⟨h, s⟩) :
    Discreet related (HostM.view >>= next) := by
  intro h h' hk
  have hlooked : ∀ h : Heap, (HostM.view >>= next).run h =
      (MonadState.get : ExceptT HostError (StateM (HostSide σ)) (HostSide σ)) >>= fun side =>
        (next ⟨h, side.state⟩).run h := fun _ => rfl
  rw [hlooked, hlooked]
  congr 1
  funext side
  rw [hview h h' side.state hk, hnext _ h h' hk]

end HostM.Discreet

/-! ## Runs of host code -/

section Running

variable {run : Runner σ} (hrun : run.Discreet related) (args : List HostValue)
include hrun

theorem HostClass.discreet_instantiateWith (c : HostClass) :
    (c.instantiateWith run args).Discreet related := by
  unfold instantiateWith
  split
  · refine HostM.Discreet.fresh.bind fun address => ?_
    exact (hrun _ _ _).discard.bind fun _ => .pure _
  · exact hrun _ _ _

variable [Naming σ]

/-- The class names in the messages are the same if the objects are of the same kinds. -/
theorem HostValue.discreet_answer (hr : Subrelation related Heap.SameKinds) (receiver : HostValue)
    (owner : String) (body : MethodBody) :
    (receiver.answer run owner body args).Discreet related := by
  unfold answer
  split
  · split
    · exact hrun _ _ _
    · refine .viewing (fun v => .throw _) fun h h' s hk => ?_
      rw [(hr hk).className s]
  · exact .pure _
  · exact .pure _
  · exact .pure _
  · exact HostClass.discreet_instantiateWith hrun args _
  · refine .viewing (fun v => .throw _) fun h h' s hk => ?_
    rw [(hr hk).className s]

mutual

theorem HostValue.discreet_performWith (hr : Subrelation related Heap.SameKinds) (owner : String)
    (body : MethodBody) :
    ∀ receiver : HostValue, (receiver.performWith run owner body args).Discreet related
  | .callable c => by
    rw [HostValue.performWith]
    split
    · exact HostCallable.discreet_callWith hr c
    · exact HostValue.discreet_answer hrun args hr _ owner body
  | .nil | .bool _ | .int _ | .float _ | .str _ | .object _ | .hostClass _ | .script _ =>
    HostValue.discreet_answer hrun args hr _ owner body

theorem HostCallable.discreet_callWith (hr : Subrelation related Heap.SameKinds) :
    ∀ c : HostCallable, (c.callWith run args).Discreet related
  | .free f => by
    rw [HostCallable.callWith]
    exact hrun _ _ _
  | .bound receiver m => by
    rw [HostCallable.callWith]
    exact HostValue.discreet_performWith hr m.owner m.body receiver
  | .unbound m => by
    rw [HostCallable.callWith]
    exact .throw _

end

theorem HostCallable.discreet_invokeWith (hr : Subrelation related Heap.SameKinds)
    (c : HostCallable) (receiver : Option HostValue) :
    (c.invokeWith run receiver args).Discreet related := by
  unfold invokeWith
  split
  · exact HostValue.discreet_performWith hrun args hr _ _ _
  · exact discreet_callWith hrun args hr _

end Running

/-- Discreet bodies make every run of host code discreet, if what they make nothing of is not what
the script objects are. -/
theorem Host.Discreet.invocation [Host σ] (hr : Subrelation related Heap.SameKinds)
    (hd : Host.Discreet related σ) (i : Invocation) :
    (i.run : HostM σ HostValue).Discreet related := by
  cases i with
  | member receiver m args => exact HostValue.discreet_performWith hd.run args hr _ _ receiver
  | callable c receiver args => exact HostCallable.discreet_invokeWith hd.run args hr c receiver
  | hostClass c args => exact HostClass.discreet_instantiateWith hd.run args c

/-! ## Embedding programs given by data -/

namespace Catalog

open HostM.Discreet

theorem discreet_integer (absent : Int64) (value : Option HostValue) :
    (integer absent value).Discreet Heap.SameKinds := by
  unfold integer
  split
  · exact .pure _
  · exact .pure _
  · refine .viewing (fun v => .throw _) fun h h' s hk => ?_
    rw [hk.inspectHost s]

theorem discreet_add (a b : Int64) : (add a b).Discreet Heap.SameKinds := by
  unfold add
  dsimp only
  split
  · exact .pure _
  · exact .throw _

theorem discreet_reach (object : Option HostObject) : (reach object).Discreet Heap.SameKinds := by
  refine HostM.Discreet.get.bind fun side => ?_
  split
  · exact .pure _
  · exact .throw _

section Running

variable {run : Runner Catalog} (hrun : run.Discreet Heap.SameKinds) (object : Option HostObject)
  (receiver : Option HostValue) (args : List HostValue)

theorem discreet_store (name : String) (value answer : HostValue) :
    (perform.store object name value answer).Discreet Heap.SameKinds :=
  (discreet_reach object).bind fun _ => (modifyState _).bind fun _ => .pure _

include hrun

theorem discreet_runArgument (rest : List HostValue) :
    (runArgument run args receiver rest).Discreet Heap.SameKinds := by
  unfold runArgument
  split
  · exact HostCallable.discreet_invokeWith hrun _ (fun hk => hk) _ _
  · refine .viewing (fun v => .throw _) fun h h' s hk => ?_
    rw [hk.inspectHost s]

theorem discreet_perform (action : Action HostValue) :
    (perform run action object receiver args).Discreet Heap.SameKinds := by
  cases action with
  | const value => exact .pure _
  | get name => exact (discreet_reach object).bind fun _ => .pure _
  | set name => exact discreet_store object name _ _
  | increment name =>
    refine (discreet_reach object).bind fun r => (discreet_integer _ _).bind fun now => ?_
    refine (discreet_integer _ _).bind fun step => (discreet_add now step).bind fun sum => ?_
    exact discreet_store object name _ _
  | argument position => exact .pure _
  | argumentCount => exact .pure _
  | self =>
    cases receiver with
    | some value => exact .pure _
    | none => exact .throw _
  | raise error => exact .throw _
  | getIndex => exact (discreet_reach object).bind fun _ => .pure _
  | setIndex => exact discreet_store object _ _ _
  | size => exact (discreet_reach object).bind fun _ => .pure _
  | invoke => exact discreet_runArgument hrun none args _
  | invokeOn => exact discreet_runArgument hrun _ args _

omit hrun in
theorem discreet_setUp (setup : Setup) : (setUp setup object args).Discreet Heap.SameKinds := by
  unfold setUp
  cases setup.failure with
  | some error => exact .throw _
  | none =>
    cases object with
    | some o => exact (modifyState _).bind fun _ => .pure _
    | none => exact .pure _

theorem discreet_execute (d : Definition) :
    (execute run d receiver args).Discreet Heap.SameKinds := by
  have hrecord : ∀ shown, (execute.record d args shown).Discreet Heap.SameKinds :=
    fun _ => modifyState _
  unfold execute
  split
  · exact (hrecord _).bind fun _ => discreet_perform hrun _ _ _ _
  · exact (hrecord _).bind fun _ => discreet_perform hrun _ _ _ _
  · exact (hrecord _).bind fun _ => discreet_perform hrun _ _ _ _
  · exact (hrecord _).bind fun _ => discreet_setUp _ _ _

end Running

theorem discreet_runWithin (depth : Nat) : (runWithin depth).Discreet Heap.SameKinds := by
  induction depth with
  | zero => exact fun _ _ _ => .pure _
  | succ depth ih =>
    intro code receiver args
    refine HostM.Discreet.get.bind fun side => ?_
    split
    · exact discreet_execute ih receiver args _
    · exact .pure _

/-- Embedding programs given by data look at script objects only for what they are. -/
theorem discreet : Host.Discreet Heap.SameKinds Catalog where
  run _ _ args := discreet_runWithin (args.length + 1) _ _ _
  isInstance h h' s c value hk := by
    show (s.class? c).any _ = (s.class? c).any _
    rw [hk.className s]

end Catalog

end Membrane
