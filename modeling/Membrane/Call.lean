import Membrane.Object

/-!
# Calling and constructing

A call through a wrapper fits the arguments to the arity of what is called, lets them cross to the
host one by one, then the receiver if the callable has none of its own, runs the host code once and
lets its answer cross back. A class is called and constructed alike.
-/

namespace Membrane

/-- What a call runs: a callable, or a class that makes an instance. -/
inductive Callee where
  | callable (callable : HostCallable)
  | hostClass (hostClass : HostClass)

/-- What a call of a wrapper runs. A wrapped object cannot be called. -/
def Subject.callee? : Subject → Option Callee
  | .object _ => none
  | .function c => some (.callable c)
  | .constructor c => some (.hostClass c)

namespace Callee

/-- The declared arity. -/
def arity : Callee → Arity
  | callable c => c.arity
  | hostClass c => c.arity

/-- Whether the receiver of the call is handed on. -/
def takesReceiver : Callee → Bool
  | callable c => c.isUnbound
  | hostClass _ => false

/-- The run of host code that a call amounts to. -/
def invocation (receiver : Option HostValue) (args : List HostValue) : Callee → Invocation
  | callable c => .callable c receiver args
  | hostClass c => .hostClass c args

variable {σ : Type}

/-- The receiver of a call on the host's side, if one is handed on. -/
def receiver (callee : Callee) (policy : Policy) (this : ScriptValue) :
    ScriptM σ (Option HostValue) :=
  if callee.takesReceiver then some <$> toHost policy this else return none

/-- A call from script code. -/
def call [Host σ] (callee : Callee) (site : Site) (this : ScriptValue) (args : List ScriptValue) :
    ScriptM σ ScriptValue := do
  let hostArgs ← (callee.arity.fit .null args).mapM (toHost site.policy)
  let receiver ← callee.receiver site.policy this
  toScript site (← ScriptM.hostCall (callee.invocation receiver hostArgs))

end Callee

/-- The callee behind an object, with the place of a call: the policy of the wrapper, the context of
the caller, and the realm of the caller or else of the wrapper. -/
def Heap.callee? (h : Heap) (id : ObjectId) (context : Option ContextId) (realm : Option Realm) :
    Option (Callee × Site) :=
  (h.wrapper? id).bind fun w => w.subject.callee?.map (·, ⟨w.policy, context, realm.or w.realm⟩)

variable {σ : Type} [Host σ]

namespace ObjectId

/-- Calls an object. -/
def call (id : ObjectId) (context : Option ContextId) (realm : Option Realm) (this : ScriptValue)
    (args : List ScriptValue) : ScriptM σ ScriptValue := do
  match (← MonadState.get).heap.callee? id context realm with
  | some (callee, site) => callee.call site this args
  | none => ScriptM.fail (.notFunctionObject ((← ScriptM.view).objectText id))

/-- Constructs with an object, which has to wrap a class. -/
def construct (id : ObjectId) (context : Option ContextId) (realm : Option Realm)
    (args : List ScriptValue) : ScriptM σ ScriptValue := do
  match (← MonadState.get).heap.callee? id context realm with
  | some (.hostClass c, site) => (Callee.hostClass c).call site .undefined args
  | _ => ScriptM.fail (.notConstructorObject ((← ScriptM.view).objectText id))

/-- Whether a value is an instance of what an object wraps, which has to be a class. A wrapped
object is taken for the object itself; any other value first crosses to the host. -/
def hasInstance (id : ObjectId) (value : ScriptValue) : ScriptM σ Bool := do
  let v ← ScriptM.view
  match v.heap.wrapper? id with
  | some { subject := .constructor c, policy, .. } =>
    if value.isNullish then return false
    else match wrapped? v.heap value with
      | some o => return c.isInstance v (.object o)
      | none => return c.isInstance v (← toHost policy value)
  | _ => ScriptM.fail (.instanceOfNonConstructor (v.objectText id))
where
  /-- The host object behind a value. -/
  wrapped? (h : Heap) : ScriptValue → Option HostObject
    | .object id => match h.wrapper? id with
      | some { subject := .object o, .. } => some o
      | _ => none
    | _ => none

end ObjectId

end Membrane
