import Membrane.Call

/-!
# Operators of script code

The operators on any value: property access, calls, `new`, `instanceof` and the two equalities, and
`try`. On a primitive the object operators fail with a fault that names the value. Loose equality of
two objects asks the host: wrapped objects are equal as the embedding program says, functions when
they are the same or written alike, classes when they are the same or have the same name.
-/

namespace Membrane

/-! ## Equality -/

/-- Equality without conversion. Numbers are compared as floating-point numbers, and no NaN equals
anything. -/
def ScriptValue.strictlyEquals : ScriptValue → ScriptValue → Bool
  | .number .nan, _ => false
  | _, .number .nan => false
  | .number a, .number b => a.toBinary64.numericEq b.toBinary64
  | a, b => a.same b

namespace View

variable {σ : Type} [Reflective σ]

/-- Whether the host takes two wrappers of one kind for equal. -/
def equivalent (v : View σ) (a b : ObjectId) : Bool :=
  match v.heap.wrapper? a, v.heap.wrapper? b with
  | some a, some b => match a.subject, b.subject with
    | .object x, .object y => Reflective.equal v.state x y
    | .function x, .function y => x.sameAs y || x.render == y.render
    | .constructor x, .constructor y => x == y || x.name == y.name
    | _, _ => false
  | _, _ => false

/-- Equality with conversion: `undefined` and `null` are equal, objects by place or as the host
says, everything else as without conversion. -/
def looselyEquals (v : View σ) : ScriptValue → ScriptValue → Bool
  | .undefined, .null | .null, .undefined => true
  | .object a, .object b => a == b || v.equivalent a b || v.equivalent b a
  | a, b => a.strictlyEquals b

end View

/-! ## Property access, calls and construction -/

variable {σ : Type} [Host σ]

namespace ScriptValue

/-- Reads a property; `undefined` where the look-up finds nothing. -/
def get (value : ScriptValue) (key : PropertyKey) : ScriptM σ ScriptValue := do
  match value with
  | .object id => return (← id.get? key).getD .undefined
  | _ => ScriptM.fail (.notReadable key ((← ScriptM.view).render value))

/-- Whether a property is found. -/
def has (value : ScriptValue) (key : PropertyKey) : ScriptM σ Bool := do
  match value with
  | .object id => id.has key
  | _ => ScriptM.fail (.notSearchable key ((← ScriptM.view).render value))

/-- Writes a property. -/
def put (value : ScriptValue) (key : PropertyKey) (content : ScriptValue) : ScriptM σ Unit := do
  match value with
  | .object id => id.put key content
  | _ => ScriptM.fail (.notWritable key ((← ScriptM.view).render value))

/-- Calls a value. -/
def call (value : ScriptValue) (context : Option ContextId) (realm : Option Realm)
    (this : ScriptValue) (args : List ScriptValue) : ScriptM σ ScriptValue := do
  let v ← ScriptM.view
  match value with
  | .object id =>
    if v.heap.isCallable id then id.call context realm this args
    else ScriptM.fail (.notFunction (v.render value))
  | _ => ScriptM.fail (.notFunction (v.render value))

/-- Reads a method of a value and calls it on the value. -/
def callMethod (value : ScriptValue) (name : String) (context : Option ContextId)
    (realm : Option Realm) (args : List ScriptValue) : ScriptM σ ScriptValue := do
  (← value.get (.name name)).call context realm value args

/-- Constructs with a value. -/
def construct (value : ScriptValue) (context : Option ContextId) (realm : Option Realm)
    (args : List ScriptValue) : ScriptM σ ScriptValue := do
  match value with
  | .object id => id.construct context realm args
  | _ => ScriptM.fail (.notConstructor ((← ScriptM.view).render value))

/-- Whether a value is an instance of another. -/
def isInstanceOf (value hostClass : ScriptValue) : ScriptM σ Bool := do
  match hostClass with
  | .object id => id.hasInstance value
  | _ => ScriptM.fail (.instanceOfPrimitive ((← ScriptM.view).render hostClass))

end ScriptValue

/-! ## Catching -/

/-- The value that a `catch` clause sees: a thrown value itself, or a new error object with the name
and the message of the error, linked to the object prototype of the realm. -/
def ScriptError.caught (e : ScriptError) (realm : Option Realm) : ScriptM σ ScriptValue :=
  match e with
  | .thrown value => return value
  | .fault f => materialize .type f.message
  | .reported kind message => materialize kind message
where
  /-- A new error object. -/
  materialize (kind : ErrorKind) (message : String) : ScriptM σ ScriptValue := do
    let store : Store := { prototype := realm.map Realm.objectPrototype }
    let named := (store.define (.name "name") (.string kind.name)).define
      (.name "message") (.string message)
    return .object (← ScriptM.allocate { kind := .ordinary kind.name, store := named })

/-- Runs a body. If it fails, its error is caught and handed to the handler; what the body has
changed stays. -/
def tryCatch {α : Type} (realm : Option Realm) (body : ScriptM σ α)
    (handler : ScriptValue → ScriptM σ α) : ScriptM σ α :=
  MonadExcept.tryCatch body fun e => do handler (← e.caught realm)

end Membrane
