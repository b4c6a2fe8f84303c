import Membrane.Session.State

/-!
# Describing host code to a session

Objects, functions, methods and classes as a session describes them become entries of the catalog.
The constants of a description are looked up when it is taken in.
-/

namespace Membrane

/-- The word for a type of described objects. -/
def HostType.word : HostType → String
  | widget => "Widget"
  | gadget => "Gadget"
  | plain => "Plain"
  | labeled => "Labeled"

/-- The name of a type of described objects, with its arguments. -/
def HostType.name : HostType → String
  | labeled => "Labeled<i64>"
  | other => other.word

/-- Whether objects of the type have a class name, fields and an equality as described. -/
def HostType.hasProfile : HostType → Bool
  | widget | gadget => true
  | plain | labeled => false

/-- An action with its constants looked up. -/
def Action.resolve (action : Action HostTerm) : SessionM (Action HostValue) := do
  match action with
  | .const term => return .const (← SessionM.hostValue term)
  | .get name => return .get name
  | .set name => return .set name
  | .increment name => return .increment name
  | .argument position => return .argument position
  | .argumentCount => return .argumentCount
  | .self => return .self
  | .raise error => return .raise error
  | .getIndex => return .getIndex
  | .setIndex => return .setIndex
  | .size => return .size
  | .invoke => return .invoke
  | .invokeOn => return .invokeOn

namespace SessionM

/-- Takes in a body. -/
def define (label : Option String) (role : Role) : SessionM Code :=
  host do
    modifyGet fun side =>
      let (code, state) := side.state.define ⟨label, role⟩
      (code, { side with state })

/-- Takes in a method, for receivers of a type if it is a typed one. -/
def defineMethod (m : MethodTerm) (owner : String) (type : Option HostType) : SessionM Member := do
  let action ← m.action.resolve
  let guard := if m.typed then type.map HostType.name else none
  let code ← define (some m.name) (if guard.isSome then .stateMethod action else .method action)
  let address ← if m.shared then some <$> host HostM.fresh else pure none
  return ⟨m.owner.getD owner, m.name, m.arity, .code code guard, address⟩

/-- Takes in what objects of a type are like, and their state. -/
def defineProfile (type : HostType) (object : ObjectTerm) : SessionM (ObjectProfile × Fields) := do
  let methods ← object.methods.mapM fun m => defineMethod m type.word (some type)
  let fields ← object.state.mapM fun (name, term) => return (name, ← hostValue term)
  let members := object.members.getD (methods.map (·.name))
  let profile : ObjectProfile :=
    if type.hasProfile then
      ⟨object.className.getD type.name, methods, members, object.fields, object.likeness⟩
    else { className := type.name, methods, members }
  return (profile, fields)

/-- Makes an object. -/
def makeObject (type : HostType) (object : ObjectTerm) : SessionM HostValue := do
  let (profile, fields) ← defineProfile type object
  host do
    let o : HostObject := ⟨← HostM.fresh, type.name⟩
    HostM.modifyState fun c => { c with objects := c.objects.push ⟨o, profile, fields⟩ }
    return .object o

/-- Makes a function. -/
def makeFunction (name : Option String) (arity : Arity) (action : Action HostTerm) :
    SessionM HostValue := do
  let code ← define name (.function (← action.resolve))
  return .callable (.free ⟨← host HostM.fresh, name, arity, code⟩)

/-- Makes a method without a receiver. -/
def makeMethod (type : Option HostType) (m : MethodTerm) : SessionM HostValue := do
  let owner := (type.map HostType.word).getD ""
  let member ← defineMethod m owner type
  return .callable (.unbound (member.method (← host HostM.fresh)))

/-- Makes a class. -/
def makeClass (term : ClassTerm) : SessionM HostValue := do
  let (name, arity, maker, instances, statics) ← match term with
    | .factory type name arity parameters object failure => do
      let (profile, fields) ← defineProfile type object
      let initializer ← define (some (name.getD type.word))
        (.initializer { profile, fields, parameters, failure })
      pure (name.getD type.name, arity, Maker.factory type.name initializer, [], [])
    | .custom name arity action instances statics => do
      let body ← define (some name) (.function (← action.resolve))
      let statics ← statics.mapM fun m => defineMethod { m with typed := false } name none
      pure (name, arity, Maker.custom body, instances, statics)
  host do
    let c : HostClass := ⟨← HostM.fresh, name, arity, maker⟩
    HostM.modifyState fun catalog =>
      { catalog with classes := catalog.classes.push ⟨c, instances, statics⟩ }
    return .hostClass c

end SessionM

end Membrane
