import Membrane.Reflection

/-!
# Running host code

`Host` is the embedding program: what it tells about its objects and classes, and what its bodies
do. A body runs in `HostM`: it sees the script objects, changes the state of the embedding program,
makes new addresses, and may fail, which keeps the changes made so far.

Callables, methods and classes run through one function `run` for bodies, which is a parameter of
the definitions here, so that a body that itself runs a callable can say how.
-/

namespace Membrane

/-- A computation of host code. -/
abbrev HostM (σ : Type) := ReaderT Heap (ExceptT HostError (StateM (HostSide σ)))

/-- How a body runs, given its receiver if it has one, and its arguments. -/
abbrev Runner (σ : Type) := Code → Option HostValue → List HostValue → HostM σ HostValue

/-- An embedding program. -/
class Host (σ : Type) extends Reflective σ where
  /-- Runs a body. A class initializer runs on the new object. -/
  run : Runner σ

/-- The next free address. -/
def HostSide.fresh {σ : Type} (side : HostSide σ) : Nat × HostSide σ :=
  (side.next, { side with next := side.next + 1 })

namespace HostM

variable {σ : Type}

/-- Takes the next free address. -/
def fresh : HostM σ Nat := modifyGet HostSide.fresh

/-- What host code can look at. -/
def view : HostM σ (View σ) := do return ⟨← read, (← get).state⟩

/-- Changes the state of the embedding program. -/
def modifyState (f : σ → σ) : HostM σ Unit :=
  modify fun side => { side with state := f side.state }

end HostM

/-- The method that a member stands for: with the address of its own, or one made at this look-up.
-/
def Member.method (m : Member) (address : Nat) : HostMethod :=
  ⟨m.address.getD address, m.owner, m.name, m.arity, m.body⟩

/-! ## For any way to run bodies -/

section Running

variable {σ : Type} [Naming σ]

/-- Makes an instance of a class: a new object that the initializer has set up, or the answer of the
body of the class. -/
def HostClass.instantiateWith (run : Runner σ) (c : HostClass) (args : List HostValue) :
    HostM σ HostValue := do
  match c.maker with
  | .factory type initializer =>
    let object : HostObject := ⟨← HostM.fresh, type⟩
    discard <| run initializer (some (.object object)) args
    return .object object
  | .custom body => run body none args

/-- Whether a value is an object of the type that a guard names. Without a guard every value will
do. -/
def HostValue.passes (value : HostValue) (guard : Option String) : Bool :=
  match guard, value with
  | none, _ => true
  | some type, .object o => o.type == type
  | some _, _ => false

/-- Runs the body of a method on a receiver, the reflective call of a callable excepted. -/
def HostValue.answer (run : Runner σ) (receiver : HostValue) (owner : String) (body : MethodBody)
    (args : List HostValue) : HostM σ HostValue :=
  match body, receiver with
  | .code code guard, _ =>
    if receiver.passes guard then run code (some receiver) args
    else do throw (.wrongReceiver owner ((← HostM.view).className receiver))
  | .reflector .callableArity, .callable c => return .int c.arity.word.toInt64
  | .reflector .callableName, .callable c => return (c.name?.map HostValue.str).getD .nil
  | .reflector .className, .hostClass c => return .str c.name
  | .reflector .classNew, .hostClass c => c.instantiateWith run args
  | .reflector r, _ => do throw (.notA ((← HostM.view).className receiver) r.member.owner)

mutual

/-- Runs the body of a method on a receiver. -/
def HostValue.performWith (run : Runner σ) (owner : String) (body : MethodBody)
    (args : List HostValue) : HostValue → HostM σ HostValue
  | .callable c =>
    if body = .reflector .callableCall then c.callWith run args
    else (HostValue.callable c).answer run owner body args
  | receiver => receiver.answer run owner body args

/-- Runs a callable that is given no receiver. -/
def HostCallable.callWith (run : Runner σ) (args : List HostValue) :
    HostCallable → HostM σ HostValue
  | .free f => run f.body none args
  | .bound receiver m => receiver.performWith run m.owner m.body args
  | .unbound m => throw (.missingReceiver m.render)

end

/-- Runs a callable. Only a method without a receiver takes the one given. -/
def HostCallable.invokeWith (run : Runner σ) (c : HostCallable) (receiver : Option HostValue)
    (args : List HostValue) : HostM σ HostValue :=
  match c, receiver with
  | .unbound m, some receiver => receiver.performWith run m.owner m.body args
  | c, _ => c.callWith run args

end Running

/-! ## With the bodies of an embedding program -/

variable {σ : Type} [Host σ]

/-- Makes an instance of a class. -/
def HostClass.instantiate (c : HostClass) (args : List HostValue) : HostM σ HostValue :=
  c.instantiateWith Host.run args

/-- Runs a member of a value on that value. -/
def HostValue.perform (receiver : HostValue) (m : Member) (args : List HostValue) :
    HostM σ HostValue :=
  receiver.performWith Host.run m.owner m.body args

/-- Runs a callable. Only a method without a receiver takes the one given. -/
def HostCallable.invoke (c : HostCallable) (receiver : Option HostValue) (args : List HostValue) :
    HostM σ HostValue :=
  c.invokeWith Host.run receiver args

/-- Runs the host code that is asked for. -/
def Invocation.run : Invocation → HostM σ HostValue
  | .member receiver m args => receiver.perform m args
  | .callable c receiver args => c.invoke receiver args
  | .hostClass c args => c.instantiate args

end Membrane
