import Membrane.Arity
import Membrane.Number.Binary64

/-!
# Values on both sides

`ScriptValue` is what script code computes with and `HostValue` what the embedding program computes
with. A script object is known by its place in the heap. Host objects, functions, methods and
classes are records that carry the address they were made at, so that two of them are the same
exactly when the records are equal. A body of host code is known by a token only; the embedding
program says what it does.
-/

namespace Membrane

/-! ## Script values -/

/-- The place of a script object in the heap. -/
structure ObjectId where
  index : Nat
deriving DecidableEq, Repr

/-- A number of script code. Integers and floating-point numbers are kept apart, and so are the
three values that no digits denote. -/
inductive ScriptNumber where
  | integer (value : Int64)
  | float (value : Binary64)
  | nan
  | infinity
  | negInfinity
deriving DecidableEq, Repr

/-- A value of script code. -/
inductive ScriptValue where
  | undefined
  | null
  | boolean (value : Bool)
  | string (text : String)
  | number (value : ScriptNumber)
  | object (id : ObjectId)
deriving DecidableEq, Repr

/-! ## Host values -/

/-- The token of a body of host code. -/
structure Code where
  index : Nat
deriving DecidableEq, Repr

/-- A host object: its address and the name of its type. -/
structure HostObject where
  address : Nat
  type : String
deriving DecidableEq, Repr

/-- How a class makes its instances: it sets up a new object of one type, or it runs a body that
answers with any value. -/
inductive Maker where
  | factory (type : String) (initializer : Code)
  | custom (body : Code)
deriving DecidableEq, Repr

/-- A host type that can be instantiated. -/
structure HostClass where
  address : Nat
  name : String
  arity : Arity
  maker : Maker
deriving DecidableEq, Repr

/-- A free function or closure, anonymous when it has no name. -/
structure HostFunction where
  address : Nat
  name : Option String
  arity : Arity
  body : Code
deriving DecidableEq, Repr

/-- The members that every callable or class has of itself. -/
inductive Reflector where
  | callableArity
  | callableName
  | callableCall
  | className
  | classNew
deriving DecidableEq, Repr

/-- What a method does: run host code, for receivers of one type only if `guard` names it, or answer
about its receiver. -/
inductive MethodBody where
  | code (body : Code) (guard : Option String)
  | reflector (reflector : Reflector)
deriving DecidableEq, Repr

/-- A method detached from any receiver. -/
structure HostMethod where
  address : Nat
  owner : String
  name : String
  arity : Arity
  body : MethodBody
deriving DecidableEq, Repr

mutual

/-- A value of the embedding program. -/
inductive HostValue where
  | nil
  | bool (value : Bool)
  | int (value : Int64)
  | float (value : Binary64)
  | str (text : String)
  | object (object : HostObject)
  | callable (callable : HostCallable)
  | hostClass (hostClass : HostClass)
  | script (value : ScriptValue)

/-- A function, a method with the receiver it runs on, or a method without one. -/
inductive HostCallable where
  | free (function : HostFunction)
  | bound (receiver : HostValue) (method : HostMethod)
  | unbound (method : HostMethod)

end

deriving instance DecidableEq for HostValue, HostCallable
deriving instance Repr for HostValue, HostCallable

/-- A method as an object or class reports it. It has an address of its own only if every look-up
yields the same method. -/
structure Member where
  owner : String
  name : String
  arity : Arity
  body : MethodBody
  address : Option Nat := none
deriving DecidableEq, Repr

/-- A run of host code that script code asks for: of a member of a value on that value, of a
callable, or of a class that makes an instance. -/
inductive Invocation where
  | member (receiver : HostValue) (member : Member) (args : List HostValue)
  | callable (callable : HostCallable) (receiver : Option HostValue) (args : List HostValue)
  | hostClass (hostClass : HostClass) (args : List HostValue)
deriving DecidableEq, Repr

end Membrane
