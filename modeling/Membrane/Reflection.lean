import Membrane.View

/-!
# Members of host values

Objects have the members that the embedding program reports. Callables and classes have members of
their own: `arity`, `call` and, unless anonymous, `name` of a callable; `name`, `new` and the static
members of a class. No other value has any.
-/

namespace Membrane

/-- A reflective member of callables or classes. -/
def Reflector.member : Reflector → Member
  | callableArity => ⟨"Callable", "arity", .exactly 0, .reflector callableArity, none⟩
  | callableName => ⟨"Callable", "name", .exactly 0, .reflector callableName, none⟩
  | callableCall => ⟨"Callable", "call", .atLeast 0, .reflector callableCall, none⟩
  | className => ⟨"Class", "name", .exactly 0, .reflector className, none⟩
  | classNew => ⟨"Class", "new", .atLeast 0, .reflector classNew, none⟩

/-- The member of a callable under a name. -/
def HostCallable.member? (c : HostCallable) (name : String) : Option Member :=
  match name with
  | "arity" => some Reflector.callableArity.member
  | "name" => if c.name?.isSome then some Reflector.callableName.member else none
  | "call" => some Reflector.callableCall.member
  | _ => none

/-- The members that a callable lists. -/
def HostCallable.members (c : HostCallable) : List String :=
  ["arity", "call"] ++ if c.name?.isSome then ["name"] else []

variable {σ : Type} [Reflective σ]

namespace HostClass

/-- The static members of a class. A class that sets up objects of one type has none. -/
def statics (s : σ) (c : HostClass) : List String :=
  match c.maker with
  | .factory .. => []
  | .custom _ => Reflective.statics s c

/-- The static method of a class under a name. -/
def static? (s : σ) (c : HostClass) (name : String) : Option Member :=
  match c.maker with
  | .factory .. => none
  | .custom _ => Reflective.static? s c name

/-- The member of a class under a name: its own first, then the static ones. -/
def member? (s : σ) (c : HostClass) (name : String) : Option Member :=
  match name with
  | "name" => some Reflector.className.member
  | "new" => some Reflector.classNew.member
  | _ => c.static? s name

/-- Whether a value is an instance: an object of the type that the class sets up, or what the
embedding program takes for one. -/
def isInstance (v : View σ) (c : HostClass) (value : HostValue) : Bool :=
  match c.maker with
  | .factory type _ => match value with
    | .object o => o.type == type
    | _ => false
  | .custom _ => Reflective.isInstance v c value

end HostClass

namespace HostValue

/-- The members that a value lists. -/
def members (s : σ) : HostValue → List String
  | .object o => Reflective.members s o
  | .callable c => c.members
  | .hostClass c => ["name", "new"] ++ c.statics s
  | _ => []

/-- The member of a value under a name. -/
def member? (s : σ) (value : HostValue) (name : String) : Option Member :=
  match value with
  | .object o => Reflective.member? s o name
  | .callable c => c.member? name
  | .hostClass c => c.member? s name
  | _ => none

/-- Whether a value has a member under a name. -/
def respondsTo (s : σ) (value : HostValue) (name : String) : Bool := (value.member? s name).isSome

/-- Whether a field of the value stands behind a name. -/
def hasField (s : σ) (value : HostValue) (name : String) : Bool :=
  match value with
  | .object o => Reflective.hasField s o name
  | _ => false

end HostValue

end Membrane
