import Membrane.Text.Quoted
import Membrane.Value

/-!
# Sameness of values

`ScriptNumber.same` and `ScriptValue.same` compare primitives by value and objects by place, with
the kinds of number kept apart. `HostValue.identical` compares primitives by value, floats by their
bits, and everything else by reference; a bound method is the same as another when both the method
and the receiver are. `Identity` is the key under which the wrapper of a host value is remembered:
objects and classes by reference, callables by their written form, so that callables written alike
share a key.
-/

namespace Membrane

/-! ## Script values -/

/-- The floating-point number that a number stands for. -/
def ScriptNumber.toBinary64 : ScriptNumber → Binary64
  | integer value => Binary64.ofInt value.toInt
  | float value => value
  | nan => Binary64.nan
  | infinity => Binary64.infinity
  | negInfinity => Binary64.negInfinity

/-- The number for a floating-point value: infinities and NaNs have kinds of their own. -/
def ScriptNumber.ofBinary64 (x : Binary64) : ScriptNumber :=
  match x.reading with
  | .nan => nan
  | .infinity false => infinity
  | .infinity true => negInfinity
  | .finite .. => float x

/-- Sameness of numbers: equal within one kind, floats as numbers. -/
def ScriptNumber.same : ScriptNumber → ScriptNumber → Bool
  | integer a, integer b => a == b
  | float a, float b => a.numericEq b
  | nan, nan => true
  | infinity, infinity => true
  | negInfinity, negInfinity => true
  | _, _ => false

/-- Sameness of script values: primitives by value, objects by place. -/
def ScriptValue.same : ScriptValue → ScriptValue → Bool
  | undefined, undefined => true
  | null, null => true
  | boolean a, boolean b => a == b
  | string a, string b => a == b
  | number a, number b => a.same b
  | object a, object b => a == b
  | _, _ => false

/-- Whether the value is `undefined` or `null`. -/
def ScriptValue.isNullish : ScriptValue → Bool
  | undefined | null => true
  | _ => false

/-- The place of an object; no other value has one. -/
def ScriptValue.object? : ScriptValue → Option ObjectId
  | object id => some id
  | _ => none

/-! ## Host values -/

mutual

/-- Identity of host values: primitives by value, floats by their bits, the rest by reference. -/
def HostValue.identical : HostValue → HostValue → Bool
  | .nil, .nil => true
  | .bool a, .bool b => a == b
  | .int a, .int b => a == b
  | .float a, .float b => a == b
  | .str a, .str b => a == b
  | .object a, .object b => a == b
  | .callable a, .callable b => a.sameAs b
  | .hostClass a, .hostClass b => a == b
  | .script a, .script b => a.same b
  | _, _ => false

/-- Whether two callables are of one kind and have the same body, and the same receiver if bound. -/
def HostCallable.sameAs : HostCallable → HostCallable → Bool
  | .free a, .free b => a == b
  | .bound r a, .bound s b => a == b && r.identical s
  | .unbound a, .unbound b => a == b
  | _, _ => false

end

/-- Equality of host values, given that of objects: floats as numbers, everything else by identity.
-/
def HostValue.equalBy (objects : HostObject → HostObject → Bool) : HostValue → HostValue → Bool
  | .float a, .float b => a.numericEq b
  | .object a, .object b => objects a b
  | a, b => a.identical b

/-- Whether the value is `nil`. -/
def HostValue.isNil : HostValue → Bool
  | nil => true
  | _ => false

/-! ## Callables -/

namespace HostCallable

/-- The declared arity. -/
def arity : HostCallable → Arity
  | free f => f.arity
  | bound _ m => m.arity
  | unbound m => m.arity

/-- The declared name; a closure has none. -/
def name? : HostCallable → Option String
  | free f => f.name
  | bound _ m => some m.name
  | unbound m => some m.name

/-- Whether the callable is a method without a receiver. -/
def isUnbound : HostCallable → Bool
  | unbound _ => true
  | _ => false

end HostCallable

/-- The written form of a function; a closure is written by its address. -/
def HostFunction.render (f : HostFunction) : String :=
  match f.name with
  | some name => "fn " ++ name
  | none => "closure@0x" ++ hexadecimal f.address

/-- The written form of a method. -/
def HostMethod.render (m : HostMethod) : String := "fn " ++ m.owner ++ "::" ++ m.name

/-- The written form of a callable. The receiver of a bound method is no part of it. -/
def HostCallable.render : HostCallable → String
  | free f => f.render
  | bound _ m => m.render ++ " (bound)"
  | unbound m => m.render

/-! ## Identity keys -/

/-- What the wrapper of a host value is remembered under. -/
inductive Identity where
  | object (object : HostObject)
  | hostClass (hostClass : HostClass)
  | callable (rendering : String)
deriving DecidableEq, Repr

namespace Identity

/-- The key of a callable is its written form. -/
def ofCallable (c : HostCallable) : Identity := callable c.render

/-- The key of a host value that is wrapped by reference. -/
def ofValue? : HostValue → Option Identity
  | .object o => some (object o)
  | .callable c => some (ofCallable c)
  | .hostClass c => some (hostClass c)
  | _ => none

/-- The written form of a key. -/
def render : Identity → String
  | object o => "object@0x" ++ hexadecimal o.address
  | hostClass c => "class@0x" ++ hexadecimal c.address
  | callable rendering => "callable " ++ rendering

end Identity

end Membrane
