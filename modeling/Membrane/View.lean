import Membrane.Number.Layout
import Membrane.World

/-!
# Looking at values

Names and texts of values on either side. They depend on the kinds of the script objects and on what
the embedding program tells about its objects and classes, which it does through `Naming` and
`Reflective`; a `View` holds both, and looking changes neither.
-/

namespace Membrane

/-- What can be looked at: the script objects and the state of the embedding program. -/
structure View (σ : Type) where
  heap : Heap
  state : σ

/-- How an embedding program with states in `σ` names its objects. -/
class Naming (σ : Type) where
  /-- The name of the class of an object. -/
  className : σ → HostObject → String

/-- What an embedding program tells about its objects and about the classes that it instantiates
itself. -/
class Reflective (σ : Type) extends Naming σ where
  /-- The members that an object lists: readers by name, writers with a trailing `=`, index access
  as `[]` and `[]=`. -/
  members : σ → HostObject → List String
  /-- The method of an object under a name. -/
  member? : σ → HostObject → String → Option Member
  /-- Whether a field stands behind a name. -/
  hasField : σ → HostObject → String → Bool
  /-- Equality of objects by value. -/
  equal : σ → HostObject → HostObject → Bool
  /-- The names of the static members of a class. -/
  statics : σ → HostClass → List String
  /-- The static method of a class under a name. -/
  static? : σ → HostClass → String → Option Member
  /-- Whether a value is an instance of a class without a type of its own. -/
  isInstance : View σ → HostClass → HostValue → Bool

/-- What can be looked at of a world. -/
def World.view {σ : Type} (w : World σ) : View σ := ⟨w.heap, w.host.state⟩

/-! ## Script objects -/

/-- Whether the object at a place can be called. -/
def Heap.isCallable (h : Heap) (id : ObjectId) : Bool :=
  match h.wrapper? id with
  | some w => match w.subject with
    | .object _ => false
    | .function _ | .constructor _ => true
  | none => false

/-- The name of the type of a script value. -/
def Heap.typeOf (h : Heap) : ScriptValue → String
  | .undefined => "undefined"
  | .null => "null"
  | .boolean _ => "boolean"
  | .string _ => "string"
  | .number _ => "number"
  | .object id => if h.isCallable id then "function" else "object"

/-- The written form of a number. -/
def ScriptNumber.render : ScriptNumber → String
  | integer value => toString value.toInt
  | float value => Layout.plain.render value
  | nan => "NaN"
  | infinity => "Infinity"
  | negInfinity => "-Infinity"

/-- The form of a number for inspection, which shows its kind. -/
def ScriptNumber.inspect : ScriptNumber → String
  | integer value => "Integer(" ++ toString value.toInt ++ ")"
  | float value => "Float(" ++ Layout.literal.render value ++ ")"
  | nan => "NaN"
  | infinity => "PositiveInfinity"
  | negInfinity => "NegativeInfinity"

/-- The declared name of a callable, empty for a closure. -/
def HostCallable.displayName (c : HostCallable) : String := c.name?.getD ""

/-- The text of a function, whose code is not shown. -/
def functionText (name : String) : String := "function " ++ name ++ "() \x7b [native code] \x7d"

namespace View

variable {σ : Type} [Naming σ]

/-- The class name of the object at a place. -/
def objectClass (v : View σ) (id : ObjectId) : String :=
  match v.heap.kind? id with
  | some (.ordinary className) => className
  | some (.wrapper w) => match w.subject with
    | .object o => Naming.className v.state o
    | .function _ | .constructor _ => "Function"
  | some (.hostError _) => "Error"
  | none => ""

/-- The text of the object at a place. -/
def objectText (v : View σ) (id : ObjectId) : String :=
  match v.heap.kind? id with
  | some (.ordinary className) => "[object " ++ className ++ "]"
  | some (.wrapper w) => match w.subject with
    | .object o => "[" ++ w.policy.config.tag ++ " " ++ Naming.className v.state o ++ "]"
    | .function c => functionText c.displayName
    | .constructor c => functionText c.name
  | some (.hostError e) => e.render
  | none => ""

/-- The written form of a script value. -/
def render (v : View σ) : ScriptValue → String
  | .undefined => "undefined"
  | .null => "null"
  | .boolean value => toString value
  | .string text => text
  | .number value => value.render
  | .object id => v.objectText id

/-- The form of a script value for inspection. -/
def inspect (v : View σ) : ScriptValue → String
  | .undefined => "ScriptValue::Undefined"
  | .null => "ScriptValue::Null"
  | .boolean value => "ScriptValue::Boolean(" ++ toString value ++ ")"
  | .string text => "ScriptValue::String(" ++ quoted text ++ ")"
  | .number value => "ScriptValue::Number(" ++ value.inspect ++ ")"
  | .object id => "ScriptValue::Object(" ++ v.objectText id ++ ")"

/-- The written form of a script error. -/
def renderError (v : View σ) (e : ScriptError) : String :=
  match e with
  | .thrown value => "Uncaught exception: " ++ v.render value
  | .fault f => "Uncaught " ++ ErrorKind.type.label ++ ": " ++ f.message ++ "."
  | .reported kind message => "Uncaught " ++ kind.label ++ ": " ++ message ++ "."

/-! ## Host values -/

/-- The name of the class of a host value. -/
def className (v : View σ) : HostValue → String
  | .nil => "NilClass"
  | .bool _ => "bool"
  | .int _ => "i64"
  | .float _ => "f64"
  | .str _ => "String"
  | .object o => Naming.className v.state o
  | .callable _ => "Callable"
  | .hostClass _ => "Class"
  | .script value => v.heap.typeOf value

/-- The form of a host value for inspection. -/
def inspectHost (v : View σ) : HostValue → String
  | .nil => "HostValue::Nil"
  | .bool value => "HostValue::Bool(" ++ toString value ++ ")"
  | .int value => "HostValue::Int(" ++ toString value.toInt ++ ")"
  | .float value => "HostValue::Float(" ++ Layout.plain.render value ++ ")"
  | .str text => "HostValue::Str(" ++ quoted text ++ ")"
  | .object o => "HostValue::Object(" ++ Naming.className v.state o ++ ")"
  | .callable c => "HostValue::Callable(" ++ c.render ++ ")"
  | .hostClass c => "HostValue::Class(" ++ c.name ++ ")"
  | .script value => "HostValue::Script(" ++ v.inspect value ++ ")"

end View

/-- Equality of host values: floats as numbers, objects as the embedding program says, everything
else by identity. -/
def View.equal {σ : Type} [Reflective σ] (v : View σ) : HostValue → HostValue → Bool :=
  HostValue.equalBy (Reflective.equal v.state)

end Membrane
