import Membrane.Host

/-!
# An embedding program given by data

A `Catalog` is an embedding program whose objects, classes and bodies are described by data. An
object has a list of named values as its state, methods, a list of members and a list of fields. A
body is one of a few simple actions on its arguments, its receiver and the state of its object. The
catalog also records each run of a body, in order.
-/

namespace Membrane

/-! ## Descriptions -/

/-- What a body does. Its constants are of type `α`: values, or terms for them. -/
inductive Action (α : Type) where
  /-- Answers with a value. -/
  | const (value : α)
  /-- Answers with a named value of the object, or `nil`. -/
  | get (name : String)
  /-- Stores the first argument under a name. -/
  | set (name : String)
  /-- Adds the first argument, or one, to the integer under a name. -/
  | increment (name : String)
  /-- Answers with an argument, or `nil`. -/
  | argument (position : Nat)
  /-- Answers with the number of arguments. -/
  | argumentCount
  /-- Answers with the receiver. -/
  | self
  /-- Fails. -/
  | raise (error : HostError)
  /-- Answers with the value under the name that the first argument stands for. -/
  | getIndex
  /-- Stores the second argument under the name that the first argument stands for. -/
  | setIndex
  /-- Answers with the number of named values. -/
  | size
  /-- Runs the first argument on the other arguments. -/
  | invoke
  /-- Runs the first argument on the arguments after the second, which is the receiver. -/
  | invokeOn
deriving Repr

/-- When two objects are equal by value. -/
inductive Likeness where
  | identity
  | always
  | never
  | state
deriving DecidableEq, Repr

/-- What an object is like, apart from its state. -/
structure ObjectProfile where
  className : String
  methods : List Member
  members : List String
  fields : List String := []
  likeness : Likeness := .identity
deriving Repr

/-- Named values in order of addition. An object may be described with several of one name, of which
the first one counts. -/
abbrev Fields := List (String × HostValue)

/-- What the initializer of a class does: it fails, or sets up an object whose named values are
those given, with the arguments stored under some names. -/
structure Setup where
  profile : ObjectProfile
  fields : Fields
  parameters : List String
  failure : Option HostError := none
deriving Repr

/-- What a body can reach of its receiver: nothing, only the state, or the value and the state; or
it sets up a new object. -/
inductive Role where
  | function (action : Action HostValue)
  | stateMethod (action : Action HostValue)
  | method (action : Action HostValue)
  | initializer (setup : Setup)
deriving Repr

/-- A body with the name that its runs are recorded under. -/
structure Definition where
  label : Option String
  role : Role
deriving Repr

/-- An object of the catalog. -/
structure ObjectRecord where
  object : HostObject
  profile : ObjectProfile
  fields : Fields
deriving Repr

/-- A class of the catalog. Only for a class that makes its instances by a body do the names of its
instances' classes and its static methods count. -/
structure ClassRecord where
  hostClass : HostClass
  instances : List String := []
  statics : List Member := []
deriving Repr

/-- One run of a body. -/
structure Run where
  label : Option String
  receiver : Option HostValue
  args : List HostValue
deriving Repr

/-- Everything that the embedding program knows. -/
structure Catalog where
  definitions : Array Definition := #[]
  objects : Array ObjectRecord := #[]
  classes : Array ClassRecord := #[]
  runs : Array Run := #[]
deriving Repr

/-! ## Named values -/

/-- The value under a name, or `nil`. -/
def Fields.read (fields : Fields) (name : String) : HostValue := (fields.lookup name).getD .nil

/-- Stores a value under a name: in place of the first one of this name, else at the end. -/
def Fields.write : Fields → String → HostValue → Fields
  | [], name, value => [(name, value)]
  | field :: rest, name, value =>
    if field.1 = name then (name, value) :: rest else field :: Fields.write rest name value

namespace Catalog

/-- The record of an object. -/
def record? (c : Catalog) (o : HostObject) : Option ObjectRecord :=
  c.objects.find? fun r => r.object = o

/-- The record of a class. -/
def class? (c : Catalog) (k : HostClass) : Option ClassRecord :=
  c.classes.find? fun r => r.hostClass = k

/-- Changes the named values of an object. -/
def writeField (c : Catalog) (o : HostObject) (name : String) (value : HostValue) : Catalog :=
  { c with objects := c.objects.map fun r =>
      if r.object = o then { r with fields := r.fields.write name value } else r }

/-- Adds a body and gives its token. -/
def define (c : Catalog) (d : Definition) : Code × Catalog :=
  (⟨c.definitions.size⟩, { c with definitions := c.definitions.push d })

/-- Equality of objects by value. Objects that are alike by their state hold values that are in turn
equal by value, to the given depth. -/
def equalWithin (c : Catalog) : Nat → HostObject → HostObject → Bool
  | 0, a, b => a == b
  | depth + 1, a, b =>
    match c.record? a, c.record? b with
    | some x, some y => match x.profile.likeness with
      | .identity => a == b
      | .always => true
      | .never => false
      | .state => a.type == b.type && x.fields.length == y.fields.length
          && (x.fields.zip y.fields).all fun (p, q) =>
            p.1 == q.1 && p.2.equalBy (equalWithin c depth) q.2
    | _, _ => a == b

instance : Naming Catalog where
  className c o := match c.record? o with
    | some r => r.profile.className
    | none => o.type

instance : Reflective Catalog where
  members c o := match c.record? o with
    | some r => r.profile.members
    | none => []
  member? c o name := (c.record? o).bind fun r => r.profile.methods.find? fun m => m.name = name
  hasField c o name := (c.record? o).any fun r => name ∈ r.profile.fields
  equal c a b := c.equalWithin (c.objects.size + 1) a b
  statics c k := match c.class? k with
    | some r => r.statics.map (·.name)
    | none => []
  static? c k name := (c.class? k).bind fun r => r.statics.find? fun m => m.name = name
  isInstance v k value := (v.state.class? k).any fun r => v.className value ∈ r.instances

end Catalog

end Membrane
