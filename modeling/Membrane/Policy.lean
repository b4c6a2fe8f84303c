import Membrane.Error

/-!
# Policies

A policy is what wrappers are built under: a configuration, the strategy by which properties are
looked up on a host value, and a converter. The configuration names the tag of object texts, the
choice of strategy and the order in which ids are listed. A converter decides about each value that
crosses: refuse it, replace it, or leave it to the standard crossing.
-/

namespace Membrane

/-! ## Configuration -/

/-- Which strategy a configuration asks for: the one in force when the policy is made, or attribute
access. -/
inductive AccessChoice where
  | inForce
  | attributes
deriving DecidableEq, Repr

/-- All choices. -/
def AccessChoice.all : List AccessChoice := [inForce, attributes]

/-- The written names of the choices. -/
def AccessChoice.name : AccessChoice → String
  | inForce => "default"
  | attributes => "attribute"

/-- The order of an object's own ids before those of its host: the newest first, or as defined. -/
inductive IdOrder where
  | newestFirst
  | asDefined
deriving DecidableEq, Repr

/-- All orders. -/
def IdOrder.all : List IdOrder := [newestFirst, asDefined]

/-- The written names of the orders. -/
def IdOrder.name : IdOrder → String
  | newestFirst => "compat"
  | asDefined => "source"

/-- What can be configured. -/
structure Config where
  /-- The tag in the text of a wrapped object. -/
  tag : String := "rust"
  access : AccessChoice := .inForce
  idOrder : IdOrder := .newestFirst
deriving DecidableEq, Repr

/-! ## Strategies -/

/-- How property operations on a host value are answered. `standard` reads every member without
parameters as a property, `attributes` only those that have a writer or a field behind them.
`transparent` leaves everything to the wrapper, `deny` refuses reads and writes. -/
inductive Accessor where
  | standard
  | attributes
  | transparent
  | deny
deriving DecidableEq, Repr

/-- The name of a strategy. -/
def Accessor.name : Accessor → String
  | standard => "default"
  | attributes => "attribute"
  | transparent => "fallback"
  | deny => "deny"

/-! ## Converters -/

/-- Decides about values that cross. `incoming` sees a script value with the name of its type,
`outgoing` a host value with the name of its class; both refuse by an error, replace by a value, or
leave the value to the standard crossing. -/
structure Converter where
  incoming : String → ScriptValue → Except ScriptError (Option HostValue)
  outgoing : String → HostValue → Except ScriptError (Option ScriptValue)

/-- Leaves every value to the standard crossing. -/
def Converter.standard : Converter := ⟨fun _ _ => .ok none, fun _ _ => .ok none⟩

/-- Refuses incoming values by type and outgoing ones by class, and replaces outgoing strings if a
replacement is given. -/
def Converter.filtering (refuseIn refuseOut : List String) (replacement : Option ScriptValue) :
    Converter where
  incoming type _ :=
    if type ∈ refuseIn then .error (.reported .range (type ++ " is not accepted")) else .ok none
  outgoing className value :=
    if className ∈ refuseOut then .error (.reported .reference (className ++ " is not exported"))
    else match value with
      | .str _ => .ok replacement
      | _ => .ok none

/-! ## Policies -/

/-- What a wrapper is built under. -/
structure Policy where
  config : Config
  accessor : Accessor
  converter : Converter

/-- The policy of a configuration, given the strategy in force. -/
def Policy.ofConfig (inForce : Accessor) (config : Config) : Policy where
  config := config
  accessor := match config.access with
    | .inForce => inForce
    | .attributes => .attributes
  converter := .standard

end Membrane
