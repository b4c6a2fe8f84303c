import Membrane.Catalog
import Membrane.Operation

/-!
# Commands of a session

A session is a list of steps over named registers: script values, host values, policies, contexts
and realms, and one stack of contexts. A term is a value or the content of a register. A step is a
command and the register that keeps its result.
-/

namespace Membrane

/-! ## Terms -/

/-- A script value, or the register that holds it. -/
inductive ScriptTerm where
  | value (value : ScriptValue)
  | register (name : String)

/-- A host value, the register that holds it, or a script value handed over as it is. -/
inductive HostTerm where
  | value (value : HostValue)
  | register (name : String)
  | script (term : ScriptTerm)

/-! ## Descriptions of host code -/

/-- A method as described: `typed` methods take only receivers of the type they are described for,
and a shared method is the same at every look-up. -/
structure MethodTerm where
  name : String
  arity : Arity
  action : Action HostTerm
  owner : Option String
  typed : Bool
  shared : Bool

/-- An object as described. -/
structure ObjectTerm where
  methods : List MethodTerm
  members : Option (List String)
  fields : List String
  likeness : Likeness
  state : List (String × HostTerm)
  className : Option String

/-- The types of described objects. Objects of the last two types keep no profile but their methods
and members. -/
inductive HostType where
  | widget
  | gadget
  | plain
  | labeled
deriving DecidableEq

/-- A class as described: it sets up objects of one type, or runs a body. -/
inductive ClassTerm where
  | factory (type : HostType) (name : Option String) (arity : Arity) (parameters : List String)
      (object : ObjectTerm) (failure : Option HostError)
  | custom (name : String) (arity : Arity) (action : Action HostTerm) (instances : List String)
      (statics : List MethodTerm)

/-! ## Places -/

/-- The context and the realm of an operation, by name. -/
structure Place where
  context : Option String := none
  realm : Option String := none

/-- Where a host value is wrapped: in a context, in the current context of the stack, or under a
policy with a context or without. -/
inductive WrapPlace where
  | context (name : Option String)
  | current
  | policy (name : String) (context : Option String)

/-- The objects of a realm. -/
inductive RealmObject where
  | global
  | objectPrototype
  | functionPrototype

/-- The error of a step that throws: of a kind of the engine, or any value. -/
inductive ErrorTerm where
  | native (kind : ErrorKind) (message : String)
  | thrown (value : ScriptTerm)

/-- A converter as described. -/
structure ConverterTerm where
  refuseIn : List String
  refuseOut : List String
  replacement : Option ScriptTerm

/-- What is remembered by hand: a text or an integer. -/
inductive RawEntry where
  | text (value : String)
  | integer (value : Int64)

/-! ## Commands -/

mutual

/-- What a step does. -/
inductive Command where
  -- policies, contexts and realms
  | policy (name : String) (config : Config) (accessor : Option Accessor)
      (converter : Option ConverterTerm)
  | policyFile (name : String) (text : String)
  | openContext (name : String) (policy : Option String)
  | dropContext (name : String)
  | isAlive (name : String)
  | revive (name : String)
  | sameContext (a b : String)
  | remembered (name : String)
  | remember (context : Option String) (key : Identity) (entry : RawEntry)
  | realm (name : String)
  | realmObject (realm : String) (which : RealmObject)
  | push (name : String)
  | pop
  | current
  | setInForce (accessor : Accessor)
  -- the host's side
  | host (value : HostTerm)
  | hostObject (type : HostType) (object : ObjectTerm)
  | hostFunction (name : Option String) (arity : Arity) (action : Action HostTerm)
  | hostMethod (type : Option HostType) (method : MethodTerm)
  | hostClass (term : ClassTerm)
  | bind (method receiver : HostTerm)
  | unbind (method : HostTerm)
  | memberOf (value : HostTerm) (name : String)
  | send (value : HostTerm) (name : String) (args : List HostTerm)
  | invoke (callable : HostTerm) (receiver : Option HostTerm) (args : List HostTerm)
  | describeClass (hostClass : HostTerm)
  | instantiate (hostClass : HostTerm) (args : List HostTerm)
  | isHostInstance (hostClass value : HostTerm)
  | describeCallable (callable : HostTerm)
  | sameCallable (a b : HostTerm)
  | describeHost (value : HostTerm)
  | responds (value : HostTerm) (name : String)
  | compareHost (a b : HostTerm)
  | hostState (value : HostTerm)
  | sameIdentity (a b : HostTerm)
  -- crossing
  | wrap (value : HostTerm) (place : WrapPlace) (realm : Option String)
  | unwrapWith (value : ScriptTerm) (policy : Option String)
  | unwrap (value : ScriptTerm)
  | describeWrapper (value : ScriptTerm)
  | wrapError (error : HostError)
  -- the script's side
  | script (value : ScriptTerm)
  | ordinary (className : String)
  | define (object : ScriptTerm) (key : PropertyKey) (value : ScriptTerm)
  | erase (object : ScriptTerm) (key : PropertyKey)
  | preventExtensions (object : ScriptTerm)
  | own (object : ScriptTerm) (key : PropertyKey)
  | get (value : ScriptTerm) (key : PropertyKey)
  | has (value : ScriptTerm) (key : PropertyKey)
  | put (value : ScriptTerm) (key : PropertyKey) (content : ScriptTerm)
  | lookUp (object : ScriptTerm) (key : PropertyKey)
  | ids (object : ScriptTerm)
  | prototype (object : ScriptTerm)
  | setPrototype (object prototype : ScriptTerm)
  | call (value : ScriptTerm) (this : ScriptTerm) (args : List ScriptTerm) (place : Place)
  | callObject (object : ScriptTerm) (this : ScriptTerm) (args : List ScriptTerm) (place : Place)
  | callMethod (value : ScriptTerm) (name : String) (args : List ScriptTerm) (place : Place)
  | construct (value : ScriptTerm) (args : List ScriptTerm) (place : Place)
  | isInstanceOf (value hostClass : ScriptTerm)
  | compare (a b : ScriptTerm)
  | describe (value : ScriptTerm)
  | throwError (error : ErrorTerm)
  | catchError (error : ErrorTerm) (realm : Option String)
  | attempt (body : Step) (handler : Option Step) (register : String) (realm : Option String)

/-- A command, and the register that keeps its result. -/
inductive Step where
  | mk (command : Command) (register : Option String)

end

end Membrane
