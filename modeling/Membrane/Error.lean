import Membrane.Key
import Membrane.Value

/-!
# Errors on both sides

A host body fails with a `HostError`, which has a class and a message. Script code fails with a
`ScriptError`: a fault of one of the engine's own operations, an error that a converter, an accessor
or a script reports by kind and message, or any thrown value. The wording of the engine's faults is
in `Fault.message`.
-/

namespace Membrane

/-! ## Host errors -/

/-- A failure of host code. -/
structure HostError where
  className : String
  message : String
deriving DecidableEq, Repr

namespace HostError

/-- A failure while running. -/
def runtime (message : String) : HostError := ⟨"RuntimeError", message⟩

/-- A failure over the arguments of a call. -/
def argument (message : String) : HostError := ⟨"ArgumentError", message⟩

/-- A failure over the kind of a value. -/
def typeError (message : String) : HostError := ⟨"TypeError", message⟩

/-- A method without a receiver cannot run on its own. -/
def missingReceiver (rendering : String) : HostError :=
  argument ("unbound method " ++ rendering ++ " called without a receiver")

/-- A method for one type of receiver was given another value. -/
def wrongReceiver (owner className : String) : HostError :=
  typeError ("bind argument must be an instance of " ++ owner ++ ", got " ++ className)

/-- A reflective member was bound to a value of another kind. -/
def notA (className expected : String) : HostError :=
  typeError (className ++ " is not a " ++ expected)

/-- The written form: class and message. -/
def render (e : HostError) : String := e.className ++ ": " ++ e.message

end HostError

/-! ## Script errors -/

/-- The kinds of error that the engine itself knows. -/
inductive ErrorKind where
  | type
  | reference
  | range
deriving DecidableEq, Repr

namespace ErrorKind

/-- The name that script code sees. -/
def name : ErrorKind → String
  | type => "TypeError"
  | reference => "ReferenceError"
  | range => "RangeError"

/-- The name in running text. -/
def label : ErrorKind → String
  | type => "type error"
  | reference => "reference error"
  | range => "range error"

end ErrorKind

/-- What can go wrong in the engine's own operations. The texts are written forms of the value that
the operation was applied to. -/
inductive Fault where
  | notExtensible (key : PropertyKey)
  | notReadable (key : PropertyKey) (value : String)
  | notSearchable (key : PropertyKey) (value : String)
  | notWritable (key : PropertyKey) (value : String)
  | notFunction (value : String)
  | notFunctionObject (object : String)
  | notConstructor (value : String)
  | notConstructorObject (object : String)
  | instanceOfPrimitive (value : String)
  | instanceOfNonConstructor (object : String)
deriving DecidableEq, Repr

/-- The wording of a fault. -/
def Fault.message : Fault → String
  | notExtensible key => "Cannot add property " ++ key.render ++ ", object is not extensible"
  | notReadable key value => "Cannot read property '" ++ key.render ++ "' of " ++ value
  | notSearchable key value =>
    "Cannot use 'in' operator to search for '" ++ key.render ++ "' in " ++ value
  | notWritable key value => "Cannot set property '" ++ key.render ++ "' of " ++ value
  | notFunction value => value ++ " is not a function"
  | notFunctionObject object => "'" ++ object ++ "' is not a function"
  | notConstructor value => value ++ " is not a constructor"
  | notConstructorObject object => "'" ++ object ++ "' is not a constructor"
  | instanceOfPrimitive value => "right-hand side of 'instanceof' is not an object: " ++ value
  | instanceOfNonConstructor object => "right-hand side of 'instanceof' is not callable: " ++ object

/-- An exception on its way through script code. Every one can be caught. -/
inductive ScriptError where
  | fault (fault : Fault)
  | reported (kind : ErrorKind) (message : String)
  | thrown (value : ScriptValue)
deriving DecidableEq, Repr

/-- The kind and message of an error of the engine's own kinds. -/
def ScriptError.native? : ScriptError → Option (ErrorKind × String)
  | fault f => some (.type, f.message)
  | reported kind message => some (kind, message)
  | thrown _ => none

/-- The name of an error: its kind, or that of a thrown value. -/
def ScriptError.name (e : ScriptError) : String :=
  match e.native? with
  | some (kind, _) => kind.name
  | none => "Error"

end Membrane
