import Membrane.Session.State

/-!
# Answers of a session

What a step answers with. An answer carries the values and objects that it is about; their texts are
read off them where the answer is shown.
-/

namespace Membrane

/-- How two script values compare: by the two equalities of script code and by sameness, and for
objects by place and as the host says. -/
structure Comparison where
  strict : Bool
  loose : Bool
  same : Bool
  sameObject : Option Bool
  equivalent : Option Bool

/-- What a step answers with. -/
inductive Answer where
  | nothing
  | absent
  | truth (value : Bool)
  | count (value : Nat)
  | script (value : ScriptValue)
  | host (value : HostValue)
  -- policies and contexts
  | policy (policy : Policy)
  | configError (error : ConfigError)
  | inForce (previous now : Accessor)
  | sameContext (same : Bool)
  | alive (alive : Bool)
  | remembered (built : Bool) (entry : RawEntry)
  | pushed (depth : Nat)
  | popped (name : Option String) (depth : Nat)
  | running (name : Option String) (depth : Nat)
  -- host values
  | hostValue (value : HostValue)
  | hostClass (hostClass : HostClass)
  | callable (callable : HostCallable)
  | responds (responds field : Bool)
  | hostComparison (identical equal : Bool)
  | sameIdentity (same : Bool)
  | fields (fields : Fields)
  | hostError (error : HostError)
  -- script values
  | scriptValue (value : ScriptValue)
  | comparison (comparison : Comparison)
  | keys (keys : List PropertyKey)
  | own (value : Option ScriptValue) (extensible : Bool)
  | wrapper (wrapper : Wrapper) (ownKeys : List PropertyKey)

/-- The outcome of a command: a value that a register can keep, the truth of a question of script
code, the end of an assignment, or another answer. -/
inductive Outcome where
  | script (value : ScriptValue)
  | host (value : HostValue)
  | truth (value : Bool)
  | done
  | answer (answer : Answer)

/-- The answer of an outcome. -/
def Outcome.toAnswer : Outcome → Answer
  | script value => .script value
  | host value => .host value
  | truth value => .truth value
  | done => .nothing
  | answer a => a

/-- The script value that an outcome counts as. -/
def Outcome.scriptValue? : Outcome → Option ScriptValue
  | script value => some value
  | truth value => some (.boolean value)
  | done => some .undefined
  | host _ | answer _ => none

/-- How two script values compare. -/
def View.comparison {σ : Type} [Reflective σ] (v : View σ) (a b : ScriptValue) : Comparison where
  strict := a.strictlyEquals b
  loose := v.looselyEquals a b
  same := a.same b
  sameObject := match a, b with
    | .object x, .object y => some (x = y)
    | _, _ => none
  equivalent := match a, b with
    | .object x, .object y => some (v.equivalent x y)
    | .object _, _ => some false
    | _, _ => none

/-- What there is to know of the object at a place as a wrapper. -/
def Heap.wrapperAnswer (h : Heap) (id : ObjectId) : Answer :=
  match h.kind? id with
  | some (.wrapper w) => .wrapper w (h.store id).keys
  | some (.hostError e) => .hostError e
  | some (.ordinary _) | none => .absent

end Membrane
