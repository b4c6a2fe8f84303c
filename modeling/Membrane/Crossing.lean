import Membrane.Script

/-!
# Values that cross

A host value that crosses to script code becomes a primitive or a wrapper. A context remembers the
wrapper of each host value by its identity, so that the same value becomes the same wrapper; without
a context every crossing makes a new one. A wrapper that crosses back becomes the value that it
wraps, and any other object crosses as it is. The converter of the policy comes first in both
directions.
-/

namespace Membrane

/-- Where a value crosses: the policy, the context that remembers wrappers, and the realm that new
wrappers join. -/
structure Site where
  policy : Policy
  context : Option ContextId := none
  realm : Option Realm := none

variable {σ : Type}

/-! ## What a context remembers -/

/-- The content remembered in a context under a key, if it is of the kind asked for; else what is
built, which is remembered in place of any other content. Without a context nothing is remembered.
-/
def remember (context : Option ContextId) (key : Identity) (kind : EntryKind)
    (build : ScriptM σ kind.Content) : ScriptM σ kind.Content := do
  match (← get).known? context key kind with
  | some content =>
    ScriptM.note (.asked context key ⟨kind, content⟩ false)
    return content
  | none =>
    let content ← build
    modify (·.keep context key ⟨kind, content⟩)
    ScriptM.note (.asked context key ⟨kind, content⟩ true)
    return content

/-! ## Wrappers -/

/-- A new wrapper, linked to the prototype that its realm has for it. -/
def Wrapper.make (site : Site) (subject : Subject) : ScriptM σ ObjectId :=
  ScriptM.allocate
    { kind := .wrapper ⟨subject, site.policy, site.context, site.realm⟩
      store := { prototype := site.realm.map subject.prototypeIn } }

/-- The wrapper of a host object, a callable or a class. Callables written alike share one. -/
def wrap (site : Site) (subject : Subject) : ScriptM σ ObjectId :=
  remember site.context subject.identity (.wrapper subject.kind) (Wrapper.make site subject)

/-! ## The standard crossing -/

/-- The script form of a host value, before any converter. -/
def crossOut (site : Site) : HostValue → ScriptM σ ScriptValue
  | .nil => return .null
  | .bool value => return .boolean value
  | .int value => return .number (.integer value)
  | .float value => return .number (.ofBinary64 value)
  | .str text => return .string text
  | .object o => return .object (← wrap site (.object o))
  | .callable c => return .object (← wrap site (.function c))
  | .hostClass c => return .object (← wrap site (.constructor c))
  | .script value => return value

/-- The host form of a script value, before any converter. -/
def Heap.crossIn (h : Heap) : ScriptValue → HostValue
  | .undefined | .null => .nil
  | .boolean value => .bool value
  | .string text => .str text
  | .number (.integer value) => .int value
  | .number value => .float value.toBinary64
  | .object id => match h.wrapper? id with
    | some w => w.subject.value
    | none => .script (.object id)

/-- A host value crosses to script code. -/
def toScript [Naming σ] (site : Site) (value : HostValue) : ScriptM σ ScriptValue := do
  let decision := site.policy.converter.outgoing ((← ScriptM.view).className value) value
  ScriptM.note (.outgoing value decision)
  match decision with
  | .error e => throw e
  | .ok (some replacement) => return replacement
  | .ok none => crossOut site value

/-- The host form of a script value, as a converter lets it cross. -/
def Converter.letIn (converter : Converter) (h : Heap) (value : ScriptValue) :
    Except ScriptError HostValue := do
  match ← converter.incoming (h.typeOf value) value with
  | some replacement => return replacement
  | none => return h.crossIn value

/-- A script value crosses to the host. -/
def toHost (policy : Policy) (value : ScriptValue) : ScriptM σ HostValue := do
  let outcome := policy.converter.letIn (← get).heap value
  ScriptM.note (.incoming value outcome)
  match outcome with
  | .ok admitted => return admitted
  | .error e => throw e

end Membrane
