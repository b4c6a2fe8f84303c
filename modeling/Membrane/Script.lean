import Membrane.Host

/-!
# Running script operations

A script operation runs in `ScriptM`: it changes the world and may fail with a script error, which
keeps the changes made so far. `hostCall` runs host code as a part of it: a failure of host code
becomes a thrown object that wraps the host error.
-/

namespace Membrane

/-- A computation of script code. -/
abbrev ScriptM (σ : Type) := ExceptT ScriptError (StateM (World σ))

namespace ScriptM

variable {σ : Type}

/-- Adds an object to the heap and gives its place. -/
def allocate (object : ScriptObject) : ScriptM σ ObjectId :=
  modifyGet fun w => (w.heap.next, { w with heap := w.heap.push object })

/-- Takes the next free address of the host's side. -/
def freshAddress : ScriptM σ Nat :=
  modifyGet fun w => let (address, host) := w.host.fresh; (address, { w with host := host })

/-- What can be looked at. -/
def view : ScriptM σ (View σ) := do return (← get).view

/-- Runs host code and gives its outcome. -/
def attempt {α : Type} (act : HostM σ α) : ScriptM σ (Except HostError α) :=
  modifyGet fun w =>
    let (outcome, host) := ((act.run w.heap).run).run w.host
    (outcome, { w with host := host })

/-- Throws an object that wraps a host error. -/
def throwHost {α : Type} (e : HostError) : ScriptM σ α := do
  let id ← allocate { kind := .hostError e }
  throw (.thrown (.object id))

/-- Enters an event in the journal. -/
def note (event : Event) : ScriptM σ Unit := modify (·.note event)

/-- Runs host code. If it fails, the error is wrapped and thrown. -/
def hostCall [Host σ] (invocation : Invocation) : ScriptM σ HostValue := do
  let outcome ← attempt invocation.run
  note (.ran invocation outcome)
  match outcome with
  | .ok value => return value
  | .error e => throwHost e

/-- The own part of the object at a place. -/
def store (id : ObjectId) : ScriptM σ Store := do return (← get).heap.store id

/-- Replaces the own part of the object at a place. -/
def setStore (id : ObjectId) (store : Store) : ScriptM σ Unit :=
  modify fun w => { w with heap := w.heap.setStore id store }

/-- Fails with a fault of the engine. -/
def fail {α : Type} (f : Fault) : ScriptM σ α := throw (.fault f)

end ScriptM

/-- A new realm: a global object and a function prototype, both linked to the object prototype. -/
def Realm.make {σ : Type} : ScriptM σ Realm := do
  let objectPrototype ← ScriptM.allocate { kind := .ordinary "Object" }
  let functionPrototype ← ScriptM.allocate
    { kind := .ordinary "Function", store := { prototype := some objectPrototype } }
  let global ← ScriptM.allocate
    { kind := .ordinary "global", store := { prototype := some objectPrototype } }
  return { global, objectPrototype, functionPrototype }

end Membrane
