import Membrane.Catalog.Running
import Membrane.Context
import Membrane.Policy.File
import Membrane.Session.Command

/-!
# The state of a session

The registers of a session, the stack of running contexts, and the world that its steps change. A
register of a context keeps the place of the context for good and a handle of it until that is
dropped. A step fails with a script error, with a host error, or because it makes no sense.
-/

namespace Membrane

/-- Contents by name; the latest content of a name counts. -/
abbrev Registers (α : Type) := List (String × α)

/-- The register of a context: its place, and whether the register holds it. -/
structure ContextRegister where
  id : ContextId
  held : Bool

/-- The registers, the stack with the running context first, and the world. -/
structure Session where
  world : World Catalog
  scripts : Registers ScriptValue := []
  hosts : Registers HostValue := []
  policies : Registers Policy := []
  realms : Registers Realm := []
  contexts : Registers ContextRegister := []
  /-- The names that contexts were opened under. -/
  names : List (ContextId × String) := []
  stack : List ContextId := []

/-- A session before its first step. Addresses start above every word that a key may be given as. -/
def Session.initial : Session := { world := { host := { next := Nat.pow 2 64, state := {} } } }

/-- Why a step failed. -/
inductive Failure where
  | script (error : ScriptError)
  | host (error : HostError)
  | senseless

/-- A computation of a session. -/
abbrev SessionM := ExceptT Failure (StateM Session)

namespace SessionM

/-- Runs a script operation. -/
def script {α : Type} (act : ScriptM Catalog α) : SessionM α := do
  let (outcome, world) := act.run.run (← get).world
  modify fun s => { s with world }
  match outcome with
  | .ok a => return a
  | .error e => throw (.script e)

/-- Runs host code. -/
def host {α : Type} (act : HostM Catalog α) : SessionM α := do
  match ← script (ScriptM.attempt act) with
  | .ok a => return a
  | .error e => throw (.host e)

/-- What can be looked at. -/
def view : SessionM (View Catalog) := return (← get).world.view

/-- The content of a register, without which the step makes no sense. -/
def require {α : Type} (a : Option α) : SessionM α :=
  match a with
  | some a => return a
  | none => throw .senseless

/-! ## Terms -/

/-- The value of a script term. -/
def scriptValue : ScriptTerm → SessionM ScriptValue
  | .value v => return v
  | .register name => do require ((← get).scripts.lookup name)

/-- The value of a host term. -/
def hostValue : HostTerm → SessionM HostValue
  | .value v => return v
  | .register name => do require ((← get).hosts.lookup name)
  | .script term => return .script (← scriptValue term)

/-- The object of a script term. -/
def object (term : ScriptTerm) : SessionM ObjectId := do
  require (← scriptValue term).object?

/-- The ordinary object of a script term. -/
def ordinary (term : ScriptTerm) : SessionM ObjectId := do
  let id ← object term
  match (← get).world.heap.kind? id with
  | some (.ordinary _) => return id
  | _ => throw .senseless

/-- The host object of a term. -/
def hostObject (term : HostTerm) : SessionM HostObject := do
  match ← hostValue term with
  | .object o => return o
  | _ => throw .senseless

/-- The callable of a host term. -/
def callable (term : HostTerm) : SessionM HostCallable := do
  match ← hostValue term with
  | .callable c => return c
  | _ => throw .senseless

/-- The class of a host term. -/
def hostClass (term : HostTerm) : SessionM HostClass := do
  match ← hostValue term with
  | .hostClass c => return c
  | _ => throw .senseless

/-! ## Policies, contexts and realms by name -/

/-- The policy of a register; the default one if none is named. -/
def policy (name : Option String) : SessionM Policy := do
  match name with
  | some name => require ((← get).policies.lookup name)
  | none => return .ofConfig (← get).world.inForce {}

/-- The context that a register holds. -/
def context (name : String) : SessionM ContextId := do
  let r ← require ((← get).contexts.lookup name)
  if r.held then return r.id else throw .senseless

/-- The context that a register holds, if one is named. -/
def context? (name : Option String) : SessionM (Option ContextId) :=
  name.mapM context

/-- The realm of a register, if one is named. -/
def realm? (name : Option String) : SessionM (Option Realm) :=
  name.mapM fun name => do require ((← get).realms.lookup name)

/-- Lets go the handle that a register has of a context, if it has one. -/
def letGo (name : String) : SessionM Unit := do
  if let some r := (← get).contexts.lookup name then
    if r.held then
      modify fun s => { s with
        world := s.world.release r.id
        contexts := (name, { r with held := false }) :: s.contexts }

/-- The error of a term. -/
def error : ErrorTerm → SessionM ScriptError
  | .native kind message => return .reported kind message
  | .thrown term => return .thrown (← scriptValue term)

end SessionM

end Membrane
