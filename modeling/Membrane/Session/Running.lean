import Membrane.Session.Answer
import Membrane.Session.Describing

/-!
# Running a session

Each step runs its command and, if that succeeds, keeps the outcome in its register. A step that
fails keeps nothing, and the session goes on. The answer of a step comes with the runs of host
bodies that it caused.
-/

namespace Membrane

namespace SessionM

/-! ## Policies, contexts and realms -/

/-- Keeps a policy under a name. -/
def keepPolicy (name : String) (policy : Policy) : SessionM Outcome := do
  modify fun s => { s with policies := (name, policy) :: s.policies }
  return .answer (.policy policy)

/-- Makes a policy. -/
def makePolicy (name : String) (config : Config) (accessor : Option Accessor)
    (converter : Option ConverterTerm) : SessionM Outcome := do
  let base := Policy.ofConfig (← get).world.inForce config
  let converter ← match converter with
    | some c => pure (.filtering c.refuseIn c.refuseOut (← c.replacement.mapM scriptValue))
    | none => pure base.converter
  keepPolicy name { base with accessor := accessor.getD base.accessor, converter }

/-- Opens a context under a name, which lets go an older one of the name. -/
def openContext (name : String) (policy : Policy) : SessionM Outcome := do
  letGo name
  modify fun s =>
    let (id, world) := s.world.openContext policy
    { s with
      world
      contexts := (name, ⟨id, true⟩) :: s.contexts
      names := (id, name) :: s.names }
  return .done

/-- The name that the running context was opened under, if there is one. -/
def runningName : SessionM (Option String) := do
  let s ← get
  return s.stack.head?.bind fun id => s.names.lookup id

/-- Gives the register of a context a handle again, if the context is still alive. -/
def revive (name : String) : SessionM Outcome := do
  let r ← require ((← get).contexts.lookup name)
  if (← get).world.isAlive r.id then
    if !r.held then
      modify fun s => { s with
        world := s.world.retain r.id
        contexts := (name, ⟨r.id, true⟩) :: s.contexts }
    return .answer (.truth true)
  else return .answer (.truth false)

/-- Takes the running context off the stack. -/
def pop : SessionM Outcome := do
  let name ← runningName
  if let some id := (← get).stack.head? then
    modify fun s => { s with world := s.world.release id, stack := s.stack.drop 1 }
  return .answer (.popped name (← get).stack.length)

/-- Remembers a text or an integer by hand, and tells whether it was not there before. -/
def rememberRaw (context : Option ContextId) (key : Identity) (entry : RawEntry) :
    SessionM Outcome := do
  match entry with
  | .text value =>
    let (built, content) ← tracked .text value
    return .answer (.remembered built (.text content))
  | .integer value =>
    let (built, content) ← tracked .integer value
    return .answer (.remembered built (.integer content))
where
  /-- The remembered content, and whether it is the given one, just built. -/
  tracked (kind : EntryKind) (content : kind.Content) : SessionM (Bool × kind.Content) := do
    let known := (← get).world.known? context key kind
    return (known.isNone, ← script (remember context key kind (return content)))

/-- Where a host value is to be wrapped. -/
def site (place : WrapPlace) (realm : Option Realm) : SessionM Site := do
  match place with
  | .context name => do
    let id ← context (← require name)
    require ((← get).world.contextSite id realm)
  | .current => do
    let id ← require (← get).stack.head?
    require ((← get).world.contextSite id realm)
  | .policy name contextName => do
    return ⟨← policy (some name), ← context? contextName, realm⟩

/-! ## Outcomes -/

/-- A script operation whose value is the outcome. -/
def scriptOutcome (act : ScriptM Catalog ScriptValue) : SessionM Outcome :=
  .script <$> script act

/-- A truth that is no outcome of script code. -/
def truth (value : Bool) : SessionM Outcome := return .answer (.truth value)

/-- Keeps an outcome in a register: script values and host values only. -/
def keep (register : Option String) (outcome : Outcome) : SessionM Unit := do
  match register, outcome with
  | some name, .script value => modify fun s => { s with scripts := (name, value) :: s.scripts }
  | some name, .host value => modify fun s => { s with hosts := (name, value) :: s.hosts }
  | _, _ => return ()

/-! ## Commands -/

/-- Runs a command on the host's side. -/
def runHost : Command → SessionM Outcome
  | .host term => .host <$> hostValue term
  | .hostObject type object => .host <$> makeObject type object
  | .hostFunction name arity action => .host <$> makeFunction name arity action
  | .hostMethod type m => .host <$> makeMethod type m
  | .hostClass term => .host <$> makeClass term
  | .bind method receiver => do
    match ← callable method with
    | .unbound m => return .host (.callable (.bound (← hostValue receiver) m))
    | _ => throw .senseless
  | .unbind method => do
    match ← callable method with
    | .bound _ m => return .host (.callable (.unbound m))
    | _ => throw .senseless
  | .memberOf term name => do
    let value ← hostValue term
    match value.member? (← get).world.host.state name with
    | some m => return .host (.callable (.bound value (m.method (← host HostM.fresh))))
    | none => return .answer .absent
  | .send term name args => do
    let value ← hostValue term
    match value.member? (← get).world.host.state name with
    | some m => return .host (← host (value.perform m (← args.mapM hostValue)))
    | none => return .answer .absent
  | .invoke term receiver args => do
    let c ← callable term
    let receiver ← receiver.mapM hostValue
    return .host (← host (c.invoke receiver (← args.mapM hostValue)))
  | .describeClass term => do return .answer (.hostClass (← hostClass term))
  | .instantiate term args => do
    let c ← hostClass term
    return .host (← host (c.instantiate (← args.mapM hostValue)))
  | .isHostInstance term value => do
    truth ((← hostClass term).isInstance (← view) (← hostValue value))
  | .describeCallable term => do return .answer (.callable (← callable term))
  | .sameCallable a b => do truth ((← callable a).sameAs (← callable b))
  | .describeHost term => do return .answer (.hostValue (← hostValue term))
  | .responds term name => do
    let value ← hostValue term
    let s := (← get).world.host.state
    return .answer (.responds (value.respondsTo s name) (value.hasField s name))
  | .compareHost a b => do
    let a ← hostValue a
    let b ← hostValue b
    return .answer (.hostComparison (a.identical b) ((← view).equal a b))
  | .hostState term => do
    let o ← hostObject term
    let r ← require ((← get).world.host.state.record? o)
    return .answer (.fields r.fields)
  | .sameIdentity a b => do
    let a ← require (Identity.ofValue? (← hostValue a))
    let b ← require (Identity.ofValue? (← hostValue b))
    return .answer (.sameIdentity (a = b))
  | _ => throw .senseless

/-- Runs a command on the script's side. -/
def runScript : Command → SessionM Outcome
  | .script term => .script <$> scriptValue term
  | .ordinary className => do
    return .script (.object (← script (ScriptM.allocate { kind := .ordinary className })))
  | .define term key value => do
    let id ← ordinary term
    let value ← scriptValue value
    script (do ScriptM.setStore id ((← ScriptM.store id).define key value))
    return .done
  | .erase term key => do
    let id ← ordinary term
    script (do ScriptM.setStore id ((← ScriptM.store id).erase key))
    truth true
  | .preventExtensions term => do
    let id ← ordinary term
    script (do ScriptM.setStore id (← ScriptM.store id).preventExtensions)
    truth true
  | .own term key => do
    let store ← script (ScriptM.store (← ordinary term))
    return .answer (.own (store.get? key) store.extensible)
  | .get term key => do scriptOutcome ((← scriptValue term).get key)
  | .has term key => do return .truth (← script ((← scriptValue term).has key))
  | .put term key content => do
    let value ← scriptValue term
    let content ← scriptValue content
    script (value.put key content)
    return .done
  | .lookUp term key => do
    let id ← object term
    match ← script (id.get? key) with
    | some value => return .script value
    | none => return .answer .absent
  | .ids term => do
    return .answer (.keys (← script (← object term).ids))
  | .prototype term => do
    match (← scriptValue term).object?.bind (← get).world.heap.prototype with
    | some id => return .script (.object id)
    | none => return .answer .absent
  | .setPrototype term prototype => do
    -- a value that is no object stands for no prototype
    let id ← object term
    let link := (← scriptValue prototype).object?
    truth (← script (id.setPrototype link))
  | .call term this args place => do
    let value ← scriptValue term
    let this ← scriptValue this
    let args ← args.mapM scriptValue
    scriptOutcome (value.call (← context? place.context) (← realm? place.realm) this args)
  | .callObject term this args place => do
    let id ← object term
    let this ← scriptValue this
    let args ← args.mapM scriptValue
    scriptOutcome (id.call (← context? place.context) (← realm? place.realm) this args)
  | .callMethod term name args place => do
    let value ← scriptValue term
    let args ← args.mapM scriptValue
    scriptOutcome (value.callMethod name (← context? place.context) (← realm? place.realm) args)
  | .construct term args place => do
    let value ← scriptValue term
    let args ← args.mapM scriptValue
    scriptOutcome (value.construct (← context? place.context) (← realm? place.realm) args)
  | .isInstanceOf term hostClass => do
    let value ← scriptValue term
    let hostClass ← scriptValue hostClass
    return .truth (← script (value.isInstanceOf hostClass))
  | .compare a b => do
    return .answer (.comparison ((← view).comparison (← scriptValue a) (← scriptValue b)))
  | .describe term => do return .answer (.scriptValue (← scriptValue term))
  | .throwError term => do throw (.script (← error term))
  | .catchError term realm => do
    let e ← error term
    scriptOutcome (e.caught (← realm? realm))
  | other => runHost other

/-- Runs a command on policies, contexts and realms, or one that crosses. -/
def runShared : Command → SessionM Outcome
  | .policy name config accessor converter => makePolicy name config accessor converter
  | .policyFile name text => do
    match ConfigFile.parse text with
    | .ok config => keepPolicy name (.ofConfig (← get).world.inForce config)
    | .error e => return .answer (.configError e)
  | .openContext name policyName => do openContext name (← policy policyName)
  | .dropContext name => do
    let r ← require ((← get).contexts.lookup name)
    letGo name
    return .answer (.alive ((← get).world.isAlive r.id))
  | .isAlive name => do
    let r ← require ((← get).contexts.lookup name)
    truth ((← get).world.isAlive r.id)
  | .revive name => revive name
  | .sameContext a b => do
    return .answer (.sameContext ((← context a) = (← context b)))
  | .remembered name => do
    return .answer (.count ((← get).world.remembered (← context name)))
  | .remember contextName key entry => do rememberRaw (← context? contextName) key entry
  | .realm name => do
    let realm ← script Realm.make
    modify fun s => { s with realms := (name, realm) :: s.realms }
    return .done
  | .realmObject name which => do
    let realm ← require (← realm? (some name))
    return .script <| .object <| match which with
      | .global => realm.global
      | .objectPrototype => realm.objectPrototype
      | .functionPrototype => realm.functionPrototype
  | .push name => do
    let id ← context name
    modify fun s => { s with world := s.world.retain id, stack := id :: s.stack }
    return .answer (.pushed (← get).stack.length)
  | .pop => pop
  | .current => do return .answer (.running (← runningName) (← get).stack.length)
  | .setInForce accessor => do
    let (previous, world) := (← get).world.setInForce accessor
    modify fun s => { s with world }
    return .answer (.inForce previous world.inForce)
  | .wrap term place realm => do
    let value ← hostValue term
    let realm ← realm? realm
    scriptOutcome (toScript (← site place realm) value)
  | .unwrapWith term policyName => do
    let value ← scriptValue term
    return .host (← script (toHost (← policy policyName) value))
  | .unwrap term => do
    let h := (← get).world.heap
    match ← scriptValue term with
    | .object id => match h.kind? id with
      | some (.wrapper w) => return .host w.subject.value
      | some (.hostError e) => throw (.host e)
      | _ => return .answer .absent
    | _ => return .answer .absent
  | .describeWrapper term => do
    match ← scriptValue term with
    | .object id => return .answer ((← get).world.heap.wrapperAnswer id)
    | _ => return .answer .absent
  | .wrapError e => do
    return .script (.object (← script (ScriptM.allocate { kind := .hostError e })))
  | other => runScript other

mutual

/-- Runs a command. -/
def runCommand : Command → SessionM Outcome
  | .attempt body handler register realm => do
    match ← observing (runStep body) with
    | .error (.script e) =>
      let caught ← script (e.caught (← realm? realm))
      keep (some register) (.script caught)
      match handler with
      | some handler => .script <$> (do require (← runStep handler).scriptValue?)
      | none => return .script caught
    | .error other => throw other
    | .ok outcome => .script <$> require outcome.scriptValue?
  | other => runShared other

/-- Runs a step and keeps its outcome. -/
def runStep : Step → SessionM Outcome
  | .mk command register => do
    let outcome ← runCommand command
    keep register outcome
    return outcome

end

end SessionM

/-- The answer of a step, or why it failed, with the runs of host bodies that it caused. -/
structure Report where
  runs : List Run
  result : Except Failure Answer

/-- Runs one step of a session. The records of its runs and of the border end with it. -/
def Session.step (s : Session) (step : Step) : Report × Session :=
  let (result, s) := (SessionM.runStep step).run.run s
  let catalog := s.world.host.state
  let host := { s.world.host with state := { catalog with runs := #[] } }
  (⟨catalog.runs.toList, result.map Outcome.toAnswer⟩,
    { s with world := { s.world with host, journal := [] } })

end Membrane
