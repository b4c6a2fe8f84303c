import Membrane.Access

/-!
# Operations on objects

Reading, searching, writing, listing and linking, for objects of every kind. A look-up asks each
object along the chain of prototypes in turn. What an object says of itself depends on its kind: an
ordinary one has its own properties; a wrapper asks the strategy of its policy first, and one that
can be called also has a length and a name; a wrapped error has a name and a message.
-/

namespace Membrane

/-! ## What every object of a kind has -/

/-- The length and the name of what can be called. -/
def Subject.intrinsic? (subject : Subject) (key : PropertyKey) : Option ScriptValue :=
  match subject with
  | .object _ => none
  | .function c => callable c.arity c.displayName
  | .constructor c => callable c.arity c.name
where
  /-- The length counts the required parameters. -/
  callable (arity : Arity) (name : String) : Option ScriptValue :=
    match key with
    | .name "length" => some (.number (.integer (Int64.ofNat arity.required)))
    | .name "name" => some (.string name)
    | _ => none

/-- The name and the message of an error. -/
def HostError.intrinsic? (e : HostError) (key : PropertyKey) : Option ScriptValue :=
  match key with
  | .name "name" => some (.string e.className)
  | .name "message" => some (.string e.message)
  | _ => none

/-- The name of a member without the mark of a writer, if it has one. -/
def foldedName (member : String) : String :=
  if member.toList.getLast? = some '=' then String.ofList member.toList.dropLast else member

/-- The keys of a list of members: writers folded into readers, each key at its first place. -/
def foldedKeys (members : List String) : List PropertyKey :=
  members.foldl (fun keys member =>
    let key := PropertyKey.name (foldedName member)
    if key ∈ keys then keys else keys ++ [key]) []

/-- Puts keys before a list one at a time, so that the last of them comes first. -/
def keysInFront (keys listed : List PropertyKey) : List PropertyKey :=
  keys.foldl (fun listed key => key :: listed) listed

variable {σ : Type} [Host σ]

/-- Where a wrapper works: as it was made, without its context once nobody holds that any more. -/
def Wrapper.site (w : Wrapper) (world : World σ) : Site :=
  ⟨w.policy, world.revive? w.context, w.realm⟩

/-- The first of two answers that is given. -/
def orElseFrom {α : Type} (first : ScriptM σ (Option α)) (second : Option α) :
    ScriptM σ (Option α) := do
  match ← first with
  | some answer => return some answer
  | none => return second

/-- The first answer that the objects of a list give. -/
def firstAlong {α : Type} (ask : ObjectId → ScriptM σ (Option α)) :
    List ObjectId → ScriptM σ (Option α)
  | [] => return none
  | id :: rest => do
    match ← ask id with
    | some answer => return some answer
    | none => firstAlong ask rest

namespace ObjectId

/-! ## Reading -/

/-- The value that an object gives a key without its prototypes. -/
def getOwn (id : ObjectId) (key : PropertyKey) : ScriptM σ (Option ScriptValue) := do
  let world ← MonadState.get
  let own := (world.heap.store id).get? key
  match world.heap.kind? id with
  | some (.wrapper w) =>
    orElseFrom (w.policy.accessor.get (w.site world) w.subject.value id key)
      ((w.subject.intrinsic? key).or own)
  | some (.hostError e) => return own.or (e.intrinsic? key)
  | _ => return own

/-- The value of a property, looked up along the prototypes. -/
def get? (id : ObjectId) (key : PropertyKey) : ScriptM σ (Option ScriptValue) := do
  firstAlong (·.getOwn key) ((← MonadState.get).heap.chain id)

/-! ## Searching -/

/-- Whether an object has a property without its prototypes, if that is decided there. -/
def hasOwn (id : ObjectId) (key : PropertyKey) : ScriptM σ (Option Bool) := do
  let world ← MonadState.get
  let own := if (world.heap.store id).contains key then some true else none
  match world.heap.kind? id with
  | some (.wrapper w) =>
    if (w.subject.intrinsic? key).isSome then return some true
    else orElseFrom (w.policy.accessor.has w.subject.value key) own
  | some (.hostError e) => return if (e.intrinsic? key).isSome then some true else own
  | _ => return own

/-- Whether a property is found along the prototypes; it is not if no object decides. -/
def has (id : ObjectId) (key : PropertyKey) : ScriptM σ Bool := do
  return (← firstAlong (·.hasOwn key) ((← MonadState.get).heap.chain id)).getD false

/-! ## Writing -/

/-- Gives an own property a value. -/
def putOwn (id : ObjectId) (key : PropertyKey) (value : ScriptValue) : ScriptM σ Unit := do
  match (← ScriptM.store id).put key value with
  | .ok store => ScriptM.setStore id store
  | .error f => ScriptM.fail f

/-- Gives a property a value: through the strategy of a wrapper, or as an own property. -/
def put (id : ObjectId) (key : PropertyKey) (value : ScriptValue) : ScriptM σ Unit := do
  let world ← MonadState.get
  match world.heap.wrapper? id with
  | some w =>
    let taken ← w.policy.accessor.put (w.site world) w.subject.value id key value
    if taken then return () else id.putOwn key value
  | none => id.putOwn key value

/-! ## Listing -/

/-- The keys that an object lists. A wrapper lists its own keys before the members of its host, in
the order that its policy asks for; an error lists its name and message first. -/
def ids (id : ObjectId) : ScriptM σ (List PropertyKey) := do
  let world ← MonadState.get
  let own := (world.heap.store id).keys
  match world.heap.kind? id with
  | some (.wrapper w) =>
    let listed := foldedKeys (w.subject.value.members world.host.state)
    match w.policy.config.idOrder with
    | .newestFirst => return keysInFront own listed
    | .asDefined => return own ++ listed
  | some (.hostError e) =>
    return [.name "name", .name "message"] ++ own.filter fun key => (e.intrinsic? key).isNone
  | _ => return own

/-! ## Linking -/

/-- Links an object to a prototype and answers whether it did. No link is always taken, and so is
the one that is there; otherwise an object that takes no new properties keeps its link, and no link
may lead back to the object. -/
def setPrototype (id : ObjectId) (prototype : Option ObjectId) : ScriptM σ Bool := do
  let heap := (← MonadState.get).heap
  let store := heap.store id
  match prototype with
  | none =>
    ScriptM.setStore id { store with prototype := none }
    return true
  | some link =>
    if store.prototype = some link then return true
    else if !store.extensible || id ∈ heap.chain link then return false
    else
      ScriptM.setStore id { store with prototype := some link }
      return true

end ObjectId

end Membrane
