import Membrane.Crossing

/-!
# Properties of host values

A strategy answers a property operation on a host value, or leaves it to the wrapper. Reads go to
the member of the name: a member without parameters is run, any other is handed out as a function,
and a name that can only be written reads as null. Writes go to the member `name=`. Where no member
has the name, index access is tried through `[]` and `[]=`. Names that belong to the engine never
reach the host.
-/

namespace Membrane

/-- The host value that stands for a key. -/
def PropertyKey.toHost : PropertyKey → HostValue
  | name text => .str text
  | index position => .int position.toUInt64.toInt64

/-- The name of the member that writes a property. -/
def writerName (name : String) : String := name ++ "="

/-- The name of a key that may be looked up among the members: no index, and not internal. -/
def PropertyKey.memberName? (key : PropertyKey) : Option String :=
  if key.isInternal then none else key.name?

variable {σ : Type} [Host σ]

namespace HostValue

/-- The member under a name, if it has exactly `count` parameters. -/
def memberOf? (s : σ) (value : HostValue) (name : String) (count : Nat) : Option Member :=
  (value.member? s name).filter fun m => m.arity = .exactly count

/-- The member that reads by index, for a key that may reach the host. -/
def indexReader? (s : σ) (value : HostValue) (key : PropertyKey) : Option Member :=
  if key.isInternal then none else value.memberOf? s "[]" 1

/-- The member that writes by index, for a key that may reach the host. -/
def indexWriter? (s : σ) (value : HostValue) (key : PropertyKey) : Option Member :=
  if key.isInternal then none else value.memberOf? s "[]=" 2

/-- The member of the name of a key. -/
def reader? (s : σ) (value : HostValue) (key : PropertyKey) : Option Member :=
  key.memberName?.bind (value.member? s)

/-- The member that writes the name of a key. -/
def writer? (s : σ) (value : HostValue) (key : PropertyKey) : Option Member :=
  key.memberName?.bind fun name => value.member? s (writerName name)

/-- Whether a name looks like an attribute: it can be written, or a field stands behind it. -/
def isAttribute (s : σ) (value : HostValue) (name : String) : Bool :=
  value.respondsTo s (writerName name) || value.hasField s name

/-- What reading by index yields; `nil` where there is no reader. -/
def readIndex (value : HostValue) (key : PropertyKey) : ScriptM σ HostValue := do
  match value.indexReader? (← get).host.state key with
  | some reader => ScriptM.hostCall (.member value reader [key.toHost])
  | none => return .nil

end HostValue

/-! ## Named access with index access behind it -/

/-- A member handed out as a function, to be called on a receiver of the caller's choice. -/
def handOut (site : Site) (m : Member) : ScriptM σ ScriptValue := do
  return .object (← wrap site (.function (.unbound (m.method (← ScriptM.freshAddress)))))

/-- Reads by index; `nil` leaves the key to the wrapper. -/
def getIndexed (site : Site) (host : HostValue) (key : PropertyKey) :
    ScriptM σ (Option ScriptValue) := do
  let value ← host.readIndex key
  if value.isNil then return none else return some (← toScript site value)

/-- Reads a property. `asProperty` decides which members without parameters are run. -/
def getNamed (asProperty : σ → HostValue → String → Bool) (site : Site) (host : HostValue)
    (key : PropertyKey) : ScriptM σ (Option ScriptValue) := do
  let s := (← get).host.state
  match host.reader? s key, host.writer? s key with
  | some m, _ =>
    if m.arity = .exactly 0 && asProperty s host (key.name?.getD "") then
      return some (← toScript site (← ScriptM.hostCall (.member host m [])))
    else return some (← handOut site m)
  | none, some _ => return some .null
  | none, none => getIndexed site host key

/-- Whether a property exists. -/
def hasNamed (host : HostValue) (key : PropertyKey) : ScriptM σ (Option Bool) := do
  let s := (← get).host.state
  if (host.reader? s key).isSome || (host.writer? s key).isSome then return some true
  else if (← host.readIndex key).isNil then return none
  else return some true

/-- Writes a property: by its writer, else by index. Answers whether the host took the value. -/
def putNamed (site : Site) (host : HostValue) (key : PropertyKey) (value : ScriptValue) :
    ScriptM σ Bool := do
  let s := (← get).host.state
  match host.writer? s key, host.indexWriter? s key with
  | some m, _ =>
    let hostValue ← toHost site.policy value
    discard <| ScriptM.hostCall (.member host m [hostValue])
    return true
  | none, some m =>
    let hostValue ← toHost site.policy value
    discard <| ScriptM.hostCall (.member host m [key.toHost, hostValue])
    return true
  | none, none => return false

/-! ## The strategies -/

namespace Accessor

/-- The refusal of an operation, with the classes of the host value and of the wrapper. -/
def refuse {α : Type} (kind : ErrorKind) (host : HostValue) (receiver : ObjectId)
    (operation : String) : ScriptM σ α := do
  let v ← ScriptM.view
  throw (.reported kind
    (v.className host ++ " " ++ v.objectClass receiver ++ " " ++ operation))

/-- Reads a property of a host value, or leaves the key to the wrapper. -/
def get (accessor : Accessor) (site : Site) (host : HostValue) (receiver : ObjectId)
    (key : PropertyKey) : ScriptM σ (Option ScriptValue) :=
  match accessor with
  | standard => getNamed (fun _ _ _ => true) site host key
  | attributes => getNamed (fun s value name => value.isAttribute s name) site host key
  | transparent => return none
  | deny => refuse .reference host receiver ("get " ++ key.render)

/-- Whether a host value has a property, or leaves the key to the wrapper. -/
def has (accessor : Accessor) (host : HostValue) (key : PropertyKey) : ScriptM σ (Option Bool) :=
  match accessor with
  | standard | attributes => hasNamed host key
  | transparent => return none
  | deny => return some false

/-- Writes a property of a host value. Answers whether the host took the value; if not, it is left
to the wrapper. -/
def put (accessor : Accessor) (site : Site) (host : HostValue) (receiver : ObjectId)
    (key : PropertyKey) (value : ScriptValue) : ScriptM σ Bool :=
  match accessor with
  | standard | attributes => putNamed site host key value
  | transparent => return false
  | deny => do
    refuse .type host receiver
      ("put " ++ key.render ++ "=" ++ (← ScriptM.view).render value)

end Accessor

end Membrane
