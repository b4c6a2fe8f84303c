import Membrane.Identity
import Membrane.Policy
import Membrane.Store

/-!
# The state of both sides

A `World` holds the heap of script objects, the contexts with what each remembers, the strategy in
force for new policies, and the host's side: the next free address and whatever state `σ` the
embedding program keeps.

Script objects are of three kinds: ordinary ones, wrappers of a host value, and wrapped host errors.
A wrapper remembers the policy, the context and the realm that it was made with; the context only
weakly, since a context lives as long as somebody holds it.

The journal records what happens at the border between the sides, in order: runs of host code,
values that cross, and requests for what a context remembers. Nothing is ever decided by it.
-/

namespace Membrane

/-! ## Script objects -/

/-- The objects that new wrappers are linked to. -/
structure Realm where
  global : ObjectId
  objectPrototype : ObjectId
  functionPrototype : ObjectId
deriving DecidableEq, Repr

/-- The place of a context among the contexts. -/
structure ContextId where
  index : Nat
deriving DecidableEq, Repr

/-- The host value behind a wrapper. -/
inductive Subject where
  | object (object : HostObject)
  | function (callable : HostCallable)
  | constructor (hostClass : HostClass)
deriving DecidableEq, Repr

/-- The three kinds of wrapper. -/
inductive WrapperKind where
  | object
  | function
  | constructor
deriving DecidableEq, Repr

namespace Subject

/-- The host value that a wrapper stands for. -/
def value : Subject → HostValue
  | object o => .object o
  | function c => .callable c
  | constructor c => .hostClass c

/-- The kind of wrapper that a host value gets. -/
def kind : Subject → WrapperKind
  | object _ => .object
  | function _ => .function
  | constructor _ => .constructor

/-- The key that a wrapper is remembered under. -/
def identity : Subject → Identity
  | object o => .object o
  | function c => .ofCallable c
  | constructor c => .hostClass c

/-- The object of a realm that a new wrapper is linked to. -/
def prototypeIn : Subject → Realm → ObjectId
  | object _ => Realm.objectPrototype
  | function _ | constructor _ => Realm.functionPrototype

end Subject

/-- What a wrapper stands for and the circumstances it was made in. -/
structure Wrapper where
  subject : Subject
  policy : Policy
  context : Option ContextId
  realm : Option Realm

/-- What an object is. -/
inductive ObjectKind where
  | ordinary (className : String)
  | wrapper (wrapper : Wrapper)
  | hostError (error : HostError)

/-- A script object: what it is, and its own part. -/
structure ScriptObject where
  kind : ObjectKind
  store : Store := {}

/-- All script objects, by place. -/
structure Heap where
  objects : Array ScriptObject := #[]

namespace Heap

/-- The object at a place. -/
def get? (h : Heap) (id : ObjectId) : Option ScriptObject := h.objects[id.index]?

/-- The kind of the object at a place. -/
def kind? (h : Heap) (id : ObjectId) : Option ObjectKind := (h.get? id).map (·.kind)

/-- The wrapper at a place, if the object there is one. -/
def wrapper? (h : Heap) (id : ObjectId) : Option Wrapper :=
  match h.kind? id with
  | some (.wrapper w) => some w
  | _ => none

/-- The host error of the object at a place, if it wraps one. -/
def hostError? (h : Heap) (id : ObjectId) : Option HostError :=
  match h.kind? id with
  | some (.hostError e) => some e
  | _ => none

/-- The host error that a value carries, if it is an object that wraps one. -/
def carried? (h : Heap) : ScriptValue → Option HostError
  | .object id => h.hostError? id
  | _ => none

/-- The own part of the object at a place. -/
def store (h : Heap) (id : ObjectId) : Store := ((h.get? id).map (·.store)).getD {}

/-- The prototype of the object at a place. -/
def prototype (h : Heap) (id : ObjectId) : Option ObjectId := (h.store id).prototype

/-- Adds an object at the next place. -/
def push (h : Heap) (object : ScriptObject) : Heap := ⟨h.objects.push object⟩

/-- The place that the next object gets. -/
def next (h : Heap) : ObjectId := ⟨h.objects.size⟩

/-- Replaces the own part of the object at a place. -/
def setStore (h : Heap) (id : ObjectId) (store : Store) : Heap :=
  ⟨h.objects.modify id.index fun object => { object with store := store }⟩

/-- At most `fuel` objects from a place on along the prototype links. -/
def chainWithin (h : Heap) : Nat → Option ObjectId → List ObjectId
  | 0, _ => []
  | _ + 1, none => []
  | fuel + 1, some id => id :: h.chainWithin fuel (h.prototype id)

/-- The object at a place and those behind it along the prototype links. No chain without a cycle is
longer than the heap. -/
def chain (h : Heap) (id : ObjectId) : List ObjectId := h.chainWithin h.objects.size (some id)

end Heap

/-! ## Contexts -/

/-- What can be remembered under a key: a wrapper of one of the kinds, plain data, and values of any
other type of the embedding program. -/
inductive EntryKind where
  | wrapper (kind : WrapperKind)
  | text
  | integer
  | foreign (type : String)
deriving DecidableEq, Repr

/-- The content of an entry of each kind. A value of the embedding program is known by the address
that it was made at. -/
abbrev EntryKind.Content : EntryKind → Type
  | wrapper _ => ObjectId
  | text => String
  | integer => Int64
  | foreign _ => Nat

/-- Something remembered, with its kind. -/
structure Entry where
  kind : EntryKind
  content : kind.Content

/-- The content of an entry, if it is of the kind asked for. -/
def Entry.as? (entry : Entry) (kind : EntryKind) : Option kind.Content :=
  if h : entry.kind = kind then some (h ▸ entry.content) else none

/-- What a context remembers, by key. -/
structure Cache where
  entries : List (Identity × Entry) := []

namespace Cache

/-- The entry under a key. -/
def get? (c : Cache) (key : Identity) : Option Entry := c.entries.lookup key

/-- The number of keys. -/
def size (c : Cache) : Nat := c.entries.length

/-- Remembers an entry under a key, in place of any other. -/
def insert (c : Cache) (key : Identity) (entry : Entry) : Cache :=
  if (c.get? key).isSome then
    ⟨c.entries.map fun e => if e.1 = key then (key, entry) else e⟩
  else ⟨c.entries ++ [(key, entry)]⟩

end Cache

/-- A run of script code: the policy of its values, what it remembers, and how many hold it. -/
structure Context where
  policy : Policy
  cache : Cache := {}
  handles : Nat := 1

/-- Whether anybody still holds the context. -/
def Context.isAlive (c : Context) : Bool := decide (0 < c.handles)

/-! ## The journal -/

/-- What happens at the border between the two sides. -/
inductive Event where
  /-- Host code was run. -/
  | ran (invocation : Invocation) (outcome : Except HostError HostValue)
  /-- A script value was to cross to the host. -/
  | incoming (value : ScriptValue) (outcome : Except ScriptError HostValue)
  /-- A converter decided about a host value that was to cross to script code. -/
  | outgoing (value : HostValue) (decision : Except ScriptError (Option ScriptValue))
  /-- The content under a key was asked for, and was built if it was not there. -/
  | asked (context : Option ContextId) (key : Identity) (answer : Entry) (built : Bool)

/-! ## The whole state -/

/-- The host's side: the next free address and the state of the embedding program. -/
structure HostSide (σ : Type) where
  next : Nat
  state : σ

/-- The state of both sides. -/
structure World (σ : Type) where
  heap : Heap := {}
  contexts : Array Context := #[]
  inForce : Accessor := .standard
  host : HostSide σ
  journal : List Event := []

namespace World

variable {σ : Type}

/-- The context at a place. -/
def context? (w : World σ) (id : ContextId) : Option Context := w.contexts[id.index]?

/-- Whether the context at a place is still held. -/
def isAlive (w : World σ) (id : ContextId) : Bool := (w.context? id).any (·.isAlive)

/-- The context, if it is still held. -/
def revive? (w : World σ) (id : Option ContextId) : Option ContextId := id.filter w.isAlive

/-- Changes the context at a place. -/
def modifyContext (w : World σ) (id : ContextId) (f : Context → Context) : World σ :=
  { w with contexts := w.contexts.modify id.index f }

/-- Enters an event in the journal. -/
def note (w : World σ) (event : Event) : World σ := { w with journal := w.journal ++ [event] }

/-- The content that a context remembers under a key, if it is of the kind asked for. -/
def known? (w : World σ) (context : Option ContextId) (key : Identity) (kind : EntryKind) :
    Option kind.Content :=
  (context.bind w.context?).bind fun c => (c.cache.get? key).bind (·.as? kind)

/-- Remembers an entry in a context, in place of any other under the key. -/
def keep (w : World σ) (context : Option ContextId) (key : Identity) (entry : Entry) : World σ :=
  match context with
  | some id => w.modifyContext id fun c => { c with cache := c.cache.insert key entry }
  | none => w

end World

end Membrane
