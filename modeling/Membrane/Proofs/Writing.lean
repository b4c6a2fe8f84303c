import Membrane.Proofs.Calling
import Membrane.Proofs.Discretion
import Membrane.Proofs.Reading
import Membrane.Proofs.Store

/-!
# Where a write goes

A write to a wrapper goes to one place: to the member of the host value that writes the name, to the
one that writes by index, or to the own properties of the wrapper. A host value that takes it gets
it once, if the converter lets it cross, and the wrapper keeps what it has; nothing else is tried
after a failure. The prototype links have no part in it.
-/

namespace Membrane

variable {σ : Type}

/-! ## Destinations -/

/-- Where a write goes. -/
inductive Destination where
  /-- To a member of the host value, which gets the value behind other arguments. -/
  | member (m : Member) (leading : List HostValue)
  /-- To the own properties of the wrapper. -/
  | own
deriving DecidableEq

section Destination

variable [Host σ] {s : σ} {host : HostValue} {key : PropertyKey}

/-- Where a write of a key to a host value goes: to the writer of a name, if the key may reach the
host and the host has one, else to the index writer, and else to the own properties. -/
inductive HostValue.WritesTo (s : σ) (host : HostValue) (key : PropertyKey) :
    Destination → Prop where
  | writer (name : String) (m : Member) (named : key = .name name)
      (external : key.isInternal = false) (found : host.member? s (writerName name) = some m) :
      WritesTo s host key (.member m [])
  | index (m : Member) (external : key.isInternal = false)
      (unwritten : ∀ name, key = .name name → host.member? s (writerName name) = none)
      (found : host.member? s "[]=" = some m) (parameters : m.arity = .exactly 2) :
      WritesTo s host key (.member m [key.toHost])
  | own (left : key.isInternal = true ∨
      (∀ name, key = .name name → host.member? s (writerName name) = none) ∧
        ∀ m, host.member? s "[]=" = some m → m.arity ≠ .exactly 2) : WritesTo s host key .own

/-- The destination of a write. -/
def HostValue.destination (s : σ) (host : HostValue) (key : PropertyKey) : Destination :=
  match host.writer? s key, host.indexWriter? s key with
  | some m, _ => .member m []
  | none, some m => .member m [key.toHost]
  | none, none => .own

namespace HostValue

theorem writer?_of_internal (internal : key.isInternal = true) : host.writer? s key = none := by
  rw [writer?, PropertyKey.memberName?, internal, if_pos rfl, Option.bind_none]

theorem indexWriter?_of_internal (internal : key.isInternal = true) :
    host.indexWriter? s key = none := by
  rw [indexWriter?, internal, if_pos rfl]

theorem writer?_eq (external : key.isInternal = false) :
    host.writer? s key = key.name?.bind fun name => host.member? s (writerName name) := by
  rw [writer?, PropertyKey.memberName?, external, if_neg Bool.false_ne_true]

theorem writer?_eq_none (external : key.isInternal = false) :
    host.writer? s key = none ↔
      ∀ name, key = .name name → host.member? s (writerName name) = none := by
  rw [writer?_eq external]
  cases key with
  | name text =>
    constructor
    · intro h name hname
      cases hname
      exact h
    · intro h
      exact h text rfl
  | index position => exact ⟨nofun, fun _ => rfl⟩

theorem indexWriter?_eq_some {m : Member} :
    host.indexWriter? s key = some m ↔
      key.isInternal = false ∧ host.member? s "[]=" = some m ∧ m.arity = .exactly 2 := by
  rw [indexWriter?]
  cases key.isInternal with
  | true => simp
  | false => simp [memberOf?, Option.filter_eq_some_iff]

theorem indexWriter?_eq_none (external : key.isInternal = false) :
    host.indexWriter? s key = none ↔
      ∀ m, host.member? s "[]=" = some m → m.arity ≠ .exactly 2 := by
  rw [Option.eq_none_iff_forall_ne_some]
  simp only [ne_eq, indexWriter?_eq_some, external, true_and, not_and]

/-- The destination of a write is one that it goes to. -/
theorem writesTo_destination (s : σ) (host : HostValue) (key : PropertyKey) :
    host.WritesTo s key (host.destination s key) := by
  unfold destination
  cases hinternal : key.isInternal with
  | true =>
    rw [writer?_of_internal hinternal, indexWriter?_of_internal hinternal]
    exact .own (.inl hinternal)
  | false =>
    cases hwriter : host.writer? s key with
    | some m =>
      rw [writer?_eq hinternal] at hwriter
      obtain ⟨name, hname, hfound⟩ := Option.bind_eq_some_iff.1 hwriter
      cases key with
      | name text =>
        cases hname
        exact .writer name m rfl hinternal hfound
      | index position => cases hname
    | none =>
      have hunwritten := (writer?_eq_none hinternal).1 hwriter
      cases hindex : host.indexWriter? s key with
      | some m =>
        obtain ⟨-, hfound, harity⟩ := indexWriter?_eq_some.1 hindex
        exact .index m hinternal hunwritten hfound harity
      | none => exact .own (.inr ⟨hunwritten, (indexWriter?_eq_none hinternal).1 hindex⟩)

/-- A write goes to one place. -/
theorem WritesTo.eq_destination {d : Destination} (h : host.WritesTo s key d) :
    d = host.destination s key := by
  cases h with
  | writer name m named external found =>
    have hwriter : host.writer? s key = some m := by
      rw [writer?_eq external, named]
      exact found
    rw [destination, hwriter]
  | index m external unwritten found parameters =>
    rw [destination, (writer?_eq_none external).2 unwritten,
      indexWriter?_eq_some.2 ⟨external, found, parameters⟩]
  | own left =>
    cases hinternal : key.isInternal with
    | true => rw [destination, writer?_of_internal hinternal, indexWriter?_of_internal hinternal]
    | false =>
      obtain ⟨hunwritten, hindex⟩ := left.resolve_left (by rw [hinternal]; exact Bool.false_ne_true)
      rw [destination, (writer?_eq_none hinternal).2 hunwritten,
        (indexWriter?_eq_none hinternal).2 hindex]

end HostValue

end Destination

/-! ## What a write comes to -/

section Write

variable [Host σ] {w : World σ} {id : ObjectId} {v : Wrapper}

/-- Writing a value to a member of a host value: the value crosses, and the member runs on it. -/
def writeMember (policy : Policy) (host : HostValue) (m : Member) (leading : List HostValue)
    (value : ScriptValue) : ScriptM σ Unit := do
  discard <| ScriptM.hostCall (.member host m (leading ++ [← toHost policy value]))

/-- A write follows its destination. -/
theorem on_put (hv : w.heap.wrapper? id = some v) (haccess : v.policy.accessor.AsksMembers)
    (key : PropertyKey) (value : ScriptValue) :
    (id.put key value).on w = match v.subject.value.destination w.host.state key with
      | .member m leading => (writeMember v.policy v.subject.value m leading value).on w
      | .own => (id.putOwn key value).on w := by
  have hput : (id.put key value).on w =
      (putNamed (v.site w) v.subject.value key value >>= fun taken =>
        if taken then return () else id.putOwn key value).on w := by
    rw [ObjectId.put, ScriptM.on_get_bind, hv]
    dsimp only
    rcases haccess with haccess | haccess
    · rw [haccess]
      rfl
    · rw [haccess]
      rfl
  rw [hput, putNamed, bind_assoc, ScriptM.on_get_bind]
  unfold HostValue.destination writeMember
  dsimp only
  cases v.subject.value.writer? w.host.state key with
  | some m =>
    simp only [bind_assoc, pure_bind, if_true, bind_pure_unit]
    rfl
  | none =>
    cases v.subject.value.indexWriter? w.host.state key with
    | some m =>
      simp only [bind_assoc, pure_bind, if_true, bind_pure_unit]
      rfl
    | none => rfl

/-- What a write to a member of a host value comes to. No object that was there has changed, and
nothing that a context remembers. A value that the converter refuses has run nothing, and any other
has run the member once. -/
structure World.WritesMember (w : World σ) (policy : Policy) (host : HostValue) (m : Member)
    (leading : List HostValue) (value : ScriptValue)
    (result : Except ScriptError Unit × World σ) : Prop where
  objects : ∀ x, w.heap.Holds x → result.2.heap.get? x = w.heap.get? x
  contexts : result.2.contexts = w.contexts
  refused : ∀ e, policy.converter.letIn w.heap value = .error e →
    result.1 = .error e ∧ w.Alike result.2
  admitted : ∀ hostValue, policy.Admits w.heap value hostValue →
    let i : Invocation := .member host m (leading ++ [hostValue])
    result.2.host = (w.directly i.run).2 ∧
    result.2.runs = w.runs ++ [(i, (w.directly i.run).1)] ∧
    (∀ answer, (w.directly i.run).1 = .ok answer → result.1 = .ok ()) ∧
    ∀ e, (w.directly i.run).1 = .error e → result.1 = .error (.thrown (.object w.heap.next))

theorem World.writesMember_writeMember (w : World σ) (policy : Policy) (host : HostValue)
    (m : Member) (leading : List HostValue) (value : ScriptValue) :
    w.WritesMember policy host m leading value
      ((writeMember policy host m leading value).on w) := by
  rw [writeMember, ScriptM.on_bind, on_toHost_eq]
  cases hvalue : policy.converter.letIn w.heap value with
  | error e =>
    constructor
    · intro x _
      rfl
    · rfl
    · intro e' he'
      cases hvalue.symm.trans he'
      exact ⟨rfl, w.alike_offer ..⟩
    · intro hostValue hadmits
      cases hvalue.symm.trans hadmits
  | ok hostValue =>
    let i : Invocation := .member host m (leading ++ [hostValue])
    let w₁ : World σ := ((w.offer policy [value]).invoke i).2
    have hinvoke : (w.offer policy [value]).invoke i = ((w.directly i.run).1, w₁) := rfl
    have hruns : w₁.runs = w.runs ++ [(i, (w.directly i.run).1)] := by
      show World.runs (World.note _ _) = _
      rw [runs_note, ← (w.alike_offer policy [value]).runs]
      rfl
    dsimp only
    rw [ScriptM.on_discard, ScriptM.on_hostCall, hinvoke]
    cases houtcome : (w.directly i.run).1 with
    | ok answer =>
      constructor
      · intro x _
        rfl
      · rfl
      · intro e he
        cases hvalue.symm.trans he
      · intro hostValue' hadmits
        cases hvalue.symm.trans hadmits
        refine ⟨rfl, hruns, fun _ _ => rfl, fun e he => ?_⟩
        cases houtcome.symm.trans he
    | error e =>
      constructor
      · intro x hx
        exact (Heap.get?_push _).trans (if_neg hx.ne_next)
      · rfl
      · intro e' he'
        cases hvalue.symm.trans he'
      · intro hostValue' hadmits
        cases hvalue.symm.trans hadmits
        refine ⟨rfl, hruns, fun answer hanswer => ?_, fun _ _ => rfl⟩
        cases houtcome.symm.trans hanswer

/-- What a write to an own property comes to: the property has the value, and nothing else has
changed. -/
structure World.WritesOwn (w : World σ) (id : ObjectId) (key : PropertyKey) (value : ScriptValue)
    (result : Except ScriptError Unit × World σ) : Prop where
  done : result.1 = .ok ()
  own : ∀ k, (result.2.heap.store id).get? k =
    if k = key then some value else (w.heap.store id).get? k
  keys : (result.2.heap.store id).keys = if (w.heap.store id).contains key
    then (w.heap.store id).keys else (w.heap.store id).keys ++ [key]
  prototype : result.2.heap.prototype id = w.heap.prototype id
  others : ∀ x, x ≠ id → result.2.heap.get? x = w.heap.get? x
  contexts : result.2.contexts = w.contexts
  host : result.2.host = w.host
  journal : result.2.journal = w.journal

omit [Host σ] in
theorem World.writesOwn_putOwn (hid : w.heap.Holds id)
    (hext : (w.heap.store id).extensible = true) (key : PropertyKey) (value : ScriptValue) :
    w.WritesOwn id key value ((id.putOwn key value).on w) := by
  rw [on_putOwn, hext, Bool.or_true, if_pos rfl]
  have hstore : (w.setStore id ((w.heap.store id).define key value)).heap.store id =
      (w.heap.store id).define key value := Heap.store_setStore_self hid _
  constructor
  · rfl
  · intro k
    rw [hstore, Store.get?_define]
  · rw [hstore, Store.keys_define]
  · rw [Heap.prototype, hstore, Store.prototype_define, Heap.prototype]
  · intro x hx
    rw [setStore, Heap.get?_setStore, if_neg hx]
  · rfl
  · rfl
  · rfl

/-- The second world differs from the first one in prototype links only. -/
structure World.RelinkedTo (w u : World σ) : Prop where
  rest : u = { w with heap := u.heap }
  kinds : w.heap.SameKinds u.heap
  store : ∀ x, ∃ link, u.heap.store x = { w.heap.store x with prototype := link }

/-- **A write goes to one destination.** Take a write to a wrapper whose strategy asks the members
of its host value. Its destination is the writer of the name, if the key may reach the host and the
host has one; else the index writer of two parameters, if the key may reach the host and the host
has one; else the own properties. A member of the host gets the value once, unless the converter
refuses it; whatever comes of it, the objects that were there are unchanged. An own property gets
the value as it is: the write succeeds, and nothing else has changed. All of this is the same
whatever the prototype links are. -/
theorem World.Reachable.put_destination (hw : w.Reachable) (hv : w.heap.wrapper? id = some v)
    (haccess : v.policy.accessor.AsksMembers) (key : PropertyKey) (value : ScriptValue) :
    ∃ destination,
      (∀ d, v.subject.value.WritesTo w.host.state key d ↔ d = destination) ∧
      ∀ u, w.RelinkedTo u →
        v.policy.converter.letIn u.heap value = v.policy.converter.letIn w.heap value ∧
        match destination with
        | .member m leading =>
          u.WritesMember v.policy v.subject.value m leading value ((id.put key value).on u)
        | .own => u.WritesOwn id key value ((id.put key value).on u) := by
  refine ⟨v.subject.value.destination w.host.state key, fun d => ?_, fun u hu => ?_⟩
  · constructor
    · exact HostValue.WritesTo.eq_destination
    · rintro rfl
      exact HostValue.writesTo_destination ..
  · have hvu : u.heap.wrapper? id = some v := (hu.kinds.wrapper? id).trans hv
    have hstate : u.host.state = w.host.state := by rw [hu.rest]
    refine ⟨hu.kinds.letIn _ value, ?_⟩
    rw [on_put hvu haccess, hstate]
    cases v.subject.value.destination w.host.state key with
    | member m leading => exact u.writesMember_writeMember ..
    | own =>
      obtain ⟨link, hlink⟩ := hu.store id
      have hext : (u.heap.store id).extensible = true := by
        rw [hlink]
        exact hw.sound.extensible id v hv
      exact writesOwn_putOwn (Heap.holds_of_wrapper? hvu) hext key value

end Write

namespace Catalog

/-- A member that writes `x` and always fails. -/
def locked : Member := ⟨"Point", "x=", .exactly 1, .code ⟨0⟩ none, none⟩

/-- The wrapper of an object with this member and an index writer. -/
def withLock : World Catalog :=
  (World.initial ⟨8, {
      definitions := #[⟨some "x=", .stateMethod (.raise (.runtime "locked"))⟩,
        ⟨some "[]=", .stateMethod .setIndex⟩]
      objects := #[⟨⟨7, "Point"⟩, {
        className := "Point"
        methods := [locked, ⟨"Point", "[]=", .exactly 2, .code ⟨1⟩ none, none⟩]
        members := ["x=", "[]="] }, []⟩]
    }⟩ .standard).after (.wrap ⟨⟨{}, .standard, .standard⟩, none, none⟩ (.object ⟨7, "Point"⟩))

/-- A write of `x` fails with the error of its writer, and the wrapper keeps what it has. A write of
an internal name makes an own property. -/
theorem put_locked :
    (((ObjectId.put ⟨0⟩ (.name "x") .null).on withLock).1 = .error (.thrown (.object ⟨1⟩)) ∧
      ((ObjectId.put ⟨0⟩ (.name "x") .null).on withLock).2.heap.get? ⟨0⟩ =
        withLock.heap.get? ⟨0⟩) ∧
    ((ObjectId.put ⟨0⟩ (.name "__x__") .null).on withLock).1 = .ok () ∧
      (((ObjectId.put ⟨0⟩ (.name "__x__") .null).on withLock).2.heap.store ⟨0⟩).get?
        (.name "__x__") = some .null := by
  have hw : withLock.Reachable :=
    (World.initial_reachable _ _).reachable.after (World.serves_none _)
  have hv : withLock.heap.wrapper? ⟨0⟩ =
      some ⟨.object ⟨7, "Point"⟩, ⟨{}, .standard, .standard⟩, none, none⟩ := rfl
  have hself : withLock.RelinkedTo withLock := ⟨rfl, fun _ => rfl, fun _ => ⟨_, rfl⟩⟩
  constructor
  · obtain ⟨d, hd, hput⟩ := hw.put_destination hv (.inl rfl) (.name "x") .null
    obtain rfl : Destination.member locked [] = d :=
      (hd _).1 (.writer "x" locked rfl (by decide) (by decide))
    obtain ⟨-, -, -, hfailed⟩ := (hput _ hself).2.admitted .nil rfl
    exact ⟨hfailed _ rfl, (hput _ hself).2.objects ⟨0⟩ (by decide)⟩
  · obtain ⟨d, hd, hput⟩ := hw.put_destination hv (.inl rfl) (.name "__x__") .null
    obtain rfl : Destination.own = d := (hd _).1 (.own (.inl (by decide)))
    exact ⟨(hput _ hself).2.done, ((hput _ hself).2.own _).trans (if_pos rfl)⟩

end Catalog

end Membrane
