import Membrane.Operation

/-!
# The outcome of a script operation

`act.on w` is what an operation yields in a world and the world that it leaves. The lemmas follow an
operation step by step: each says what one kind of step does, and `on_bind` what two in a row do.
Where a step asks for the wrapper of a host value, `on_wrap` tells the remembered one from the new.
-/

namespace Membrane

variable {σ α β : Type}

/-- Runs host code, and enters that in the journal. -/
def World.invoke [Host σ] (w : World σ) (i : Invocation) :
    Except HostError HostValue × World σ :=
  let (outcome, host) := ((i.run.run w.heap).run).run w.host
  (outcome, { w with host, journal := w.journal ++ [.ran i outcome] })

/-- Adds an object to the heap. -/
def World.push (w : World σ) (object : ScriptObject) : World σ :=
  { w with heap := w.heap.push object }

/-- Adds an object that wraps a host error. -/
def World.pushError (w : World σ) (e : HostError) : World σ := w.push { kind := .hostError e }

/-- The object that a new wrapper is. -/
def Site.wrapper (site : Site) (subject : Subject) : ScriptObject where
  kind := .wrapper ⟨subject, site.policy, site.context, site.realm⟩
  store := { prototype := site.realm.map subject.prototypeIn }

/-- A wrapper as something remembered. -/
def Subject.entry (subject : Subject) (id : ObjectId) : Entry := ⟨.wrapper subject.kind, id⟩

/-- The wrapper of a host value that a site remembers. -/
def World.wrapper? (w : World σ) (site : Site) (subject : Subject) : Option ObjectId :=
  w.known? site.context subject.identity (.wrapper subject.kind)

/-- Adds a new wrapper, and remembers it. -/
def World.pushWrapper (w : World σ) (site : Site) (subject : Subject) : World σ :=
  ((w.push (site.wrapper subject)).keep site.context subject.identity
    (subject.entry w.heap.next)).note
    (.asked site.context subject.identity (subject.entry w.heap.next) true)

namespace ScriptM

/-- The outcome of an operation and the world that it leaves. -/
def on (act : ScriptM σ α) (w : World σ) : Except ScriptError α × World σ := act.run.run w

/-! ## Single steps -/

@[simp] theorem on_get (w : World σ) : (get : ScriptM σ (World σ)).on w = (.ok w, w) := rfl

@[simp] theorem on_view (w : World σ) : (view : ScriptM σ (View σ)).on w = (.ok w.view, w) := rfl

@[simp] theorem on_note (event : Event) (w : World σ) :
    (note event : ScriptM σ Unit).on w = (.ok (), w.note event) := rfl

@[simp] theorem on_allocate (object : ScriptObject) (w : World σ) :
    (allocate object).on w = (.ok w.heap.next, w.push object) := rfl

@[simp] theorem on_freshAddress (w : World σ) :
    (freshAddress : ScriptM σ Nat).on w =
      (.ok w.host.next, { w with host := w.host.fresh.2 }) := rfl

@[simp] theorem on_store (id : ObjectId) (w : World σ) :
    (store id : ScriptM σ Store).on w = (.ok (w.heap.store id), w) := rfl

theorem on_throwHost (e : HostError) (w : World σ) :
    (throwHost e : ScriptM σ α).on w = (.error (.thrown (.object w.heap.next)), w.pushError e) :=
  rfl

/-! ## Steps in a row -/

theorem on_bind (act : ScriptM σ α) (next : α → ScriptM σ β) (w : World σ) :
    (act >>= next).on w = match act.on w with
      | (.ok a, w') => (next a).on w'
      | (.error e, w') => (.error e, w') := by
  show (match act w with | (r, w') => ExceptT.bindCont next r w') = _
  unfold on
  show _ = match act w with
    | (.ok a, w') => (next a) w'
    | (.error e, w') => (.error e, w')
  cases act w with
  | mk r w' => cases r <;> rfl

/-- After a step that succeeds comes the next one. -/
theorem on_bind_of_ok {act : ScriptM σ α} {a : α} {w w' : World σ} (h : act.on w = (.ok a, w'))
    (next : α → ScriptM σ β) : (act >>= next).on w = (next a).on w' := by
  rw [on_bind, h]

@[simp] theorem on_get_bind (next : World σ → ScriptM σ β) (w : World σ) :
    (get >>= next : ScriptM σ β).on w = (next w).on w := rfl

theorem on_map (f : α → β) (act : ScriptM σ α) (w : World σ) :
    (f <$> act).on w = match act.on w with
      | (.ok a, w') => (.ok (f a), w')
      | (.error e, w') => (.error e, w') := by
  rw [map_eq_pure_bind, on_bind]
  rfl

/-- What is made of a result leaves the same world. -/
theorem on_map_eq (f : α → β) (act : ScriptM σ α) (w : World σ) :
    (f <$> act).on w = ((act.on w).1.map f, (act.on w).2) := by
  rw [on_map]
  match act.on w with
  | (.ok _, _) | (.error _, _) => rfl

/-- Throwing the result of an operation away leaves the same world. -/
theorem on_discard (act : ScriptM σ α) (w : World σ) :
    (discard act).on w = ((act.on w).1.map fun _ => (), (act.on w).2) := by
  show (Function.const α () <$> act).on w = _
  rw [on_map]
  cases act.on w with
  | mk r w' => cases r <;> rfl

/-! ## Host code -/

theorem on_hostCall [Host σ] (i : Invocation) (w : World σ) :
    (hostCall i).on w = match w.invoke i with
      | (.ok value, w') => (.ok value, w')
      | (.error e, w') => (.error (.thrown (.object w.heap.next)), w'.pushError e) := by
  have hattempt : (attempt i.run).on w =
      (.ok (w.invoke i).1, { w with host := (w.invoke i).2.host }) := rfl
  have hnote : (note (.ran i (w.invoke i).1)).on { w with host := (w.invoke i).2.host } =
      (.ok (), (w.invoke i).2) := rfl
  rw [hostCall, on_bind_of_ok hattempt, on_bind_of_ok hnote]
  cases h : w.invoke i with
  | mk outcome w' =>
    cases outcome with
    | ok value => rfl
    | error e =>
      have hheap : w.heap = w'.heap := congrArg (·.2.heap) h
      rw [hheap]
      exact on_throwHost e w'

end ScriptM

/-! ## What a context remembers -/

/-- What is asked for under a key is what is remembered there, or else what is given, which is
remembered from then on. -/
theorem on_remember (context : Option ContextId) (key : Identity) (entry : Entry) (w : World σ) :
    (remember context key entry.kind (pure entry.content)).on w =
      match w.known? context key entry.kind with
      | some content => (.ok content, w.note (.asked context key ⟨entry.kind, content⟩ false))
      | none => (.ok entry.content, (w.keep context key entry).note (.asked context key entry true))
    := by
  simp only [remember, ScriptM.on_get_bind]
  cases w.known? context key entry.kind with
  | some content => rfl
  | none => rfl

/-! ## Wrappers -/

/-- The wrapper that a site remembers is handed out again; any other is new, and remembered. -/
theorem on_wrap (site : Site) (subject : Subject) (w : World σ) :
    (wrap site subject).on w = match w.wrapper? site subject with
      | some id => (.ok id, w.note (.asked site.context subject.identity (subject.entry id) false))
      | none => (.ok w.heap.next, w.pushWrapper site subject) := by
  simp only [wrap, remember, ScriptM.on_get_bind, World.wrapper?]
  cases w.known? site.context subject.identity (.wrapper subject.kind) with
  | some id => rfl
  | none => rfl

/-- A host value that is wrapped crosses as its wrapper. -/
theorem on_crossOut {site : Site} {subject : Subject} {w w' : World σ} {id : ObjectId}
    (h : (wrap site subject).on w = (.ok id, w')) :
    (crossOut site subject.value).on w = (.ok (.object id), w') := by
  cases subject with
  | object o => exact ScriptM.on_bind_of_ok h _
  | function c => exact ScriptM.on_bind_of_ok h _
  | constructor c => exact ScriptM.on_bind_of_ok h _

/-- A value that crosses to script code, once its converter has decided about it. -/
theorem on_toScript [Naming σ] (site : Site) (value : HostValue) (w : World σ) :
    (toScript site value).on w =
      match site.policy.converter.outgoing (w.view.className value) value with
      | .error e => (.error e, w.note (.outgoing value (.error e)))
      | .ok (some replacement) =>
        (.ok replacement, w.note (.outgoing value (.ok (some replacement))))
      | .ok none => (crossOut site value).on (w.note (.outgoing value (.ok none))) := by
  simp only [toScript, ScriptM.on_bind, ScriptM.on_view, ScriptM.on_note]
  cases site.policy.converter.outgoing (w.view.className value) value with
  | error e => rfl
  | ok decision => cases decision <;> rfl

/-- A value that crosses to the host, as its converter lets it. -/
theorem on_toHost (policy : Policy) (value : ScriptValue) (w : World σ) :
    (toHost policy value).on w =
      (policy.converter.letIn w.heap value,
        w.note (.incoming value (policy.converter.letIn w.heap value))) := by
  simp only [toHost, ScriptM.on_bind, ScriptM.on_get, ScriptM.on_note]
  cases policy.converter.letIn w.heap value with
  | error e => rfl
  | ok hostValue => rfl

/-! ## Catching -/

/-- A thrown value is handed to the handler as it is. -/
theorem on_tryCatch_of_thrown {realm : Option Realm} {body : ScriptM σ α} {value : ScriptValue}
    {w w' : World σ} (h : body.on w = (.error (.thrown value), w'))
    (handler : ScriptValue → ScriptM σ α) :
    (tryCatch realm body handler).on w = (handler value).on w' := by
  have hbody : body w = (.error (.thrown value), w') := h
  show (ExceptT.tryCatch body fun e => e.caught realm >>= handler) w = _
  simp only [ExceptT.tryCatch, ExceptT.mk]
  show StateT.bind _ _ w = _
  rw [StateT.bind, hbody]
  rfl

end Membrane
