import Membrane.Proofs.Outcome
import Mathlib.Data.List.Forall2

/-!
# Offering values to a converter

Values that cross to the host are offered to a converter in order, up to the first one that it
refuses. A call offers the arguments as they fit the arity of what is called, then the receiver if
that is handed on. If all of them are admitted, it comes to one run of host code (`Callee.on_call`).
The standard converter admits every value as what it crosses as.
-/

namespace Membrane

variable {σ : Type}

/-! ## Runs of host code -/

/-- The run of host code that an event reports. -/
def Event.run? : Event → Option (Invocation × Except HostError HostValue)
  | .ran i outcome => some (i, outcome)
  | _ => none

/-- All runs of host code that script code asked for so far. -/
def World.runs (w : World σ) : List (Invocation × Except HostError HostValue) :=
  w.journal.filterMap (·.run?)

theorem World.runs_note (w : World σ) (event : Event) :
    (w.note event).runs = w.runs ++ event.run?.toList := by
  rw [runs, note, List.filterMap_append, List.filterMap_cons, runs]
  cases event.run? <;> rfl

/-- The same world but for what crossed in between. -/
structure World.Alike (w w' : World σ) : Prop where
  heap : w'.heap = w.heap
  contexts : w'.contexts = w.contexts
  host : w'.host = w.host
  runs : w'.runs = w.runs

theorem World.Alike.trans {w₁ w₂ w₃ : World σ} (h : w₁.Alike w₂) (h' : w₂.Alike w₃) : w₁.Alike w₃ :=
  ⟨h'.heap.trans h.heap, h'.contexts.trans h.contexts, h'.host.trans h.host, h'.runs.trans h.runs⟩

theorem World.alike_note (w : World σ) {event : Event} (h : event.run? = none) :
    w.Alike (w.note event) :=
  ⟨rfl, rfl, rfl, by rw [runs_note, h]; exact List.append_nil _⟩

/-! ## Offering values to a converter -/

/-- The converter of a policy lets a script value cross as a host value. -/
def Policy.Admits (policy : Policy) (h : Heap) (value : ScriptValue) (hostValue : HostValue) :
    Prop :=
  policy.converter.letIn h value = .ok hostValue

/-- A value is the first of some that the converter of a policy refuses. -/
structure Policy.RefusesAfter (policy : Policy) (h : Heap) (before : List ScriptValue)
    (value : ScriptValue) (e : ScriptError) : Prop where
  admitted : ∃ hostValues, List.Forall₂ (policy.Admits h) before hostValues
  refused : policy.converter.letIn h value = .error e

/-- The world after script values were offered to the converter of a policy, in order. -/
def World.offer (w : World σ) (policy : Policy) (values : List ScriptValue) : World σ :=
  { w with journal := w.journal ++
      values.map fun value => .incoming value (policy.converter.letIn w.heap value) }

namespace World

variable (w : World σ) (policy : Policy)

theorem offer_nil : w.offer policy [] = w := by
  rw [offer, List.map_nil, List.append_nil]

theorem offer_append (values more : List ScriptValue) :
    (w.offer policy values).offer policy more = w.offer policy (values ++ more) := by
  simp only [offer, List.map_append, List.append_assoc]

theorem alike_offer (values : List ScriptValue) : w.Alike (w.offer policy values) := by
  refine ⟨rfl, rfl, rfl, ?_⟩
  have hnone : ∀ event ∈ values.map fun value =>
      Event.incoming value (policy.converter.letIn w.heap value), event.run? = none := by
    intro event hevent
    obtain ⟨value, -, rfl⟩ := List.mem_map.1 hevent
    rfl
  rw [runs, offer, List.filterMap_append, List.filterMap_eq_nil_iff.2 hnone, List.append_nil, runs]

theorem on_toHost_eq (value : ScriptValue) :
    (toHost policy value).on w = (policy.converter.letIn w.heap value, w.offer policy [value]) :=
  on_toHost policy value w

/-- Values cross to the host in order, all of them or up to the first one that is refused. -/
theorem on_mapM_toHost (values : List ScriptValue) :
    (∃ hostValues, List.Forall₂ (policy.Admits w.heap) values hostValues ∧
      (values.mapM (toHost policy)).on w = (.ok hostValues, w.offer policy values)) ∨
    ∃ before value after e, values = before ++ value :: after ∧
      policy.RefusesAfter w.heap before value e ∧
      (values.mapM (toHost policy)).on w = (.error e, w.offer policy (before ++ [value])) := by
  induction values generalizing w with
  | nil => exact .inl ⟨[], .nil, by rw [offer_nil]; rfl⟩
  | cons value values ih =>
    rw [List.mapM_cons, ScriptM.on_bind, on_toHost_eq]
    cases hvalue : policy.converter.letIn w.heap value with
    | error e => exact .inr ⟨[], value, values, e, rfl, ⟨⟨[], .nil⟩, hvalue⟩, rfl⟩
    | ok hostValue =>
      dsimp only
      rcases ih (w.offer policy [value]) with
        ⟨hostValues, hadmits, hrest⟩ | ⟨before, refused, after, e, rfl, hrefuses, hrest⟩
      · refine .inl ⟨hostValue :: hostValues, .cons hvalue hadmits, ?_⟩
        rw [ScriptM.on_bind_of_ok hrest, offer_append]
        rfl
      · obtain ⟨hostValues, hadmitted⟩ := hrefuses.admitted
        refine .inr ⟨value :: before, refused, after, e, rfl,
          ⟨⟨hostValue :: hostValues, .cons hvalue hadmitted⟩, hrefuses.refused⟩, ?_⟩
        rw [ScriptM.on_bind, hrest, offer_append]
        rfl

end World

/-! ## The standard converter -/

section Standard

variable {policy : Policy} (hp : policy.converter = .standard)
include hp

theorem Policy.admits_standard {h : Heap} {value : ScriptValue} {hostValue : HostValue}
    (hadmits : policy.Admits h value hostValue) : hostValue = h.crossIn value := by
  rw [Admits, hp] at hadmits
  exact (Except.ok.inj hadmits).symm

theorem Policy.forall₂_admits_standard {h : Heap} {values : List ScriptValue}
    {hostValues : List HostValue} (hadmits : List.Forall₂ (policy.Admits h) values hostValues) :
    hostValues = values.map h.crossIn := by
  induction hadmits with
  | nil => rfl
  | cons hvalue _ ih => rw [List.map_cons, ← Policy.admits_standard hp hvalue, ← ih]

theorem Policy.not_refusesAfter_standard {h : Heap} {before : List ScriptValue}
    {value : ScriptValue} {e : ScriptError} : ¬ policy.RefusesAfter h before value e := by
  intro hrefuses
  have hrefused := hrefuses.refused
  rw [hp] at hrefused
  cases hrefused

end Standard

/-! ## The values of a call -/

namespace Callee

/-- The values that a call offers to the converter, in order: the fitted arguments, then the
receiver if it is handed on. -/
def offered (callee : Callee) (this : ScriptValue) (args : List ScriptValue) : List ScriptValue :=
  callee.arity.fit .null args ++ if callee.takesReceiver then [this] else []

/-- What becomes of the receiver of a call: it crosses if it is handed on. -/
def Receives (callee : Callee) (policy : Policy) (h : Heap) (this : ScriptValue) :
    Option HostValue → Prop
  | some receiver => callee.takesReceiver = true ∧ policy.Admits h this receiver
  | none => callee.takesReceiver = false

theorem on_receiver (callee : Callee) (policy : Policy) (this : ScriptValue) (w : World σ) :
    (∃ receiver, callee.Receives policy w.heap this receiver ∧
      (callee.receiver policy this).on w =
        (.ok receiver, w.offer policy (if callee.takesReceiver then [this] else []))) ∨
    ∃ e, callee.takesReceiver = true ∧ policy.converter.letIn w.heap this = .error e ∧
      (callee.receiver policy this).on w = (.error e, w.offer policy [this]) := by
  unfold Callee.receiver
  cases htakes : callee.takesReceiver with
  | false =>
    simp only [Bool.false_eq_true, if_false, World.offer_nil]
    exact .inl ⟨none, htakes, rfl⟩
  | true =>
    simp only [if_true, ScriptM.on_map, World.on_toHost_eq]
    cases hthis : policy.converter.letIn w.heap this with
    | error e => exact .inr ⟨e, trivial, rfl, rfl⟩
    | ok receiver => exact .inl ⟨some receiver, ⟨htakes, hthis⟩, rfl⟩

variable [Host σ]

/-- A call ends at the first value that is refused, or comes to a run of host code. -/
theorem on_call (callee : Callee) (site : Site) (this : ScriptValue) (args : List ScriptValue)
    (w : World σ) :
    (∃ before value after e, callee.offered this args = before ++ value :: after ∧
      site.policy.RefusesAfter w.heap before value e ∧
      (callee.call site this args).on w = (.error e, w.offer site.policy (before ++ [value]))) ∨
    ∃ hostArgs receiver,
      List.Forall₂ (site.policy.Admits w.heap) (callee.arity.fit .null args) hostArgs ∧
      callee.Receives site.policy w.heap this receiver ∧
      (callee.call site this args).on w =
        (ScriptM.hostCall (callee.invocation receiver hostArgs) >>= toScript site).on
          (w.offer site.policy (callee.offered this args)) := by
  rcases w.on_mapM_toHost site.policy (callee.arity.fit .null args) with
    ⟨hostArgs, hadmits, hargs⟩ | ⟨before, value, after, e, hvalues, hrefuses, hargs⟩
  case inr =>
    refine .inl ⟨before, value, after ++ if callee.takesReceiver then [this] else [], e, ?_,
      hrefuses, ?_⟩
    · rw [offered, hvalues, List.append_assoc, List.cons_append]
    · rw [call, ScriptM.on_bind, hargs]
  let w₁ := w.offer site.policy (callee.arity.fit .null args)
  rcases callee.on_receiver site.policy this w₁ with
    ⟨receiver, hreceives, hreceiver⟩ | ⟨e, htakes, hrefused, hreceiver⟩
  · refine .inr ⟨hostArgs, receiver, hadmits, hreceives, ?_⟩
    rw [call, ScriptM.on_bind_of_ok hargs, ScriptM.on_bind_of_ok hreceiver, World.offer_append]
    rfl
  · refine .inl ⟨_, this, [], e, by rw [offered, htakes, if_pos rfl],
      ⟨⟨hostArgs, hadmits⟩, hrefused⟩, ?_⟩
    rw [call, ScriptM.on_bind_of_ok hargs, ScriptM.on_bind, hreceiver, World.offer_append]

end Callee

end Membrane
