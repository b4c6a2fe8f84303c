import Membrane.Proofs.Keys
import Membrane.Proofs.Method

/-!
# Over the border and back

`World.returned` is what a host value comes back as that crosses to script code and then crosses
back. It depends on the context only: a wrapped value comes back as the value behind the wrapper that
the context remembers under its key. As long as values only cross, that is the value itself, unless
it is a callable; then it is one that is written alike.
-/

namespace Membrane

variable {σ : Type} {w w' : World σ}

/-- What a wrapped value comes back as: the value behind the wrapper that the context remembers under
its key, or the value itself, which gets a new one. -/
def World.rewrapped (w : World σ) (context : Option ContextId) (subject : Subject) : HostValue :=
  match w.known? context subject.identity (.wrapper subject.kind) with
  | some id => w.heap.crossIn (.object id)
  | none => subject.value

/-- What a host value comes back as that crosses to script code in a context and back again. -/
def World.returned (w : World σ) (context : Option ContextId) : HostValue → HostValue
  | .object o => w.rewrapped context (.object o)
  | .callable c => w.rewrapped context (.function c)
  | .hostClass c => w.rewrapped context (.constructor c)
  | .float x => .float (ScriptNumber.ofBinary64 x).toBinary64
  | .script value => w.heap.crossIn value
  | value => value

/-! ## The round trip -/

/-- A number with its kind crosses as the float that it stands for, unless it is an integer. -/
theorem Heap.crossIn_ofBinary64 (h : Heap) (x : Binary64) :
    h.crossIn (.number (.ofBinary64 x)) = .float (ScriptNumber.ofBinary64 x).toBinary64 := by
  unfold ScriptNumber.ofBinary64
  match x.reading with
  | .nan => rfl
  | .infinity false => rfl
  | .infinity true => rfl
  | .finite .. => rfl

theorem Heap.crossIn_of_wrapper? {h : Heap} {id : ObjectId} {v : Wrapper}
    (hv : h.wrapper? id = some v) : h.crossIn (.object id) = v.subject.value := by
  rw [crossIn, hv]

theorem on_wrap_rewrapped (site : Site) (subject : Subject) (w : World σ) :
    ∃ id w', (wrap site subject).on w = (.ok id, w') ∧
      w'.heap.crossIn (.object id) = w.rewrapped site.context subject ∧ w'.host = w.host := by
  rw [on_wrap]
  cases h : w.wrapper? site subject with
  | some id =>
    have hknown : w.known? site.context subject.identity (.wrapper subject.kind) = some id := h
    refine ⟨id, _, rfl, ?_, rfl⟩
    rw [World.rewrapped, hknown]
    rfl
  | none =>
    have hknown : w.known? site.context subject.identity (.wrapper subject.kind) = none := h
    refine ⟨w.heap.next, w.pushWrapper site subject, rfl, ?_, World.host_pushWrapper ..⟩
    rw [World.rewrapped, hknown, World.heap_pushWrapper]
    exact Heap.crossIn_of_wrapper? (Heap.wrapper?_push_next _)

/-- A value that crosses to script code becomes one that crosses back as `returned` says. Neither the
host's side nor the runs of host code change. -/
theorem on_crossOut_returned (site : Site) (value : HostValue) (w : World σ) :
    ∃ r w', (crossOut site value).on w = (.ok r, w') ∧
      w'.heap.crossIn r = w.returned site.context value ∧ w'.host = w.host ∧ w'.runs = w.runs := by
  have hwrapped : ∀ subject : Subject,
      ∃ r w', (crossOut site subject.value).on w = (.ok r, w') ∧
        w'.heap.crossIn r = w.rewrapped site.context subject ∧ w'.host = w.host ∧
        w'.runs = w.runs := by
    intro subject
    obtain ⟨id, w', hwrap, hback, hhost⟩ := on_wrap_rewrapped site subject w
    have hruns := runs_wrap site subject w
    rw [hwrap] at hruns
    exact ⟨.object id, w', on_crossOut hwrap, hback, hhost, hruns⟩
  cases value with
  | object o => exact hwrapped (.object o)
  | callable c => exact hwrapped (.function c)
  | hostClass c => exact hwrapped (.constructor c)
  | float x => exact ⟨_, w, rfl, w.heap.crossIn_ofBinary64 x, rfl, rfl⟩
  | nil => exact ⟨_, w, rfl, rfl, rfl, rfl⟩
  | bool b => exact ⟨_, w, rfl, rfl, rfl, rfl⟩
  | int n => exact ⟨_, w, rfl, rfl, rfl, rfl⟩
  | str text => exact ⟨_, w, rfl, rfl, rfl, rfl⟩
  | script value => exact ⟨_, w, rfl, rfl, rfl, rfl⟩

/-- What a value comes back as depends on the heap and the contexts only. -/
theorem World.returned_congr (hheap : w'.heap = w.heap) (hcontexts : w'.contexts = w.contexts)
    (context : Option ContextId) (value : HostValue) :
    w'.returned context value = w.returned context value := by
  have hrewrapped : ∀ subject, w'.rewrapped context subject = w.rewrapped context subject := by
    intro subject
    have hcontext : w'.context? = w.context? := by
      funext id
      exact context?_congr hcontexts id
    rw [rewrapped, known?, hcontext, hheap]
    rfl
  cases value with
  | object o => exact hrewrapped _
  | callable c => exact hrewrapped _
  | hostClass c => exact hrewrapped _
  | script value => rw [returned, hheap, returned]
  | _ => rfl

/-! ## Different contexts -/

/-- The same value, or two callables that are written alike. -/
def HostValue.WrittenAlike (a b : HostValue) : Prop :=
  a = b ∨ ∃ c c', a = .callable c ∧ b = .callable c' ∧ c.render = c'.render

/-- Host values of one key are the same, or callables that are written alike. -/
theorem writtenAlike_of_identity {a b : Subject} (h : a.identity = b.identity) :
    a.value.WrittenAlike b.value := by
  cases a with
  | object o =>
    cases b <;> cases h
    exact .inl rfl
  | function c =>
    cases b with
    | function c' => exact .inr ⟨c, c', rfl, rfl, Identity.callable.inj h⟩
    | object o => cases h
    | constructor k => cases h
  | constructor k =>
    cases b <;> cases h
    exact .inl rfl

/-- Where entries suit their keys, what a wrapped value comes back as has the same key. -/
theorem World.Keyed.rewrapped (h : w.Keyed) (context : Option ContextId) (subject : Subject) :
    ∃ subject' : Subject, w.rewrapped context subject = subject'.value ∧
      subject'.identity = subject.identity := by
  unfold World.rewrapped
  cases hknown : w.known? context subject.identity (.wrapper subject.kind) with
  | none => exact ⟨subject, rfl, rfl⟩
  | some id =>
    obtain ⟨v, hv, hidentity⟩ := h.exists_wrapper hknown
    exact ⟨v.subject, Heap.crossIn_of_wrapper? hv, hidentity⟩

/-- In a world that was reached plainly, a value comes back alike from any two contexts. -/
theorem World.PlainlyReachable.returned_writtenAlike [Host σ] (hw : w.PlainlyReachable)
    (context context' : Option ContextId) (value : HostValue) :
    (w.returned context value).WrittenAlike (w.returned context' value) := by
  have hwrapped : ∀ subject : Subject,
      (w.rewrapped context subject).WrittenAlike (w.rewrapped context' subject) := by
    intro subject
    obtain ⟨a, ha, hidentity⟩ := hw.honestly.keyed.rewrapped context subject
    obtain ⟨b, hb, hidentity'⟩ := hw.honestly.keyed.rewrapped context' subject
    rw [ha, hb]
    have hsame : a.identity = b.identity := hidentity.trans hidentity'.symm
    exact writtenAlike_of_identity hsame
  cases value with
  | object o => exact hwrapped (.object o)
  | callable c => exact hwrapped (.function c)
  | hostClass c => exact hwrapped (.constructor c)
  | _ => exact .inl rfl

end Membrane
