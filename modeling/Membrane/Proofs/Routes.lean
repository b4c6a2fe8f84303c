import Membrane.Proofs.Fitting
import Membrane.Proofs.Method

/-!
# Routes to host code

Script code has host code run by five routes: by a call, by reading or writing a property through a
member, and by reading or writing by index. `Invocation.Routed` lists them with the arguments that
each hands over. By all of them but one, the arguments fit the arity of what is run.
-/

namespace Membrane

variable {σ α β : Type}

/-! ## Routes to host code -/

namespace Invocation

/-- The declared arity of what is run. -/
def arity : Invocation → Arity
  | member _ m _ => m.arity
  | callable c _ _ => c.arity
  | hostClass c _ => c.arity

/-- The arguments that are handed over. -/
def args : Invocation → List HostValue
  | member _ _ args => args
  | callable _ _ args => args
  | hostClass _ args => args

variable (σ) [Host σ]

/-- The run is a write of one value through a member that is found under the name of a writer. -/
def IsWrite (i : Invocation) : Prop :=
  ∃ (s : σ) (host : HostValue) (name : String) (m : Member) (value : HostValue),
    host.member? s (writerName name) = some m ∧ i = .member host m [value]

/-- The routes by which script code has host code run. -/
inductive Routed : Invocation → Prop where
  /-- A call or a construction, with arguments that were fitted. -/
  | called (callee : Callee) (receiver : Option HostValue) (args : List HostValue)
      (fitted : callee.arity.Admits args.length) : Routed (callee.invocation receiver args)
  /-- A read through a member without parameters. -/
  | read (host : HostValue) (m : Member) (parameters : m.arity = .exactly 0) :
      Routed (.member host m [])
  /-- A read by index. -/
  | readIndex (host : HostValue) (m : Member) (key : PropertyKey)
      (parameters : m.arity = .exactly 1) : Routed (.member host m [key.toHost])
  /-- A write through a member, whatever the arity that it declares. -/
  | written {i : Invocation} (write : i.IsWrite σ) : Routed i
  /-- A write by index. -/
  | writtenIndex (host : HostValue) (m : Member) (key : PropertyKey) (value : HostValue)
      (parameters : m.arity = .exactly 2) : Routed (.member host m [key.toHost, value])

variable {σ}

/-- By every route but a write through a member, the arguments fit. -/
theorem Routed.admits {i : Invocation} (h : i.Routed σ) :
    i.arity.Admits i.args.length ∨ i.IsWrite σ := by
  cases h with
  | called callee receiver args fitted =>
    left
    cases callee with
    | callable c => exact fitted
    | hostClass c => exact fitted
  | read host m parameters =>
    left
    show m.arity.Admits 0
    rw [parameters]
    decide
  | readIndex host m key parameters =>
    left
    show m.arity.Admits 1
    rw [parameters]
    decide
  | written write => exact .inr write
  | writtenIndex host m key value parameters =>
    left
    show m.arity.Admits 2
    rw [parameters]
    decide

end Invocation

/-- A member that reads by index has one parameter. -/
theorem HostValue.arity_of_indexReader? [Host σ] {s : σ} {host : HostValue} {key : PropertyKey}
    {m : Member} (h : host.indexReader? s key = some m) : m.arity = .exactly 1 := by
  unfold indexReader? at h
  split at h
  · cases h
  · exact of_decide_eq_true (Option.filter_eq_some_iff.1 h).2

/-- A member that writes by index has two parameters. -/
theorem HostValue.arity_of_indexWriter? [Host σ] {s : σ} {host : HostValue} {key : PropertyKey}
    {m : Member} (h : host.indexWriter? s key = some m) : m.arity = .exactly 2 := by
  unfold indexWriter? at h
  split at h
  · cases h
  · exact of_decide_eq_true (Option.filter_eq_some_iff.1 h).2

/-- Every element of a list leads to one result. -/
theorem ScriptM.length_of_mapM {f : α → ScriptM σ β} {l : List α} {bs : List β} {w w' : World σ}
    (h : (l.mapM f).on w = (.ok bs, w')) : bs.length = l.length := by
  induction l generalizing bs w with
  | nil =>
    cases h
    rfl
  | cons a l ih =>
    rw [List.mapM_cons, on_bind] at h
    match hhead : (f a).on w with
    | (.error e, w₁) =>
      rw [hhead] at h
      cases h
    | (.ok b, w₁) =>
      rw [hhead] at h
      dsimp only at h
      rw [on_bind] at h
      match htail : (l.mapM f).on w₁ with
      | (.error e, w₂) =>
        rw [htail] at h
        cases h
      | (.ok bs', w₂) =>
        rw [htail] at h
        cases h
        rw [List.length_cons, ih htail, List.length_cons]

end Membrane
