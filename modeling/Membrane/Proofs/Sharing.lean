import Membrane.Proofs.Addresses
import Mathlib.Data.List.Basic

/-!
# Identity as an equivalence

Where no opaque float of script code is involved, identity of host values is equality of the
records, and identity by addresses is equality of what is left of the records when only addresses
are looked at (`HostValue.bare`). So both are equivalence relations, through bound methods of any
depth.

A program comes by a callable by making a function or a method, by binding a method that it holds to
a value that it holds, by unbinding, or by copying (`Holding.Step`). Binding and unbinding hand the
body on as it is, so that whatever a program holds is made of a stock (`Holding.Attainable.stock`),
and callables that share a body share its written form and its arity.
-/

namespace Membrane

/-! ## Values without opaque floats -/

mutual

/-- An opaque script float is the value, or the receiver that is bound innermost in it. -/
def HostValue.hidesFloat : HostValue → Bool
  | .callable c => c.hidesFloat
  | .script (.number (.float _)) => true
  | _ => false

/-- An opaque script float is bound innermost in the callable. -/
def HostCallable.hidesFloat : HostCallable → Bool
  | .bound receiver _ => receiver.hidesFloat
  | _ => false

end

/-- Script numbers other than floats are the same exactly if they are equal. -/
theorem ScriptNumber.same_iff {m : ScriptNumber} (hm : ∀ x, m ≠ .float x) (n : ScriptNumber) :
    m.same n = true ↔ m = n := by
  cases m with
  | float x => exact absurd rfl (hm x)
  | integer i =>
    cases n with
    | integer j => exact beq_iff_eq.trans ⟨congrArg integer, integer.inj⟩
    | _ => exact iff_of_false Bool.false_ne_true (fun h => nomatch h)
  | _ =>
    cases n <;>
      first
      | exact iff_of_true rfl rfl
      | exact iff_of_false Bool.false_ne_true (fun h => nomatch h)

/-- Script values other than floats are the same exactly if they are equal. -/
theorem ScriptValue.same_iff {a : ScriptValue} (ha : ∀ x, a ≠ .number (.float x))
    (b : ScriptValue) : a.same b = true ↔ a = b := by
  cases a with
  | number m =>
    have hm : ∀ x, m ≠ .float x := fun x hx => ha x (congrArg ScriptValue.number hx)
    cases b <;> simp [same, ScriptNumber.same_iff hm]
  | _ => cases b <;> simp [same]

mutual

/-- A value that hides no float is identical to nothing but itself. -/
theorem HostValue.identical_iff : ∀ (a b : HostValue), a.hidesFloat = false →
    (a.identical b = true ↔ a = b)
  | .nil, b, _ | .bool _, b, _ | .int _, b, _ | .float _, b, _ | .str _, b, _ | .object _, b, _
  | .hostClass _, b, _ => by cases b <;> simp [HostValue.identical]
  | .callable c, b, h => by
    cases b with
    | callable d => simp [HostValue.identical, HostCallable.sameAs_iff c d h]
    | _ => simp [HostValue.identical]
  | .script v, b, h => by
    have hv : ∀ x, v ≠ .number (.float x) := by
      rintro x rfl
      cases h
    cases b <;> simp [HostValue.identical, ScriptValue.same_iff hv]

theorem HostCallable.sameAs_iff : ∀ (c d : HostCallable), c.hidesFloat = false →
    (c.sameAs d = true ↔ c = d)
  | .free _, d, _ | .unbound _, d, _ => by cases d <;> simp [HostCallable.sameAs]
  | .bound r m, d, h => by
    cases d with
    | bound r' n =>
      simp [HostCallable.sameAs, HostValue.identical_iff r r' h, and_comm]
    | _ => simp [HostCallable.sameAs]

end

/-! ## Values known by addresses -/

mutual

/-- What is left of a value when only addresses are looked at. -/
def HostValue.bare : HostValue → HostValue
  | .object o => .object ⟨o.address, ""⟩
  | .callable c => .callable c.bare
  | .hostClass k => .hostClass ⟨k.address, "", ⟨0⟩, .custom ⟨0⟩⟩
  | value => value

/-- What is left of a callable when only addresses are looked at. -/
def HostCallable.bare : HostCallable → HostCallable
  | .free f => .free ⟨f.address, none, ⟨0⟩, ⟨0⟩⟩
  | .bound receiver m => .bound receiver.bare ⟨m.address, "", "", ⟨0⟩, .code ⟨0⟩ none⟩
  | .unbound m => .unbound ⟨m.address, "", "", ⟨0⟩, .code ⟨0⟩ none⟩

end

mutual

theorem HostValue.hidesFloat_bare : ∀ value : HostValue, value.bare.hidesFloat = value.hidesFloat
  | .callable c => HostCallable.hidesFloat_bare c
  | .nil | .bool _ | .int _ | .float _ | .str _ | .object _ | .hostClass _ | .script _ => rfl

theorem HostCallable.hidesFloat_bare : ∀ c : HostCallable, c.bare.hidesFloat = c.hidesFloat
  | .bound receiver _ => HostValue.hidesFloat_bare receiver
  | .free _ | .unbound _ => rfl

end

mutual

/-- Identity by addresses is identity of what is left of the values. -/
theorem HostValue.sameAddress_eq_bare : ∀ a b : HostValue,
    a.sameAddress b = a.bare.identical b.bare
  | .callable c, b => by
    cases b with
    | callable d => exact HostCallable.sharesBody_eq_bare c d
    | _ => rfl
  | .object o, b => by
    cases b with
    | object p => exact beq_eq_beq.2 (by simp)
    | _ => rfl
  | .hostClass k, b => by
    cases b with
    | hostClass l => exact beq_eq_beq.2 (by simp)
    | _ => rfl
  | .nil, b | .bool _, b | .int _, b | .float _, b | .str _, b | .script _, b => by
    cases b <;> rfl

theorem HostCallable.sharesBody_eq_bare : ∀ c d : HostCallable,
    c.sharesBody d = c.bare.sameAs d.bare
  | .free f, d => by
    cases d with
    | free g => exact beq_eq_beq.2 (by simp)
    | _ => rfl
  | .unbound m, d => by
    cases d with
    | unbound n => exact beq_eq_beq.2 (by simp)
    | _ => rfl
  | .bound r m, d => by
    cases d with
    | bound r' n =>
      exact congrArg₂ and (beq_eq_beq.2 (by simp)) (HostValue.sameAddress_eq_bare r r')
    | _ => rfl

end

theorem HostValue.sameAddress_iff {a : HostValue} (ha : a.hidesFloat = false) (b : HostValue) :
    a.sameAddress b = true ↔ a.bare = b.bare := by
  rw [sameAddress_eq_bare, identical_iff _ _ ((hidesFloat_bare a).trans ha)]

theorem HostCallable.sharesBody_iff {c : HostCallable} (hc : c.hidesFloat = false)
    (d : HostCallable) : c.sharesBody d = true ↔ c.bare = d.bare := by
  rw [sharesBody_eq_bare, sameAs_iff _ _ ((hidesFloat_bare c).trans hc)]

/-! ## What a program holds -/

mutual

/-- What was made for a value: an object, a class, a function, or a method with what was made for
the receiver that it is bound to. -/
def HostValue.items : HostValue → List HostItem
  | .object o => [.object o]
  | .callable c => c.items
  | .hostClass k => [.hostClass k]
  | _ => []

/-- What was made for a callable. -/
def HostCallable.items : HostCallable → List HostItem
  | .free f => [.function f]
  | .bound receiver m => .method m :: receiver.items
  | .unbound m => [.method m]

end

mutual

theorem HostValue.madeOf_of_items {s : Stock} : ∀ value : HostValue, value.items ⊆ s →
    value.MadeOf s
  | .object _, h | .hostClass _, h => h (List.mem_singleton_self _)
  | .callable c, h => HostCallable.madeOf_of_items c h
  | .nil, _ | .bool _, _ | .int _, _ | .float _, _ | .str _, _ | .script _, _ => trivial

theorem HostCallable.madeOf_of_items {s : Stock} : ∀ c : HostCallable, c.items ⊆ s → c.MadeOf s
  | .free _, h | .unbound _, h => h (List.mem_singleton_self _)
  | .bound receiver _, h =>
    ⟨HostValue.madeOf_of_items receiver fun _ hitem => h (List.mem_cons_of_mem _ hitem),
      h List.mem_cons_self⟩

end

/-- The host values that a program holds anywhere. -/
abbrev Holding := List HostValue

namespace Holding

variable {held held' : Holding}

/-- All that was made for what is held, and has not been let go. -/
def stock (held : Holding) : Stock := held.flatMap HostValue.items

/-- Nothing that is held was made at the address. -/
def Frees (held : Holding) (address : Nat) : Prop := ∀ item ∈ held.stock, item.address ≠ address

/-- One step of a program: it comes by a value for which nothing is made, it makes something at a
free address, it binds a method to a value, unbinds one or takes its receiver out, or it copies some
of what it holds and lets go of the rest. -/
inductive Step (held : Holding) : Holding → Prop where
  | plain (value : HostValue) (bare : value.items = []) : Step held (value :: held)
  | object (o : HostObject) (fresh : held.Frees o.address) : Step held (.object o :: held)
  | hostClass (k : HostClass) (fresh : held.Frees k.address) : Step held (.hostClass k :: held)
  | function (f : HostFunction) (fresh : held.Frees f.address) :
    Step held (.callable (.free f) :: held)
  | method (m : HostMethod) (fresh : held.Frees m.address) :
    Step held (.callable (.unbound m) :: held)
  | bind {receiver : HostValue} {m : HostMethod} (there : receiver ∈ held)
    (unbound : .callable (.unbound m) ∈ held) : Step held (.callable (.bound receiver m) :: held)
  | unbind {receiver : HostValue} {m : HostMethod} (bound : .callable (.bound receiver m) ∈ held) :
    Step held (.callable (.unbound m) :: held)
  | receiver {receiver : HostValue} {m : HostMethod}
    (bound : .callable (.bound receiver m) ∈ held) : Step held (receiver :: held)
  | keep {rest : Holding} (sub : rest ⊆ held) : Step held rest

/-- What a program that began with nothing may hold. -/
def Attainable (held : Holding) : Prop := Relation.ReflTransGen Step [] held

theorem items_subset_stock {value : HostValue} (h : value ∈ held) : value.items ⊆ held.stock :=
  fun _ hitem => List.mem_flatMap.2 ⟨value, h, hitem⟩

/-- What comes of things that are there adds nothing to the stock. -/
theorem stock_cons_step {value : HostValue} (h : value.items ⊆ held.stock) :
    Stock.Step held.stock (stock (value :: held)) :=
  .dropped (List.append_subset.2 ⟨h, List.Subset.refl _⟩)

/-- A step of a program makes one thing at most. -/
theorem Step.stock (h : Step held held') : Stock.Step held.stock held'.stock := by
  cases h with
  | plain value bare => exact stock_cons_step (bare ▸ List.nil_subset _)
  | object o fresh => exact .made (.object o) fresh
  | hostClass k fresh => exact .made (.hostClass k) fresh
  | function f fresh => exact .made (.function f) fresh
  | method m fresh => exact .made (.method m) fresh
  | bind there unbound =>
    refine stock_cons_step (List.cons_subset.2 ⟨?_, items_subset_stock there⟩)
    exact items_subset_stock unbound (List.mem_singleton_self _)
  | unbind bound =>
    have hitems := items_subset_stock bound
    exact stock_cons_step (List.cons_subset.2 ⟨hitems List.mem_cons_self, List.nil_subset _⟩)
  | receiver bound =>
    exact stock_cons_step fun _ hitem => items_subset_stock bound (List.mem_cons_of_mem _ hitem)
  | keep sub =>
    refine .dropped fun item hitem => ?_
    obtain ⟨value, hvalue, hmade⟩ := List.mem_flatMap.1 hitem
    exact items_subset_stock (sub hvalue) hmade

/-- Whatever a program does, an address belongs to one thing among all that it holds. -/
theorem Attainable.stock (h : held.Attainable) : held.stock.Attainable := by
  induction h with
  | refl => exact .refl
  | tail _ hstep ih => exact ih.tail hstep.stock

end Holding

/-! ## The equivalence -/

/-- A relation is an equivalence if it compares by what a function makes of the two sides. -/
theorem equivalence_of_iff {α β : Type} {r : α → α → Prop} (f : α → β)
    (h : ∀ a b, r a b ↔ f a = f b) : Equivalence r where
  refl a := (h a a).2 rfl
  symm hab := (h _ _).2 ((h _ _).1 hab).symm
  trans hab hbc := (h _ _).2 (((h _ _).1 hab).trans ((h _ _).1 hbc))

/-- The kinds of callables. -/
inductive CallableKind where
  | free
  | bound
  | unbound
deriving DecidableEq, Repr

namespace HostCallable

/-- The kind of a callable. -/
def kind : HostCallable → CallableKind
  | free _ => .free
  | bound .. => .bound
  | unbound _ => .unbound

theorem kind_eq_of_sharesBody {c d : HostCallable} (h : c.sharesBody d = true) :
    c.kind = d.kind := by
  cases c <;> cases d <;> first | rfl | cases h

theorem arity_eq_of_sameAs {c d : HostCallable} (h : c.sameAs d = true) : c.arity = d.arity := by
  cases c <;> cases d <;> simp_all [sameAs, arity]

/-- **Identity is an equivalence.** Identity of host values and of callables is reflexive, symmetric
and transitive on all those that no opaque script float is part of, whether it compares records or
addresses only. Callables that share a body are of one kind. For all that a program may hold the two
comparisons agree, and callables that share a body have the same written form and the same arity. -/
theorem identity_equivalence :
    (Equivalence fun a b : { value : HostValue // value.hidesFloat = false } =>
      a.1.identical b.1 = true) ∧
    (Equivalence fun c d : { c : HostCallable // c.hidesFloat = false } =>
      c.1.sameAs d.1 = true) ∧
    (Equivalence fun a b : { value : HostValue // value.hidesFloat = false } =>
      a.1.sameAddress b.1 = true) ∧
    (Equivalence fun c d : { c : HostCallable // c.hidesFloat = false } =>
      c.1.sharesBody d.1 = true) ∧
    (∀ c d : HostCallable, c.sharesBody d = true → c.kind = d.kind) ∧
    ∀ held : Holding, held.Attainable →
      (∀ a ∈ held, ∀ b ∈ held, a.sameAddress b = a.identical b) ∧
      ∀ c d, .callable c ∈ held → .callable d ∈ held → c.sharesBody d = true →
        c.render = d.render ∧ c.arity = d.arity := by
  refine ⟨?_, ?_, ?_, ?_, fun c d => kind_eq_of_sharesBody, fun held hheld => ⟨?_, ?_⟩⟩
  · exact equivalence_of_iff Subtype.val fun a b => HostValue.identical_iff a.1 b.1 a.2
  · exact equivalence_of_iff Subtype.val fun c d => sameAs_iff c.1 d.1 c.2
  · exact equivalence_of_iff (fun a => a.1.bare) fun a b => HostValue.sameAddress_iff a.2 b.1
  · exact equivalence_of_iff (fun c => c.1.bare) fun c d => sharesBody_iff c.2 d.1
  · intro a ha b hb
    exact HostValue.sameAddress_eq hheld.stock.addressed a b
      (a.madeOf_of_items (Holding.items_subset_stock ha))
      (b.madeOf_of_items (Holding.items_subset_stock hb))
  · intro c d hc hd hshares
    have hsame : c.sameAs d = true := by
      rwa [← sharesBody_eq hheld.stock.addressed c d
        (c.madeOf_of_items (Holding.items_subset_stock hc))
        (d.madeOf_of_items (Holding.items_subset_stock hd))]
    exact ⟨render_eq_of_sameAs hsame, arity_eq_of_sameAs hsame⟩

/-- The zero of a sign, as script code hands it over. -/
def scriptZero (negative : Bool) : HostValue :=
  .script (.number (.float (if negative then ⟨0x8000000000000000⟩ else ⟨0⟩)))

/-- A method, made at the first address. -/
def echo : HostMethod := ⟨1, "Thing", "echo", .exactly 1, .code ⟨0⟩ none⟩

/-- The method, and what binding it to either zero makes of it. -/
def echoes : Holding :=
  [.callable (.bound (scriptZero true) echo), scriptZero true,
    .callable (.bound (scriptZero false) echo), scriptZero false, .callable (.unbound echo)]

theorem echoes_attainable : echoes.Attainable := by
  have hmade : Holding.Attainable [.callable (.unbound echo)] :=
    Relation.ReflTransGen.refl.tail (.method echo fun _ hitem => absurd hitem List.not_mem_nil)
  have hpositive := (hmade.tail (.plain (scriptZero false) rfl)).tail
    (.bind (m := echo) List.mem_cons_self (by simp))
  exact (hpositive.tail (.plain (scriptZero true) rfl)).tail
    (.bind (m := echo) List.mem_cons_self (by simp))

/-- A method bound to either zero has one body, and so one written form and one arity, though the
callables are two. -/
theorem identity_equivalence_echoes :
    let bound negative := HostCallable.bound (scriptZero negative) echo
    (bound false).sharesBody (bound true) = true ∧ bound false ≠ bound true ∧
      (bound false).render = (bound true).render ∧ (bound false).arity = (bound true).arity := by
  intro bound
  obtain ⟨-, -, -, -, -, hheld⟩ := identity_equivalence
  have hshares : (bound false).sharesBody (bound true) = true := by decide
  have hsame := (hheld echoes echoes_attainable).2 (bound false) (bound true)
    (by simp [echoes, bound]) (by simp [echoes, bound]) hshares
  exact ⟨hshares, by decide, hsame⟩

end HostCallable

end Membrane
