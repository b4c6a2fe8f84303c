import Membrane.Identity
import Mathlib.Logic.Basic
import Mathlib.Logic.Relation

/-!
# Identity by addresses

A host tells objects, classes and the bodies of callables apart by their addresses alone, not by
what else is known of them; `HostCallable.sharesBody` is that comparison. A `Stock` is what the host
has made and still holds. Each new item has an address that no other one has at that time
(`Stock.Step`), and callables are made of items by binding a method to a receiver and by unbinding
it, which makes no item. So among the callables of a stock an address belongs to one record, and the
comparison by addresses is sameness.
-/

namespace Membrane

mutual

/-- Identity of host values by the addresses of objects, classes and bodies. -/
def HostValue.sameAddress : HostValue → HostValue → Bool
  | .nil, .nil => true
  | .bool a, .bool b => a == b
  | .int a, .int b => a == b
  | .float a, .float b => a == b
  | .str a, .str b => a == b
  | .object a, .object b => a.address == b.address
  | .callable a, .callable b => a.sharesBody b
  | .hostClass a, .hostClass b => a.address == b.address
  | .script a, .script b => a.same b
  | _, _ => false

/-- Whether two callables are of one kind and their bodies have the same address, as have their
receivers if they are bound. -/
def HostCallable.sharesBody : HostCallable → HostCallable → Bool
  | .free a, .free b => a.address == b.address
  | .bound r a, .bound s b => a.address == b.address && r.sameAddress s
  | .unbound a, .unbound b => a.address == b.address
  | _, _ => false

end

/-! ## What a host holds -/

/-- Something that a host makes, at an address of its own. -/
inductive HostItem where
  | object (object : HostObject)
  | hostClass (hostClass : HostClass)
  | function (function : HostFunction)
  | method (method : HostMethod)

/-- The address that it was made at. -/
def HostItem.address : HostItem → Nat
  | object o => o.address
  | hostClass k => k.address
  | function f => f.address
  | method m => m.address

/-- What a host has made and still holds. -/
abbrev Stock := List HostItem

namespace Stock

variable {s s' : Stock}

/-- The host makes something at an address where nothing is that it holds, or lets go of some of
what it holds. -/
inductive Step (s : Stock) : Stock → Prop where
  | made (item : HostItem) (fresh : ∀ other ∈ s, other.address ≠ item.address) : Step s (item :: s)
  | dropped {rest : Stock} (held : rest ⊆ s) : Step s rest

/-- What a host that began with nothing may hold. -/
def Attainable (s : Stock) : Prop := Relation.ReflTransGen Step [] s

/-- Every address belongs to one item. -/
def Addressed (s : Stock) : Prop := ∀ a ∈ s, ∀ b ∈ s, a.address = b.address → a = b

theorem Addressed.step (h : s.Addressed) (hstep : Step s s') : Addressed s' := by
  cases hstep with
  | made item fresh =>
    intro a ha b hb hab
    rcases List.mem_cons.1 ha with ha | ha <;> rcases List.mem_cons.1 hb with hb | hb
    · rw [ha, hb]
    · exact absurd (ha ▸ hab).symm (fresh b hb)
    · exact absurd (hb ▸ hab) (fresh a ha)
    · exact h a ha b hb hab
  | dropped held => exact fun a ha b hb => h a (held ha) b (held hb)

/-- Whatever a host makes and lets go of, every address belongs to one item. -/
theorem Attainable.addressed (h : s.Attainable) : s.Addressed := by
  induction h with
  | refl => exact fun a ha => absurd ha List.not_mem_nil
  | tail _ hstep ih => exact ih.step hstep

/-- Comparing the addresses of two items of one sort is comparing the items. -/
theorem Addressed.beq_address (h : s.Addressed) {α : Type} [BEq α] [LawfulBEq α]
    {sort : α → HostItem} (hsort : ∀ a b, sort a = sort b → a = b) {a b : α} (ha : sort a ∈ s)
    (hb : sort b ∈ s) : ((sort a).address == (sort b).address) = (a == b) :=
  beq_eq_beq.2 ⟨fun hab => hsort a b (h _ ha _ hb hab), fun hab => hab ▸ rfl⟩

end Stock

/-! ## Values of a stock -/

mutual

/-- The value is made of what the host holds. -/
def HostValue.MadeOf (s : Stock) : HostValue → Prop
  | .object o => .object o ∈ s
  | .callable c => c.MadeOf s
  | .hostClass k => .hostClass k ∈ s
  | _ => True

/-- The callable is made of what the host holds: a function, a method, or a method bound to a value
that is made so itself. -/
def HostCallable.MadeOf (s : Stock) : HostCallable → Prop
  | .free f => .function f ∈ s
  | .bound receiver m => receiver.MadeOf s ∧ .method m ∈ s
  | .unbound m => .method m ∈ s

end

mutual

/-- Among the values of a stock, identity by addresses is identity. -/
theorem HostValue.sameAddress_eq {s : Stock} (hs : s.Addressed) :
    ∀ a b : HostValue, a.MadeOf s → b.MadeOf s → a.sameAddress b = a.identical b
  | .object _, b, ha, hb => by
    cases b with
    | object b => exact hs.beq_address (fun _ _ => HostItem.object.inj) ha hb
    | _ => rfl
  | .hostClass _, b, ha, hb => by
    cases b with
    | hostClass b => exact hs.beq_address (fun _ _ => HostItem.hostClass.inj) ha hb
    | _ => rfl
  | .callable c, b, ha, hb => by
    cases b with
    | callable d => exact HostCallable.sharesBody_eq hs c d ha hb
    | _ => rfl
  | .nil, b, _, _ | .bool _, b, _, _ | .int _, b, _, _ | .float _, b, _, _ | .str _, b, _, _
  | .script _, b, _, _ => by cases b <;> rfl

/-- Among the callables of a stock, those that share a body are the same. -/
theorem HostCallable.sharesBody_eq {s : Stock} (hs : s.Addressed) :
    ∀ c d : HostCallable, c.MadeOf s → d.MadeOf s → c.sharesBody d = c.sameAs d
  | .free _, d, hc, hd => by
    cases d with
    | free g => exact hs.beq_address (fun _ _ => HostItem.function.inj) hc hd
    | _ => rfl
  | .unbound _, d, hc, hd => by
    cases d with
    | unbound n => exact hs.beq_address (fun _ _ => HostItem.method.inj) hc hd
    | _ => rfl
  | .bound r m, d, hc, hd => by
    cases d with
    | bound r' n =>
      have hbody : (m.address == n.address) = (m == n) :=
        hs.beq_address (fun _ _ => HostItem.method.inj) hc.2 hd.2
      rw [HostCallable.sharesBody, HostCallable.sameAs, hbody,
        HostValue.sameAddress_eq hs r r' hc.1 hd.1]
    | _ => rfl

end

/-- Callables that are the same are of one kind and have the same written form and arity. -/
theorem HostCallable.render_eq_of_sameAs {c d : HostCallable} (h : c.sameAs d = true) :
    c.render = d.render := by
  cases c <;> cases d <;> simp_all [sameAs, render]

end Membrane
