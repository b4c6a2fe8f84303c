import Membrane.Catalog.Running
import Membrane.Proofs.Addresses
import Membrane.Proofs.Keys

/-!
# Equality of functions

Loose equality takes two function wrappers for equal if their callables are the same or written
alike. The first condition never adds anything to the second, since callables that are the same are
written alike, so that loose equality is equality of the keys under which contexts remember
wrappers. Within one context it comes down to identity.
-/

namespace Membrane

variable {σ : Type} {w : World σ} {x y : ObjectId} {c d : HostCallable}

/-- The object at a place is a wrapper of a host value. -/
def World.Wraps (w : World σ) (id : ObjectId) (subject : Subject) : Prop :=
  ∃ v, w.heap.wrapper? id = some v ∧ v.subject = subject

/-- The wrappers of callables. -/
abbrev World.FunctionWrapper (w : World σ) : Type :=
  { id : ObjectId // ∃ c, w.Wraps id (.function c) }

theorem World.Wraps.unique {a b : Subject} (ha : w.Wraps x a) (hb : w.Wraps x b) : a = b := by
  obtain ⟨v, hv, rfl⟩ := ha
  obtain ⟨u, hu, rfl⟩ := hb
  rw [Option.some.inj (hv.symm.trans hu)]

/-- Two wrappers of one key that a context remembers are one. -/
theorem World.Keeps.eq_of_identity {k : ContextId} (hx : w.Keeps k x) (hy : w.Keeps k y)
    {a b : Subject} (ha : w.Wraps x a) (hb : w.Wraps y b) (hkey : a.identity = b.identity) :
    x = y := by
  obtain ⟨u, hu, hxentry⟩ := hx
  obtain ⟨v, hv, hyentry⟩ := hy
  obtain rfl := ha.unique ⟨u, hu, rfl⟩
  obtain rfl := hb.unique ⟨v, hv, rfl⟩
  rw [hkey, hyentry] at hxentry
  have hentry : u.subject.entry y = u.subject.entry x :=
    (Subject.entry_eq hkey y).trans (Option.some.inj hxentry)
  exact (Subject.entry_inj hentry).symm

namespace View

variable [Reflective σ]

/-- The host takes two function wrappers for equal exactly if their callables are written alike. -/
theorem equivalent_functions (hx : w.Wraps x (.function c)) (hy : w.Wraps y (.function d)) :
    w.view.equivalent x y = (c.render == d.render) := by
  obtain ⟨u, hu, hc⟩ := hx
  obtain ⟨v, hv, hd⟩ := hy
  have hequivalent : w.view.equivalent x y = (c.sameAs d || c.render == d.render) := by
    simp [equivalent, World.view, hu, hv, hc, hd]
  cases hsame : c.sameAs d with
  | true => rw [hequivalent, hsame, HostCallable.render_eq_of_sameAs hsame, Bool.true_or,
      beq_self_eq_true]
  | false => rw [hequivalent, hsame, Bool.false_or]

/-- Loose equality of function wrappers is equality of the written forms of their callables. -/
theorem looselyEquals_functions (hx : w.Wraps x (.function c)) (hy : w.Wraps y (.function d)) :
    w.view.looselyEquals (.object x) (.object y) = true ↔ c.render = d.render := by
  rw [looselyEquals, equivalent_functions hx hy, equivalent_functions hy hx]
  simp only [Bool.or_eq_true, beq_iff_eq, or_assoc, eq_comm (a := d.render), or_self]
  refine ⟨fun h => h.elim (fun hxy => ?_) id, .inr⟩
  subst hxy
  rw [Subject.function.inj (hx.unique hy)]

/-- The host takes wrappers of different kinds for different. -/
theorem equivalent_of_kind_ne {a b : Subject} (hx : w.Wraps x a) (hy : w.Wraps y b)
    (hkind : a.kind ≠ b.kind) : w.view.equivalent x y = false := by
  obtain ⟨u, hu, rfl⟩ := hx
  obtain ⟨v, hv, rfl⟩ := hy
  cases ha : u.subject <;> cases hb : v.subject <;>
    simp_all [equivalent, World.view, Subject.kind]

/-- Wrappers of different kinds are not loosely equal. -/
theorem looselyEquals_of_kind_ne {a b : Subject} (hx : w.Wraps x a) (hy : w.Wraps y b)
    (hkind : a.kind ≠ b.kind) : w.view.looselyEquals (.object x) (.object y) = false := by
  have hne : x ≠ y := by
    rintro rfl
    exact hkind (congrArg Subject.kind (hx.unique hy))
  rw [looselyEquals, equivalent_of_kind_ne hx hy hkind, equivalent_of_kind_ne hy hx hkind.symm,
    beq_false_of_ne hne]
  rfl

/-- Loose equality of function wrappers is an equivalence relation. -/
theorem looselyEquals_equivalence (w : World σ) :
    Equivalence fun f g : w.FunctionWrapper =>
      w.view.looselyEquals (.object f.1) (.object g.1) = true := by
  constructor
  · rintro ⟨x, c, hx⟩
    exact (looselyEquals_functions hx hx).2 rfl
  · rintro ⟨x, c, hx⟩ ⟨y, d, hy⟩ hxy
    exact (looselyEquals_functions hy hx).2 ((looselyEquals_functions hx hy).1 hxy).symm
  · rintro ⟨x, c, hx⟩ ⟨y, d, hy⟩ ⟨z, e, hz⟩ hxy hyz
    have hcd := (looselyEquals_functions hx hy).1 hxy
    have hde := (looselyEquals_functions hy hz).1 hyz
    exact (looselyEquals_functions hx hz).2 (hcd.trans hde)

/-- Where a context remembers two function wrappers under their keys, the equalities agree. -/
theorem looselyEquals_of_keeps {k : ContextId} (hx : w.Wraps x (.function c))
    (hy : w.Wraps y (.function d)) (hxk : w.Keeps k x) (hyk : w.Keeps k y) :
    w.view.looselyEquals (.object x) (.object y) =
      (ScriptValue.object x).strictlyEquals (.object y) := by
  have hstrict : (ScriptValue.object x).strictlyEquals (.object y) = (x == y) := rfl
  rw [hstrict, Bool.eq_iff_iff, looselyEquals_functions hx hy, beq_iff_eq]
  constructor
  · intro hrender
    exact hxk.eq_of_identity hyk hx hy (congrArg Identity.callable hrender)
  · rintro rfl
    rw [Subject.function.inj (hx.unique hy)]

end View

/-- **Functions are equal exactly if their keys are.** In any world, two function wrappers are
loosely equal exactly if their callables have one key. That two callables share a body, as a host
compares them by addresses, means that they are the same, and so it adds nothing to that. Hence
loose equality is an equivalence relation on function wrappers. A function wrapper is never loosely
equal to a wrapper of another kind. Two function wrappers that a context remembers under their keys
are loosely equal exactly if they are one object; if the world was reached honestly, that goes for
all that the context remembers. -/
theorem World.function_equality [Host σ] (w : World σ) :
    (∀ x y c d, w.Wraps x (.function c) → w.Wraps y (.function d) →
      (w.view.looselyEquals (.object x) (.object y) = true ↔
        Identity.ofCallable c = Identity.ofCallable d)) ∧
    (∀ (s : Stock) c d, s.Attainable → c.MadeOf s → d.MadeOf s →
      c.sharesBody d = c.sameAs d ∧
        (c.sharesBody d = true → Identity.ofCallable c = Identity.ofCallable d)) ∧
    (Equivalence fun f g : w.FunctionWrapper =>
      w.view.looselyEquals (.object f.1) (.object g.1) = true) ∧
    (∀ x y c subject, w.Wraps x (.function c) → w.Wraps y subject → subject.kind ≠ .function →
      w.view.looselyEquals (.object x) (.object y) = false ∧
        w.view.looselyEquals (.object y) (.object x) = false) ∧
    (∀ k x y c d, w.Wraps x (.function c) → w.Wraps y (.function d) →
      w.Keeps k x ∧ w.Keeps k y ∨ w.HonestlyReachable ∧ w.Stores k x ∧ w.Stores k y →
      w.view.looselyEquals (.object x) (.object y) =
        (ScriptValue.object x).strictlyEquals (.object y)) := by
  refine ⟨fun x y c d hx hy => ?_, fun s c d hs hc hd => ?_, View.looselyEquals_equivalence w,
    fun x y c subject hx hy hkind => ?_, fun k x y c d hx hy hk => ?_⟩
  · rw [View.looselyEquals_functions hx hy, Identity.ofCallable, Identity.ofCallable,
      Identity.callable.injEq]
  · have hsame := HostCallable.sharesBody_eq hs.addressed c d hc hd
    refine ⟨hsame, fun hshares => congrArg Identity.callable ?_⟩
    exact HostCallable.render_eq_of_sameAs (hsame ▸ hshares)
  · exact ⟨View.looselyEquals_of_kind_ne hx hy (Ne.symm hkind),
      View.looselyEquals_of_kind_ne hy hx hkind⟩
  · rcases hk with ⟨hxk, hyk⟩ | ⟨hw, hxk, hyk⟩
    · exact View.looselyEquals_of_keeps hx hy hxk hyk
    · exact View.looselyEquals_of_keeps hx hy (hw.keyed.keeps hxk) (hw.keyed.keeps hyk)

namespace Catalog

/-- Where values cross in the first context. -/
def inFirst : Site := ⟨⟨{}, .standard, .standard⟩, some ⟨0⟩, none⟩

/-- Two functions that are written alike. -/
def twin (address : Nat) : HostCallable := .free ⟨address, some "twin", .exactly 0, ⟨0⟩⟩

/-- A context in which one of the twins and a closure were wrapped; the other twin was wrapped
without a context. -/
def withTwins : World Catalog :=
  ((((World.initial ⟨10, {}⟩ .standard).after (.openContext inFirst.policy)).after
    (.wrap inFirst (.function (twin 7)))).after
    (.wrap inFirst (.function (.free ⟨8, none, .exactly 0, ⟨0⟩⟩)))).after
    (.wrap { inFirst with context := none } (.function (twin 9)))

theorem withTwins_honest : withTwins.HonestlyReachable := by
  refine World.PlainlyReachable.honestly ?_
  refine ((((World.initial_reachable _ _).after (m := .openContext _) trivial trivial).after
    (m := .wrap _ _) ?twin trivial).after (m := .wrap _ _) ?closure trivial).after
    (m := .wrap _ _) (World.serves_none _) trivial
  all_goals exact World.serves_some rfl

/-- The twins are loosely equal, and what the context remembers is so only if it is one object. -/
theorem function_equality_twins :
    withTwins.view.looselyEquals (.object ⟨0⟩) (.object ⟨2⟩) = true ∧
      withTwins.view.looselyEquals (.object ⟨0⟩) (.object ⟨1⟩) =
        (ScriptValue.object ⟨0⟩).strictlyEquals (.object ⟨1⟩) := by
  obtain ⟨hkeys, -, -, -, hremembered⟩ := withTwins.function_equality
  have hfirst : withTwins.Wraps ⟨0⟩ (.function (twin 7)) := ⟨_, rfl, rfl⟩
  have hsecond : withTwins.Wraps ⟨2⟩ (.function (twin 9)) := ⟨_, rfl, rfl⟩
  have hclosure : withTwins.Wraps ⟨1⟩ (.function (.free ⟨8, none, .exactly 0, ⟨0⟩⟩)) :=
    ⟨_, rfl, rfl⟩
  have hstored : withTwins.Stores ⟨0⟩ ⟨0⟩ ∧ withTwins.Stores ⟨0⟩ ⟨1⟩ :=
    ⟨⟨.ofCallable (twin 7), .function, rfl⟩,
      ⟨.ofCallable (.free ⟨8, none, .exactly 0, ⟨0⟩⟩), .function, rfl⟩⟩
  exact ⟨(hkeys _ _ _ _ hfirst hsecond).2 rfl,
    hremembered ⟨0⟩ _ _ _ _ hfirst hclosure (.inr ⟨withTwins_honest, hstored⟩)⟩

/-- Then the wrapper of the other twin was put into the memory of the context under a foreign key. -/
def withForeignTwin : World Catalog :=
  withTwins.after (.memoize (some ⟨0⟩) (.callable "elsewhere") ⟨.wrapper .function, ⟨2⟩⟩)

/-- A text was put in the place of the first twin's wrapper, and the other twin was wrapped. -/
def withTwinReplaced : World Catalog :=
  (withTwins.after (.memoize (some ⟨0⟩) (.ofCallable (twin 7)) ⟨.text, "x"⟩)).after
    (.wrap inFirst (.function (twin 9)))

/-- What is put into the memory of a context directly can keep two wrappers of twins there, loosely
equal and not the same object: at one time, one of them under a foreign key, or one after the other
under their own key. -/
theorem function_equality_foreign :
    (withForeignTwin.Reachable ∧ withForeignTwin.isAlive ⟨0⟩ = true ∧
      withForeignTwin.Wraps ⟨0⟩ (.function (twin 7)) ∧
      withForeignTwin.Wraps ⟨2⟩ (.function (twin 9)) ∧
      withForeignTwin.Stores ⟨0⟩ ⟨0⟩ ∧ withForeignTwin.Stores ⟨0⟩ ⟨2⟩ ∧
      withForeignTwin.view.looselyEquals (.object ⟨0⟩) (.object ⟨2⟩) = true) ∧
    (withTwins.Reaches withTwinReplaced ∧ withTwins.Stores ⟨0⟩ ⟨0⟩ ∧
      withTwinReplaced.Stores ⟨0⟩ ⟨3⟩ ∧
      withTwinReplaced.view.looselyEquals (.object ⟨0⟩) (.object ⟨3⟩) = true) ∧
    (ScriptValue.object ⟨0⟩).strictlyEquals (.object ⟨2⟩) = false ∧
    (ScriptValue.object ⟨0⟩).strictlyEquals (.object ⟨3⟩) = false := by
  have hforeign : withForeignTwin.Reachable :=
    withTwins_honest.reachable.after (m := .memoize _ _ _) ⟨World.serves_some rfl, _, rfl, rfl⟩
  have hreplaced : withTwins.Reaches withTwinReplaced :=
    .tail (.single (World.leads_after (m := .memoize _ _ ⟨.text, "x"⟩)
        ⟨World.serves_some rfl, trivial⟩ trivial))
      (World.leads_after (m := .wrap _ _) (World.serves_some rfl) trivial)
  have hstored : withTwins.Stores ⟨0⟩ ⟨0⟩ := ⟨.ofCallable (twin 7), .function, rfl⟩
  exact ⟨⟨hforeign, rfl, ⟨_, rfl, rfl⟩, ⟨_, rfl, rfl⟩, ⟨.ofCallable (twin 7), .function, rfl⟩,
      ⟨.callable "elsewhere", .function, rfl⟩, rfl⟩,
    ⟨hreplaced, hstored, ⟨.ofCallable (twin 9), .function, rfl⟩, rfl⟩, rfl, rfl⟩

end Catalog

end Membrane
