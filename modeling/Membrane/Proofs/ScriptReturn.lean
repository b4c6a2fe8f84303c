import Membrane.Catalog.Running
import Membrane.Proofs.RoundTrip
import Membrane.Proofs.Routes
import Membrane.Proofs.Sameness

/-!
# Script values over the border and back

A script value that crosses to the host and back comes back as it was, up to the spelling of
primitives (`ScriptValue.settled`). For an object that is no wrapper there is nothing to do, since it
crosses as it is. A wrapper comes back if the context remembers it under the key of its host value,
which is so for all that a context remembers in worlds that were reached honestly.
-/

namespace Membrane

variable {σ : Type} {w w' : World σ} {c : ContextId} {value : ScriptValue}

/-- What a value comes back as: `undefined` as `null`, and a float as a number of its kind. -/
def ScriptValue.settled : ScriptValue → ScriptValue
  | undefined => null
  | number (.float x) => number (.ofBinary64 x)
  | value => value

/-- Everything but `undefined` and floats that are infinite or no number. -/
def ScriptValue.isSettled : ScriptValue → Bool
  | undefined => false
  | number (.float x) => x.isFinite
  | _ => true

theorem ScriptValue.settled_eq (h : value.isSettled = true) : value.settled = value := by
  cases value with
  | undefined => cases h
  | number n =>
    cases n with
    | float x => exact congrArg number (ScriptNumber.ofBinary64_of_isFinite h)
    | _ => rfl
  | _ => rfl

/-- A context gives a script value back: it remembers the wrapper under its key, if it is one. -/
def World.GivesBack (w : World σ) (c : ContextId) (value : ScriptValue) : Prop :=
  ∀ id v, value = .object id → w.heap.wrapper? id = some v → w.Keeps c id

namespace World.GivesBack

theorem congr (h : w.GivesBack c value) (hheap : w'.heap = w.heap)
    (hcontexts : w'.contexts = w.contexts) : w'.GivesBack c value := by
  intro id v hid hv
  obtain ⟨u, hu, hentry⟩ := h id v hid (hheap ▸ hv)
  refine ⟨u, hheap ▸ hu, ?_⟩
  rwa [World.cache_congr hcontexts]

/-- What crosses in and out again under no converter comes back. -/
theorem crossOut (h : w.GivesBack c value) {site : Site} (hc : site.context = some c) :
    ∃ w', (crossOut site (w.heap.crossIn value)).on w = (.ok value.settled, w') ∧ w.Alike w' := by
  have hrefl : w.Alike w := ⟨rfl, rfl, rfl, rfl⟩
  cases value with
  | object id =>
    cases hv : w.heap.wrapper? id with
    | none =>
      have hin : w.heap.crossIn (.object id) = .script (.object id) := by rw [Heap.crossIn, hv]
      rw [hin]
      exact ⟨w, rfl, hrefl⟩
    | some v =>
      obtain ⟨u, hu, hentry⟩ := h id v rfl hv
      rw [Heap.crossIn_of_wrapper? hu]
      exact ⟨_, on_crossOut (World.Remembers.on_wrap hc hentry), w.alike_note rfl⟩
  | number n => cases n <;> exact ⟨w, rfl, hrefl⟩
  | _ => exact ⟨w, rfl, hrefl⟩

variable [Host σ]

/-- What crosses in and out again comes back. -/
theorem toHost_toScript (h : w.GivesBack c value) {policy : Policy} {site : Site}
    (hin : policy.converter = .standard) (hout : site.policy.converter = .standard)
    (hc : site.context = some c) :
    ∃ w', (toHost policy value >>= toScript site).on w = (.ok value.settled, w') ∧
      w.Alike w' := by
  obtain ⟨w₁, hhost, hw₁⟩ := toHost_alike hin value w
  have hnote : w₁.Alike (w₁.note (.outgoing (w.heap.crossIn value) (.ok none))) :=
    w₁.alike_note rfl
  have hsame := hw₁.trans hnote
  obtain ⟨w₂, hscript, hw₂⟩ := (h.congr hsame.heap hsame.contexts).crossOut hc
  refine ⟨w₂, ?_, hsame.trans hw₂⟩
  rw [ScriptM.on_bind_of_ok hhost, on_toScript, hout]
  rw [hsame.heap] at hscript
  exact hscript

end World.GivesBack

/-! ## Through a callable -/

variable [Host σ]

/-- In a world, a callable answers with its argument at a place. -/
def World.AnswersWith (w : World σ) (g : HostCallable) (i : Nat) : Prop :=
  ∀ receiver args arg, args[i]? = some arg →
    (w.directly (g.invoke (some receiver) args)).1 = .ok arg

/-- A callable that answers with an argument gives it back. -/
theorem World.GivesBack.call (h : w.GivesBack c value) {f : ObjectId} {u : Wrapper}
    (hu : w.heap.wrapper? f = some u) {g : HostCallable} (hg : u.subject = .function g)
    (hp : u.policy.converter = .standard) {i : Nat} (hanswer : w.AnswersWith g i)
    (hi : g.arity.isVariadic = true ∨ i < g.arity.required) {args : List ScriptValue}
    (harg : args[i]? = some value) (realm : Option Realm) (this : ScriptValue) :
    ∃ w', (f.call (some c) realm this args).on w = (.ok value.settled, w') ∧
      w'.heap = w.heap ∧ w'.contexts = w.contexts := by
  obtain ⟨run, w₁, hrun, hheap, hcontexts, -, -, hcall⟩ :=
    callsAs_invoke hu hg hp (some c) realm this args
  have hpassed : ((g.arity.fit .null args).map w.heap.crossIn)[i]? =
      some (w.heap.crossIn value) := by
    rw [List.getElem?_map, Arity.getElem?_fit hi harg]
    rfl
  have hanswered : (w.directly run.run).1 = .ok (w.heap.crossIn value) := by
    rw [hrun]
    exact hanswer _ _ _ hpassed
  let site : Site := ⟨u.policy, some c, realm.or u.realm⟩
  have hc : site.context = some c := rfl
  obtain ⟨w₂, hback, hw₂⟩ := (h.congr hheap hcontexts).crossOut hc
  refine ⟨w₂, ?_, hw₂.heap.trans hheap, hw₂.contexts.trans hcontexts⟩
  rw [hcall, hanswered, ← hback, hheap]
  rfl

/-- **What a script value comes back as.** A context gives every value back but a wrapper that it
does not remember under its key, and in a world that was reached honestly it remembers each of its
wrappers so. A value that it gives back crosses to the host and back under the standard converter,
and comes back as the same object, the same primitive, or the one that `undefined` or an infinite
float stands for. Objects and memory are as they were. A callable that answers with one of the
arguments that it asks for, called in the context through its wrapper, gives script code that
argument back in the same way. -/
theorem World.script_return (w : World σ) (c : ContextId) :
    (∀ value, (∀ id, value = .object id → w.heap.wrapper? id = none) → w.GivesBack c value) ∧
    (w.HonestlyReachable → ∀ id, w.Stores c id → w.GivesBack c (.object id)) ∧
    ∀ value, w.GivesBack c value →
      (value.isSettled = true → value.settled = value) ∧
      (∀ (policy : Policy) (site : Site), policy.converter = .standard →
        site.policy.converter = .standard → site.context = some c →
        ∃ w', (toHost policy value >>= toScript site).on w = (.ok value.settled, w') ∧
          w'.heap = w.heap ∧ w'.contexts = w.contexts ∧ w'.host = w.host) ∧
      ∀ f u g i args, w.heap.wrapper? f = some u → u.subject = .function g →
        u.policy.converter = .standard → w.AnswersWith g i →
        (g.arity.isVariadic = true ∨ i < g.arity.required) → args[i]? = some value →
        ∀ realm this, ∃ w', (f.call (some c) realm this args).on w = (.ok value.settled, w') ∧
          w'.heap = w.heap ∧ w'.contexts = w.contexts := by
  refine ⟨fun value hnone id v hid hv => ?_, fun hw id hid => ?_,
    fun value hback => ⟨ScriptValue.settled_eq, fun policy site hin hout hc => ?_, ?_⟩⟩
  · rw [hnone id hid] at hv
    cases hv
  · rintro id' v ⟨⟩ -
    exact hw.keyed.keeps hid
  · obtain ⟨w', hcross, halike⟩ := hback.toHost_toScript hin hout hc
    exact ⟨w', hcross, halike.heap, halike.contexts, halike.host⟩
  · intro f u g i args hu hg hp hanswer hi harg realm this
    exact hback.call hu hg hp hanswer hi harg realm this

namespace Catalog

/-- A function that answers with its first argument. -/
def first : HostCallable := .free ⟨7, some "first", .exactly 1, ⟨0⟩⟩

/-- A context in which this function was wrapped, and then an object. -/
def withFirst : World Catalog :=
  (((World.initial ⟨9, { definitions := #[⟨some "first", .function (.argument 0)⟩] }⟩
    .standard).after (.openContext ⟨{}, .standard, .standard⟩)).after
      (.wrap ⟨⟨{}, .standard, .standard⟩, some ⟨0⟩, none⟩ (.function first))).after
      (.wrap ⟨⟨{}, .standard, .standard⟩, some ⟨0⟩, none⟩ (.object ⟨8, "Point"⟩))

theorem withFirst_honest : withFirst.HonestlyReachable := by
  refine World.PlainlyReachable.honestly ?_
  refine (((World.initial_reachable _ _).after (m := .openContext _) trivial trivial).after
    (m := .wrap _ _) ?function trivial).after (m := .wrap _ _) ?object trivial
  all_goals exact World.serves_some rfl

theorem first_answers : withFirst.AnswersWith first 0 := by
  rintro receiver args arg harg
  have hanswer : (withFirst.directly (first.invoke (some receiver) args)).1 =
      .ok (args[0]?.getD .nil) := rfl
  rw [hanswer, harg]
  rfl

/-- The function gives the object back that it was called on. -/
theorem script_return_first : ∃ w',
    (ObjectId.call ⟨0⟩ (some ⟨0⟩) none .undefined [.object ⟨1⟩]).on withFirst =
      (.ok (.object ⟨1⟩), w') ∧ w'.contexts = withFirst.contexts := by
  obtain ⟨-, hkept, hback⟩ := withFirst.script_return ⟨0⟩
  have hgives := hkept withFirst_honest ⟨1⟩ ⟨.object ⟨8, "Point"⟩, .object, rfl⟩
  obtain ⟨hsettled, -, hcall⟩ := hback _ hgives
  obtain ⟨w', hw', -, hcontexts⟩ := hcall ⟨0⟩ _ first 0 [.object ⟨1⟩] rfl rfl rfl first_answers
    (.inr (by decide)) rfl none .undefined
  exact ⟨w', hsettled rfl ▸ hw', hcontexts⟩

/-- Where values cross in the one context. -/
def firstSite : Site := ⟨⟨{}, .standard, .standard⟩, some ⟨0⟩, none⟩

/-- Then another object was wrapped without a context, and its wrapper put into the memory of the
context under the key of a function. -/
def withForeign : World Catalog :=
  (withFirst.after (.wrap { firstSite with context := none } (.object ⟨6, "Line"⟩))).after
    (.memoize (some ⟨0⟩) (.callable "elsewhere") ⟨.wrapper .object, ⟨2⟩⟩)

theorem withForeign_reachable : withForeign.Reachable := by
  refine (withFirst_honest.reachable.after (m := .wrap _ _) ?wrap).after (m := .memoize _ _ _) ?put
  case wrap => exact World.serves_none _
  case put => exact ⟨World.serves_some rfl, _, rfl, rfl⟩

/-- A wrapper that the context holds under a foreign key only does not come back: the object that it
is over gets another wrapper, which the context then remembers too. And a function that answers with
its argument does not give `undefined` back as it was. -/
theorem script_return_foreign :
    withForeign.Reachable ∧ withForeign.isAlive ⟨0⟩ = true ∧ withForeign.Stores ⟨0⟩ ⟨2⟩ ∧
    (let back : ScriptM Catalog ScriptValue :=
      toHost firstSite.policy (.object ⟨2⟩) >>= toScript firstSite
    (back.on withForeign).1 = .ok (.object ⟨3⟩) ∧
      (withForeign.cache ⟨0⟩).size = 3 ∧ ((back.on withForeign).2.cache ⟨0⟩).size = 4) ∧
    withFirst.AnswersWith first 0 ∧
    ((ObjectId.call ⟨0⟩ (some ⟨0⟩) none .undefined [.undefined]).on withFirst).1 = .ok .null :=
  ⟨withForeign_reachable, rfl, ⟨.callable "elsewhere", .object, rfl⟩, ⟨rfl, rfl, rfl⟩,
    first_answers, rfl⟩

end Catalog

end Membrane
