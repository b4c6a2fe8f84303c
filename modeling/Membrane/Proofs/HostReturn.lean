import Membrane.Catalog.Running
import Membrane.Proofs.RoundTrip
import Membrane.Proofs.Sameness

/-!
# Host values over the border and back

A host value that crosses to script code and back meets whatever the context has remembered under
its key before. Since entries suit their keys in all worlds that were reached honestly, an object or
a class finds a wrapper of its own there, and two of them never become the same script object. A
callable may find a wrapper of another callable that is written alike.
-/

namespace Membrane

variable {σ : Type} {w w' : World σ}

/-- A host object or a class. -/
def HostValue.isReference : HostValue → Bool
  | .object _ | .hostClass _ => true
  | _ => false

/-- Everything but a float that is no number, a callable and an opaque script value. -/
def HostValue.isExact : HostValue → Bool
  | .float x => !x.isNaN
  | .callable _ | .script _ => false
  | _ => true

/-- What a context remembers under the rendering of a callable is the wrapper of a callable, the
same one or another. -/
def World.Recalls (w : World σ) (context : Option ContextId) (g other : HostCallable) : Prop :=
  ∃ id v, w.known? context (.ofCallable g) (.wrapper .function) = some id ∧
    w.heap.wrapper? id = some v ∧ v.subject = .function other

theorem HostValue.hidesNaN_of_isExact {value : HostValue} (h : value.isExact = true) :
    value.hidesNaN = false := by
  cases value with
  | callable g => cases h
  | script v => cases h
  | _ => rfl

/-! ## What comes back -/

/-- Only the wrapper of an object or a class crosses to the host as that object or class. -/
theorem Heap.exists_wrapper_of_crossIn {h : Heap} {s : ScriptValue} {value : HostValue}
    (hs : h.crossIn s = value) (href : value.isReference = true) :
    ∃ id v, s = .object id ∧ h.wrapper? id = some v ∧ v.subject.value = value := by
  cases s with
  | object id =>
    cases hv : h.wrapper? id with
    | some v => exact ⟨id, v, rfl, hv, (crossIn_of_wrapper? hv).symm.trans hs⟩
    | none =>
      simp only [crossIn, hv] at hs
      subst hs
      cases href
  | number n =>
    subst hs
    cases n <;> cases href
  | _ =>
    subst hs
    cases href

namespace World.Keyed

/-- Where entries suit their keys, an object comes back as itself, and so does a class. -/
theorem returned_of_isExact (h : w.Keyed) (context : Option ContextId) {value : HostValue}
    (hexact : value.isExact = true) : w.returned context value = value := by
  cases value with
  | float x =>
    have hx : x.isNaN = false := by simpa [HostValue.isExact] using hexact
    rw [returned, ScriptNumber.toBinary64_ofBinary64 hx]
  | object o =>
    obtain ⟨subject, hback, hkey⟩ := h.rewrapped context (.object o)
    obtain rfl : subject = .object o := Identity.names_iff.2 hkey
    exact hback
  | hostClass k =>
    obtain ⟨subject, hback, hkey⟩ := h.rewrapped context (.constructor k)
    obtain rfl : subject = .constructor k := Identity.names_iff.2 hkey
    exact hback
  | callable g => cases hexact
  | script v => cases hexact
  | _ => rfl

/-- Where entries suit their keys, a callable comes back as itself, or as the one that the context
remembers under its rendering. -/
theorem returned_callable (h : w.Keyed) (context : Option ContextId) (g : HostCallable) :
    ∃ g', w.returned context (.callable g) = .callable g' ∧ g'.render = g.render ∧
      (g' = g ∨ w.Recalls context g g') := by
  show ∃ g', w.rewrapped context (.function g) = .callable g' ∧ _
  cases hknown : w.known? context (Subject.function g).identity
    (.wrapper (Subject.function g).kind) with
  | none =>
    rw [World.rewrapped, hknown]
    exact ⟨g, rfl, rfl, .inl rfl⟩
  | some id =>
    obtain ⟨v, hv, hidentity⟩ := h.exists_wrapper hknown
    obtain ⟨g', hg', hrender⟩ := Identity.names_iff.2 hidentity
    refine ⟨g', ?_, hrender, .inr ⟨id, v, hknown, hv, hg'⟩⟩
    rw [World.rewrapped, hknown]
    exact (Heap.crossIn_of_wrapper? hv).trans (congrArg Subject.value hg')

/-- Where entries suit their keys, no other value than an opaque script value comes back as an
object or a class than that object or class itself. -/
theorem eq_of_returned (h : w.Keyed) {context : Option ContextId} {value value' : HostValue}
    (hback : w.returned context value' = value) (href : value.isReference = true) :
    value' = value ∨ ∃ v, value' = .script v := by
  cases hexact : value'.isExact with
  | true => exact .inl ((h.returned_of_isExact context hexact).symm.trans hback)
  | false =>
    cases value' with
    | script v => exact .inr ⟨v, rfl⟩
    | float x =>
      subst hback
      cases href
    | callable g =>
      obtain ⟨g', hg', -⟩ := h.returned_callable context g
      rw [← hback, hg'] at href
      cases href
    | _ => cases hexact

end World.Keyed

variable [Host σ]

theorem on_toScript_returned {site : Site} (hp : site.policy.converter = .standard)
    (value : HostValue) (w : World σ) :
    ∃ s w₁, (toScript site value).on w = (.ok s, w₁) ∧
      w₁.heap.crossIn s = w.returned site.context value := by
  obtain ⟨s, w₁, hs, hback, -⟩ :=
    on_crossOut_returned site value (w.note (.outgoing value (.ok none)))
  refine ⟨s, w₁, ?_, hback.trans (World.returned_congr rfl rfl _ _)⟩
  rw [on_toScript, hp]
  exact hs

/-- The world that an operation leaves is the one that the move leads to. -/
theorem World.after_eq {α : Type} {m : Move σ} {act : ScriptM σ α} (hm : m.run = discard act)
    {r : Except ScriptError α} (h : act.on w = (r, w')) : w.after m = w' := by
  rw [World.after, hm, ScriptM.on_discard, h]

/-- An object or a class that crosses in a later world to the same script object is the same. -/
theorem World.HonestlyReachable.eq_of_toScript (hw : w.HonestlyReachable) {s : ScriptValue}
    {value : HostValue} (hs : w.heap.crossIn s = value) (href : value.isReference = true)
    (hlater : w.ReachesHonestly w') {site : Site} (hsite : site.Stands w')
    (hp : site.policy.converter = .standard) {value' : HostValue} {w₁ : World σ}
    (hcross : (toScript site value').on w' = (.ok s, w₁)) :
    value' = value ∨ ∃ v, value' = .script v := by
  obtain ⟨id, v, rfl, hv, rfl⟩ := Heap.exists_wrapper_of_crossIn hs href
  have hlast : w.Reaches w₁ := by
    refine hlater.reaches.tail ⟨.toScript site value', hsite, trivial, ?_⟩
    exact (World.after_eq rfl hcross).symm
  have hv₁ : w₁.heap.wrapper? id = some v :=
    Heap.wrapper?_eq_some.2 (hlast.kind? hw.reachable.sound (Heap.wrapper?_eq_some.1 hv))
  obtain ⟨s', w₁', hcross', hback⟩ := on_toScript_returned hp value' w'
  rw [hcross] at hcross'
  cases hcross'
  rw [Heap.crossIn_of_wrapper? hv₁] at hback
  exact (hw.trans hlater).keyed.eq_of_returned hback.symm href

/-- **What a host value comes back as.** In a world that was reached honestly, a host value crosses
to script code and back under the standard converter. It comes back identical, with three exceptions.
A float that is no number comes back as such a float. A callable comes back as one that is written
alike; it is identical if every callable that the context remembers under this rendering is, and no
float that is no number hides in it. An opaque script value comes back as what it crosses to the
host as. For the rest of the run no other host value, unless it is an opaque script value, crosses
to the script object that an object or a class became. -/
theorem World.HonestlyReachable.host_return (hw : w.HonestlyReachable) {site : Site}
    (hsite : site.Stands w) (hout : site.policy.converter = .standard) {policy : Policy}
    (hin : policy.converter = .standard) (value : HostValue) :
    ∃ s w₁ back w₂, (toScript site value).on w = (.ok s, w₁) ∧
      (toHost policy s).on w₁ = (.ok back, w₂) ∧
      (value.isExact = true → back = value ∧ back.identical value = true) ∧
      (∀ x, value = .float x → x.isNaN = true → ∃ y, back = .float y ∧ y.isNaN = true) ∧
      (∀ g, value = .callable g → ∃ g', back = .callable g' ∧ g'.render = g.render ∧
        ((∀ other, w.Recalls site.context g other → other.sameAs g = true) →
          g.hidesNaN = false → back.identical value = true)) ∧
      (∀ v, value = .script v → ((toHost policy v).on w).1 = .ok back) ∧
      (value.isReference = true → ∀ w' site' value' w'', w₁.ReachesHonestly w' →
        site'.Stands w' → site'.policy.converter = .standard →
        (toScript site' value').on w' = (.ok s, w'') →
        value' = value ∨ ∃ v, value' = .script v) := by
  obtain ⟨s, w₁, hs, hback⟩ := on_toScript_returned hout value w
  obtain ⟨w₂, hreturn, -⟩ := toHost_alike hin s w₁
  rw [hback] at hreturn
  have hkeyed := hw.keyed
  refine ⟨s, w₁, _, w₂, hs, hreturn, fun hexact => ?_, ?_, ?_, ?_, fun href => ?_⟩
  · rw [hkeyed.returned_of_isExact _ hexact, HostValue.identical_self,
      HostValue.hidesNaN_of_isExact hexact]
    exact ⟨rfl, rfl⟩
  · rintro x rfl hx
    exact ⟨_, rfl, ScriptNumber.isNaN_toBinary64_ofBinary64 hx⟩
  · rintro g rfl
    obtain ⟨g', hg', hrender, hwhich⟩ := hkeyed.returned_callable site.context g
    refine ⟨g', hg', hrender, fun hothers hnumber => ?_⟩
    rw [hg', HostValue.identical]
    rcases hwhich with rfl | hrecalled
    · rw [HostCallable.sameAs_self, hnumber, Bool.not_false]
    · exact hothers g' hrecalled
  · rintro v rfl
    obtain ⟨_, hv, -⟩ := toHost_alike hin v w
    rw [hv]
    rfl
  · intro w' site' value' w'' hlater hsite' hp hcross
    have hw₁ : w₁.HonestlyReachable := by
      have hafter := hw.after (m := .toScript site value) hsite trivial
      rwa [World.after_eq rfl hs] at hafter
    have hexact : value.isExact = true := by
      cases value with
      | object o => rfl
      | hostClass k => rfl
      | _ => cases href
    rw [hkeyed.returned_of_isExact _ hexact] at hback
    exact hw₁.eq_of_toScript hback href hlater hsite' hp hcross

namespace Catalog

/-- An open context in which nothing has been wrapped yet. -/
def opened : World Catalog :=
  (World.initial ⟨9, {}⟩ .standard).after (.openContext ⟨{}, .standard, .standard⟩)

/-- Where values cross in this context. -/
def openedSite : Site := ⟨⟨{}, .standard, .standard⟩, some ⟨0⟩, none⟩

theorem opened_honest : opened.HonestlyReachable :=
  (World.initial_reachable _ _).honestly.after (m := .openContext _) trivial trivial

theorem openedSite_stands : openedSite.Stands opened :=
  ⟨fun _ hc => Option.some.inj hc ▸ rfl, fun _ hr => by cases hr⟩

/-- An object comes back as itself, and another one becomes another script object. -/
theorem host_return_points : ∃ s w₁ w₂,
    (toScript openedSite (.object ⟨7, "Point"⟩)).on opened = (.ok s, w₁) ∧
      (toHost openedSite.policy s).on w₁ = (.ok (.object ⟨7, "Point"⟩), w₂) ∧
      ∀ w₃, (toScript openedSite (.object ⟨8, "Point"⟩)).on w₁ ≠ (.ok s, w₃) := by
  have hstandard : openedSite.policy.converter = .standard := rfl
  obtain ⟨s, w₁, back, w₂, hs, hback, hexact, -, -, -, hunique⟩ :=
    opened_honest.host_return openedSite_stands hstandard hstandard (.object ⟨7, "Point"⟩)
  obtain ⟨rfl, -⟩ := hexact rfl
  have halive : w₁.isAlive ⟨0⟩ = true := by
    have h : ((toScript openedSite (.object ⟨7, "Point"⟩)).on opened).2.isAlive ⟨0⟩ = true := by
      decide
    rwa [hs] at h
  have hstands : openedSite.Stands w₁ :=
    ⟨fun _ hc => Option.some.inj hc ▸ halive, fun _ hr => by cases hr⟩
  refine ⟨s, w₁, w₂, hs, hback, fun w₃ hcross => ?_⟩
  rcases hunique rfl w₁ openedSite _ w₃ .refl hstands rfl hcross with h | ⟨v, h⟩ <;> cases h

/-- A method that is bound to a script float that is no number. -/
def hidden : HostCallable :=
  .bound (.script (.number (.float Binary64.nan)))
    ⟨8, "Thing", "poke", .exactly 0, .code ⟨0⟩ none⟩

/-- The bound method comes back, but not identical, where nothing has ever been wrapped. -/
theorem hidden_not_identical : ∃ s w₁ back w₂,
    opened.HonestlyReachable ∧ opened.journal = [] ∧
      (∀ other, ¬ opened.Recalls openedSite.context hidden other) ∧
      openedSite.Stands opened ∧ openedSite.policy.converter = .standard ∧
      (toScript openedSite (.callable hidden)).on opened = (.ok s, w₁) ∧
      (toHost openedSite.policy s).on w₁ = (.ok back, w₂) ∧
      back.identical (.callable hidden) = false := by
  refine ⟨_, _, _, _, opened_honest, rfl, ?_, openedSite_stands, rfl, rfl, rfl, ?_⟩
  · rintro other ⟨id, v, hknown, -⟩
    cases hknown
  · decide

end Catalog

end Membrane
