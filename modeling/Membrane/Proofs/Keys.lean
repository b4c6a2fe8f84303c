import Membrane.Proofs.Memory

/-!
# Wrappers under their own keys

Something can be put into the memory of a context directly, and under any key. That is honest if a
wrapper is only ever put under the key of its own host value; plain data may be put anywhere. In
worlds that were reached honestly, every wrapper that a context remembers is remembered under its
own key (`World.Keeps`).

What a context remembers of a host value stays as long as the context is held, unless something of
another kind is put in its place directly (`World.Secures`).
-/

namespace Membrane

variable {σ : Type} {w w' : World σ} {c : ContextId}

/-- The move puts no wrapper under a foreign key. -/
def Move.IsHonest (w : World σ) : Move σ → Prop
  | .memoize _ key entry => w.heap.Bears key entry
  | _ => True

theorem Move.IsPlain.honest {m : Move σ} (h : m.IsPlain) : m.IsHonest w := by
  cases m with
  | memoize context key entry => exact h.elim
  | _ => trivial

namespace World

/-- What any context remembers suits the key that it is remembered under. -/
def Keyed (w : World σ) : Prop :=
  ∀ c key entry, (w.cache c).get? key = some entry → w.heap.Bears key entry

/-- A context remembers a wrapper, under whatever key. -/
def Stores (w : World σ) (c : ContextId) (id : ObjectId) : Prop :=
  ∃ key kind, (w.cache c).get? key = some ⟨.wrapper kind, id⟩

/-- A context remembers a wrapper under the key of its host value. -/
def Keeps (w : World σ) (c : ContextId) (id : ObjectId) : Prop :=
  ∃ v, w.heap.wrapper? id = some v ∧
    (w.cache c).get? v.subject.identity = some (v.subject.entry id)

/-- Where entries suit their keys, a remembered wrapper is remembered under its own one. -/
theorem Keyed.keeps (h : w.Keyed) {id : ObjectId} (hid : w.Stores c id) : w.Keeps c id := by
  obtain ⟨key, kind, hentry⟩ := hid
  obtain ⟨v, hv, rfl, rfl⟩ := h c key _ hentry
  exact ⟨v, hv, hentry⟩

/-- Where entries suit their keys, the wrapper that a site remembers of a host value is over one of
the same key. -/
theorem Keyed.exists_wrapper (h : w.Keyed) {context : Option ContextId} {subject : Subject}
    {id : ObjectId} (hknown : w.known? context subject.identity (.wrapper subject.kind) = some id) :
    ∃ v, w.heap.wrapper? id = some v ∧ v.subject.identity = subject.identity := by
  rw [known?_eq] at hknown
  obtain ⟨c, -, hentry⟩ := Option.bind_eq_some_iff.1 hknown
  obtain ⟨entry, hentry, hcontent⟩ := Option.bind_eq_some_iff.1 hentry
  obtain rfl := Entry.as?_eq_some.1 hcontent
  obtain ⟨v, hv, -, hidentity⟩ := h c _ _ hentry
  exact ⟨v, hv, hidentity⟩

/-- Remembering an entry that suits its key. -/
theorem Keyed.keep (h : w.Keyed) (context : Option ContextId) {key : Identity} {entry : Entry}
    (hentry : w.heap.Bears key entry) : (w.keep context key entry).Keyed := by
  intro c key' entry' hentry'
  rw [heap_keep]
  rcases w.cache_keep_cases context key entry c with hsame | hnew
  · exact h c key' entry' (hsame ▸ hentry')
  · rw [hnew, Cache.get?_insert] at hentry'
    split at hentry'
    case isTrue hkey =>
      subst hkey
      exact Option.some.inj hentry' ▸ hentry
    case isFalse => exact h c key' entry' hentry'

end World

variable [Host σ]

namespace World

/-- Honest moves lead from a world to another. -/
abbrev ReachesHonestly : World σ → World σ → Prop :=
  Relation.ReflTransGen (LeadsBy Move.IsHonest)

/-- A world that honest moves lead to from the beginning. -/
def HonestlyReachable (w : World σ) : Prop :=
  ∃ host inForce, (World.initial host inForce).ReachesHonestly w

theorem ReachesHonestly.reaches (h : w.ReachesHonestly w') : w.Reaches w' := by
  refine Relation.ReflTransGen.mono ?_ _ _ h
  rintro v v' ⟨m, hm, -, hv'⟩
  exact ⟨m, hm, trivial, hv'⟩

theorem ReachesPlainly.honestly (h : w.ReachesPlainly w') : w.ReachesHonestly w' := by
  refine Relation.ReflTransGen.mono ?_ _ _ h
  rintro v v' ⟨m, hm, hplain, hv'⟩
  exact ⟨m, hm, hplain.honest, hv'⟩

theorem HonestlyReachable.reachable (hw : w.HonestlyReachable) : w.Reachable := by
  obtain ⟨host, inForce, h⟩ := hw
  exact ⟨host, inForce, h.reaches⟩

theorem PlainlyReachable.honestly (hw : w.PlainlyReachable) : w.HonestlyReachable := by
  obtain ⟨host, inForce, h⟩ := hw
  exact ⟨host, inForce, h.honestly⟩

theorem HonestlyReachable.trans (hw : w.HonestlyReachable) (h : w.ReachesHonestly w') :
    w'.HonestlyReachable := by
  obtain ⟨host, inForce, hfirst⟩ := hw
  exact ⟨host, inForce, hfirst.trans h⟩

theorem HonestlyReachable.after (hw : w.HonestlyReachable) {m : Move σ} (hm : m.Allowed w)
    (hhonest : m.IsHonest w) : (w.after m).HonestlyReachable :=
  hw.trans (.single ⟨m, hm, hhonest, rfl⟩)

end World

/-- A change that is not made directly leaves entries that suit their keys. -/
theorem Change.keyed (h : Change False w w') (hw : w.Keyed) : w'.Keyed := by
  have hpreserved : w.heap.Preserved w'.heap := fun _ _ hv => h.wrapper? hv
  intro c key entry hentry
  rcases h.get?_cases hentry with hold | ⟨-, hregisters⟩
  · exact hpreserved.bears (hw c key entry hold)
  · exact (hregisters.resolve_left id).bears

theorem Changes.keyed (h : Changes False w w') (hw : w.Keyed) : w'.Keyed := by
  induction h with
  | refl => exact hw
  | tail _ hstep ih => exact hstep.keyed ih

/-- An honest move leaves entries that suit their keys. -/
theorem World.Keyed.after (hw : w.Keyed) (hs : w.Sound) {m : Move σ} (hm : m.Allowed w)
    (hhonest : m.IsHonest w) : (w.after m).Keyed := by
  have hplain : m.IsPlain → (w.after m).Keyed := fun hplain =>
    (m.changes hs hm (.inr hplain)).keyed hw
  cases m with
  | memoize context key entry =>
    show World.Keyed ((discard _ : ScriptM σ Unit).on w).2
    rw [ScriptM.on_discard, on_remember]
    cases w.known? context key entry.kind with
    | some content => exact hw
    | none => exact hw.keep context hhonest
  | _ => exact hplain trivial

/-- **In a world that was reached honestly, every wrapper is remembered under its own key.** -/
theorem World.HonestlyReachable.keyed (hw : w.HonestlyReachable) : w.Keyed := by
  obtain ⟨host, inForce, h⟩ := hw
  have hinitial : (World.initial host inForce).Keyed := fun c key entry hentry => by cases hentry
  exact (World.initial_sound host inForce).run hinitial
    (fun u m hs hu hm hhonest => hu.after hs hm hhonest) h

/-! ## What stays remembered -/

/-- The move puts something of another kind in the place of a wrapper that a context remembers. -/
def Move.Replaces (c : ContextId) (subject : Subject) : Move σ → Prop
  | .memoize context key entry =>
    context = some c ∧ key = subject.identity ∧ entry.kind ≠ .wrapper subject.kind
  | _ => False

/-- The context is open, and as long as it is held it remembers the wrapper as that of a host
value. -/
structure World.Secures (w : World σ) (c : ContextId) (subject : Subject) (id : ObjectId) :
    Prop where
  opened : c.index < w.contexts.size
  remembers : w.isAlive c = true → (w.cache c).get? subject.identity = some (subject.entry id)

namespace World.Secures

variable {subject : Subject} {id : ObjectId}

omit [Host σ] in
theorem of_get? (h : (w.cache c).get? subject.identity = some (subject.entry id)) :
    w.Secures c subject id where
  opened := by
    refine Decidable.byContradiction fun hlt => ?_
    rw [cache, context?, Array.getElem?_eq_none (Nat.le_of_not_lt hlt)] at h
    cases h
  remembers _ := h

omit [Host σ] in
/-- No context ends up held that was not held, and what is remembered by one that is held stays. -/
theorem of_contexts (h : w.Secures c subject id) (hsize : w.contexts.size ≤ w'.contexts.size)
    (hcontext : w'.isAlive c = true → w.isAlive c = true ∧ w'.cache c = w.cache c) :
    w'.Secures c subject id where
  opened := Nat.lt_of_lt_of_le h.opened hsize
  remembers halive := by
    obtain ⟨hold, hcache⟩ := hcontext halive
    rw [hcache, h.remembers hold]

omit [Host σ] in
theorem of_contexts_eq (h : w.Secures c subject id) (hcontexts : w'.contexts = w.contexts) :
    w'.Secures c subject id := by
  refine h.of_contexts (Nat.le_of_eq (congrArg _ hcontexts).symm) fun halive => ?_
  rw [isAlive_congr hcontexts] at halive
  exact ⟨halive, cache_congr hcontexts c⟩

omit [Host σ] in
/-- Something is remembered, in another context or under another key. -/
theorem keep (h : w.Secures c subject id) {context : Option ContextId} {key : Identity}
    (hother : w.isAlive c = true → context = some c → key ≠ subject.identity) (entry : Entry) :
    (w.keep context key entry).Secures c subject id where
  opened := by
    rw [size_keep]
    exact h.opened
  remembers halive := by
    rw [isAlive_keep] at halive
    by_cases hcontext : context = some c
    · subst hcontext
      rw [cache_keep_self halive, Cache.get?_insert, if_neg (hother halive rfl).symm,
        h.remembers halive]
    · rw [cache_keep_of_ne hcontext, h.remembers halive]

omit [Host σ] in
/-- A wrapper is made only for a host value of another key. -/
theorem pushWrapper (h : w.Secures c subject id) {site : Site} {subject' : Subject}
    (unknown : w.wrapper? site subject' = none) :
    (w.pushWrapper site subject').Secures c subject id := by
  have hpushed : (w.push (site.wrapper subject')).Secures c subject id := h.of_contexts_eq rfl
  have hkept : ((w.push (site.wrapper subject')).keep site.context subject'.identity
      (subject'.entry w.heap.next)).Secures c subject id := by
    refine hpushed.keep (fun halive hcontext hidentity => ?_) _
    have hknown : w.wrapper? site subject' = some id := by
      rw [wrapper?_eq_some hcontext, hidentity, Subject.entry_eq hidentity]
      exact h.remembers halive
    rw [unknown] at hknown
    cases hknown
  exact hkept.of_contexts_eq rfl

end World.Secures

/-- A change that is not made directly leaves what is remembered in a context that is held. -/
theorem Change.secures {subject : Subject} {id : ObjectId} (h : Change False w w')
    (hw : w.Secures c subject id) : w'.Secures c subject id := by
  cases h with
  | border step =>
    cases step with
    | wrapped site subject' stands unknown => exact hw.pushWrapper unknown
    | _ => exact hw.of_contexts_eq rfl
  | breaks step =>
    cases step with
    | _ => exact hw.of_contexts_eq rfl
  | opened policy =>
    have hsize : (w.openContext policy).2.contexts.size = w.contexts.size + 1 := Array.size_push ..
    refine hw.of_contexts (by omega) fun halive => ?_
    rcases w.openContext_cases policy c with ⟨hsame, hcache⟩ | ⟨hnew, -, -⟩
    · exact ⟨hsame ▸ halive, hcache⟩
    · exact absurd hw.opened (Nat.not_lt.2 (Nat.le_of_eq hnew.symm))
  | retained place =>
    have hsize : (w.retain place).contexts.size = w.contexts.size := Array.size_modify ..
    refine hw.of_contexts (Nat.le_of_eq hsize.symm) fun halive => ?_
    exact ⟨(w.retain_same place c).1 ▸ halive, (w.retain_same place c).2⟩
  | released place =>
    have hsize : (w.release place).contexts.size = w.contexts.size := Array.size_modify ..
    refine hw.of_contexts (Nat.le_of_eq hsize.symm) fun halive => ?_
    rcases w.release_cases place c with ⟨hsame, hcache⟩ | ⟨hdead, -⟩
    · exact ⟨hsame ▸ halive, hcache⟩
    · rw [hdead] at halive
      cases halive
  | recalled allowed => exact allowed.elim
  | stored allowed => exact allowed.elim
  | _ => exact hw.of_contexts_eq rfl

theorem Changes.secures {subject : Subject} {id : ObjectId} (h : Changes False w w')
    (hw : w.Secures c subject id) : w'.Secures c subject id := by
  induction h with
  | refl => exact hw
  | tail _ hstep ih => exact hstep.secures ih

/-- A move leaves what is remembered in a context that is held, unless it replaces it directly. -/
theorem World.Secures.after {subject : Subject} {id : ObjectId} (hw : w.Secures c subject id)
    (hs : w.Sound) {m : Move σ} (hm : m.Allowed w) (hreplaces : ¬ m.Replaces c subject) :
    (w.after m).Secures c subject id := by
  have hplain : m.IsPlain → (w.after m).Secures c subject id :=
    fun hplain => (m.changes hs hm (.inr hplain)).secures hw
  cases m with
  | memoize context key entry =>
    show World.Secures ((discard _ : ScriptM σ Unit).on w).2 c subject id
    rw [ScriptM.on_discard, on_remember]
    cases hknown : w.known? context key entry.kind with
    | some content => exact hw.of_contexts_eq rfl
    | none =>
      have hkept : (w.keep context key entry).Secures c subject id := by
        refine hw.keep (fun halive hcontext hkey => ?_) entry
        refine hreplaces ⟨hcontext, hkey, fun hkind => ?_⟩
        -- an entry of the same kind would have been found
        rw [hcontext, hkey, hkind, known?_eq, Option.bind_some, hw.remembers halive] at hknown
        cases hknown.symm.trans (Entry.as?_eq_some.2 rfl)
      exact hkept.of_contexts_eq rfl
  | _ => exact hplain trivial

end Membrane
