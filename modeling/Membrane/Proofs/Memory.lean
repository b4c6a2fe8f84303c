import Membrane.Catalog.Running
import Membrane.Proofs.Cache
import Membrane.Proofs.Reach
import Mathlib.Data.List.Dedup

/-!
# What contexts remember

As long as values only cross, a context that is held remembers exactly what was asked for in it, as
the journal shows: one entry for each key, the one that the first request was answered with. Every
entry is a wrapper of that context over a host value of the key (`World.Faithful`). Since the key of
a host value decides what kind of wrapper it gets, a request never finds an entry of another kind,
and so never replaces one.

If something was put there directly, it may have replaced an entry or have another key. Then an
entry is still what its kind says (`World.Typed`).
-/

namespace Membrane

variable {σ : Type}

/-! ## Faithful memory -/

/-- Every wrapper of the first heap is in the second one, at its place. -/
def Heap.Preserved (h h' : Heap) : Prop := ∀ id v, h.wrapper? id = some v → h'.wrapper? id = some v

theorem Heap.preserved_push (h : Heap) (object : ScriptObject) : h.Preserved (h.push object) := by
  intro id v hv
  rw [wrapper?_push_of_holds (holds_of_wrapper? hv), hv]

namespace World

variable {w w' : World σ} {c : ContextId}

/-- A context remembers what was asked for in it, under each key one wrapper of its own over a host
value that has the key. -/
structure Remembers (w : World σ) (c : ContextId) : Prop where
  nodup : (w.cache c).keys.Nodup
  asked : ∀ key entry, (w.cache c).get? key = some entry ↔ (key, entry) ∈ w.requests c
  wrapper : ∀ key entry, (w.cache c).get? key = some entry →
    ∃ id v, entry = v.subject.entry id ∧ w.heap.wrapper? id = some v ∧ v.context = some c ∧
      v.subject.identity = key

/-- The contexts that are held remember, the others have forgotten everything, and there were no
requests in contexts that are not open yet. -/
structure Faithful (w : World σ) : Prop where
  remembers : ∀ c, w.isAlive c → w.Remembers c
  forgotten : ∀ c, w.isAlive c = false → w.cache c = {}
  opened : ∀ c, w.contexts.size ≤ c.index → w.requests c = []

/-- A wrapper is the only thing that can be remembered under its key. -/
theorem Remembers.entry_eq (h : w.Remembers c) {subject : Subject} {entry : Entry}
    (hentry : (w.cache c).get? subject.identity = some entry) : ∃ id, entry = subject.entry id := by
  obtain ⟨id, v, rfl, -, -, hkey⟩ := h.wrapper _ _ hentry
  exact ⟨id, Subject.entry_eq hkey id⟩

/-- A wrapper that is remembered under the key of a host value is over one of that key. -/
theorem Remembers.exists_wrapper (h : w.Remembers c) {subject : Subject} {id : ObjectId}
    (hentry : (w.cache c).get? subject.identity = some (subject.entry id)) :
    ∃ v, w.heap.wrapper? id = some v ∧ v.context = some c ∧
      v.subject.identity = subject.identity := by
  obtain ⟨id', v, heq, hv, hctx, hkey⟩ := h.wrapper _ _ hentry
  obtain rfl := Subject.entry_inj (heq.trans (Subject.entry_eq hkey id'))
  exact ⟨v, hv, hctx, hkey⟩

/-- What a site remembers of a host value. -/
theorem wrapper?_eq_some {site : Site} (hc : site.context = some c) {subject : Subject}
    {id : ObjectId} : w.wrapper? site subject = some id ↔
      (w.cache c).get? subject.identity = some (subject.entry id) := by
  rw [wrapper?, known?_eq, hc, Option.bind_some, Option.bind_eq_some_iff]
  constructor
  · rintro ⟨entry, hentry, hid⟩
    rw [hentry, Entry.as?_eq_some.1 hid]
    rfl
  · exact fun h => ⟨_, h, Entry.as?_eq_some.2 rfl⟩

/-- A wrapper is made only under a key under which nothing is remembered. -/
theorem Remembers.get?_eq_none (h : w.Remembers c) {site : Site} (hc : site.context = some c)
    {subject : Subject} (hnone : w.wrapper? site subject = none) :
    (w.cache c).get? subject.identity = none := by
  cases hentry : (w.cache c).get? subject.identity with
  | none => rfl
  | some entry =>
    obtain ⟨id, rfl⟩ := h.entry_eq hentry
    rw [(wrapper?_eq_some hc).2 hentry] at hnone
    cases hnone

/-- Nothing has changed for a context, and its wrappers are still there. -/
theorem Remembers.of_same (h : w.Remembers c) (hcache : w'.cache c = w.cache c)
    (hrequests : w'.requests c = w.requests c)
    (hwrapper : w.heap.Preserved w'.heap) :
    w'.Remembers c where
  nodup := hcache ▸ h.nodup
  asked := hcache ▸ hrequests ▸ h.asked
  wrapper key entry hentry := by
    obtain ⟨id, v, hv⟩ := h.wrapper key entry (hcache ▸ hentry)
    exact ⟨id, v, hv.1, hwrapper id v hv.2.1, hv.2.2⟩

/-- In a context without requests nothing is remembered. -/
theorem Remembers.of_empty (hcache : w.cache c = {}) (hrequests : w.requests c = []) :
    w.Remembers c := by
  constructor
  · rw [hcache]
    exact List.nodup_nil
  · intro key entry
    rw [hcache, hrequests]
    simp [Cache.get?]
  · intro key entry hentry
    rw [hcache] at hentry
    cases hentry

/-- A request was answered with what is remembered. -/
theorem Remembers.recall (h : w.Remembers c) {key : Identity} {entry : Entry}
    (hentry : (w.cache c).get? key = some entry) (hcache : w'.cache c = w.cache c)
    (hrequests : w'.requests c = w.requests c ++ [(key, entry)])
    (hwrapper : w.heap.Preserved w'.heap) : w'.Remembers c where
  nodup := hcache ▸ h.nodup
  asked key' entry' := by
    rw [hcache, hrequests, h.asked key' entry', List.mem_append, List.mem_singleton]
    refine ⟨.inl, fun hmem => ?_⟩
    rcases hmem with hmem | heq
    · exact hmem
    · rw [heq]
      exact (h.asked key entry).1 hentry
  wrapper key' entry' hentry' := by
    obtain ⟨id, v, hv⟩ := h.wrapper key' entry' (hcache ▸ hentry')
    exact ⟨id, v, hv.1, hwrapper id v hv.2.1, hv.2.2⟩

/-- A request was answered with a new wrapper, which is remembered. -/
theorem Remembers.learn (h : w.Remembers c) {v : Wrapper} {id : ObjectId}
    (hnone : (w.cache c).get? v.subject.identity = none)
    (hcache : w'.cache c = (w.cache c).insert v.subject.identity (v.subject.entry id))
    (hrequests : w'.requests c = w.requests c ++ [(v.subject.identity, v.subject.entry id)])
    (hv : w'.heap.wrapper? id = some v) (hcontext : v.context = some c)
    (hwrapper : w.heap.Preserved w'.heap) : w'.Remembers c := by
  have hget := (w.cache c).get?_insert v.subject.identity (v.subject.entry id)
  constructor
  · rw [hcache]
    exact Cache.nodup_keys_insert hnone h.nodup _
  · intro key entry
    rw [hcache, hget, hrequests, List.mem_append, ← h.asked key entry]
    by_cases hkey : key = v.subject.identity
    · subst hkey
      rw [if_pos rfl, hnone]
      simp [eq_comm]
    · rw [if_neg hkey]
      simp [hkey]
  · intro key entry hentry
    rw [hcache, hget] at hentry
    by_cases hkey : key = v.subject.identity
    · rw [if_pos hkey] at hentry
      exact ⟨id, v, (Option.some.inj hentry).symm, hv, hcontext, hkey.symm⟩
    · rw [if_neg hkey] at hentry
      obtain ⟨id', v', hv'⟩ := h.wrapper key entry hentry
      exact ⟨id', v', hv'.1, hwrapper id' v' hv'.2.1, hv'.2.2⟩

/-- Each context is as it was, or forgotten. -/
theorem Faithful.of_contexts (h : w.Faithful)
    (hcontext : ∀ c, w'.isAlive c = w.isAlive c ∧ w'.cache c = w.cache c ∨
      w'.isAlive c = false ∧ w'.cache c = {})
    (hsize : w'.contexts.size = w.contexts.size) (hrequests : ∀ c, w'.requests c = w.requests c)
    (hwrapper : w.heap.Preserved w'.heap) :
    w'.Faithful := by
  constructor
  · intro c hc
    rcases hcontext c with ⟨halive, hcache⟩ | ⟨hdead, -⟩
    · exact (h.remembers c (halive ▸ hc)).of_same hcache (hrequests c) hwrapper
    · rw [hdead] at hc
      cases hc
  · intro c hc
    rcases hcontext c with ⟨halive, hcache⟩ | ⟨-, hcache⟩
    · exact hcache.trans (h.forgotten c (halive ▸ hc))
    · exact hcache
  · exact fun c hc => (hrequests c).trans (h.opened c (hsize ▸ hc))

theorem Faithful.of_contexts_eq (h : w.Faithful) (hcontexts : w'.contexts = w.contexts)
    (hrequests : ∀ c, w'.requests c = w.requests c)
    (hwrapper : w.heap.Preserved w'.heap) :
    w'.Faithful :=
  h.of_contexts (fun c => .inl ⟨isAlive_congr hcontexts c, cache_congr hcontexts c⟩)
    (by rw [hcontexts]) hrequests hwrapper

/-! ## What changes do to it -/

theorem lt_size_of_isAlive (hc : w.isAlive c) : c.index < w.contexts.size := by
  refine Decidable.byContradiction fun hlt => ?_
  rw [isAlive, context?, Array.getElem?_eq_none (Nat.le_of_not_lt hlt)] at hc
  cases hc

/-- A request changes nothing for other contexts than the one in which it is made. -/
theorem Faithful.of_asked (h : w.Faithful) {context : Option ContextId} {key : Identity}
    {answer : Entry} {built : Bool} (hcontext : ∀ c, context = some c → w.isAlive c = true)
    (hjournal : w'.journal = w.journal ++ [.asked context key answer built])
    (halive : ∀ c, w'.isAlive c = w.isAlive c) (hsize : w'.contexts.size = w.contexts.size)
    (hother : ∀ c, context ≠ some c → w'.cache c = w.cache c)
    (hwrapper : w.heap.Preserved w'.heap)
    (hown : ∀ c, context = some c → w.Remembers c → w'.Remembers c) : w'.Faithful := by
  have hrequests : ∀ c, context ≠ some c → w'.requests c = w.requests c := fun c hc =>
    requests_of_silent hjournal (if_neg hc)
  constructor
  · intro c hc
    have hold := h.remembers c (halive c ▸ hc)
    by_cases hctx : context = some c
    · exact hown c hctx hold
    · exact hold.of_same (hother c hctx) (hrequests c hctx) hwrapper
  · intro c hc
    rw [halive] at hc
    have hctx : context ≠ some c := fun hctx => by
      rw [hcontext c hctx] at hc
      cases hc
    rw [hother c hctx, h.forgotten c hc]
  · intro c hc
    rw [hsize] at hc
    have hctx : context ≠ some c := fun hctx => by
      have hlt := lt_size_of_isAlive (hcontext c hctx)
      omega
    rw [hrequests c hctx, h.opened c hc]

theorem Faithful.recalled (h : w.Faithful) {site : Site} {subject : Subject} {id : ObjectId}
    (stands : site.Stands w) (known : w.wrapper? site subject = some id) :
    (w.note (.asked site.context subject.identity (subject.entry id) false)).Faithful := by
  refine h.of_asked stands.alive rfl (fun _ => rfl) rfl (fun _ _ => rfl) (fun _ _ hv => hv) ?_
  intro c hctx hold
  exact hold.recall ((wrapper?_eq_some hctx).1 known) rfl (requests_of_asked rfl hctx)
    fun _ _ hv => hv

theorem Faithful.wrapped (h : w.Faithful) {site : Site} {subject : Subject}
    (stands : site.Stands w) (unknown : w.wrapper? site subject = none) :
    (w.pushWrapper site subject).Faithful := by
  have hjournal := w.journal_pushWrapper site subject
  have hheap := w.heap_pushWrapper site subject
  have hwrapper : w.heap.Preserved (w.pushWrapper site subject).heap :=
    hheap ▸ w.heap.preserved_push _
  refine h.of_asked stands.alive hjournal (fun _ => isAlive_pushWrapper ..) (size_keep ..)
    (fun _ hctx => cache_keep_of_ne hctx _ _) hwrapper ?_
  intro c hctx hold
  let v : Wrapper := ⟨subject, site.policy, site.context, site.realm⟩
  have hv : (w.pushWrapper site subject).heap.wrapper? w.heap.next = some v := by
    rw [hheap]
    exact Heap.wrapper?_push_next _
  have hcache : (w.pushWrapper site subject).cache c =
      (w.cache c).insert v.subject.identity (v.subject.entry w.heap.next) := by
    rw [pushWrapper, hctx]
    exact cache_keep_self (stands.alive c hctx) _ _
  exact hold.learn (hold.get?_eq_none hctx unknown) hcache (requests_of_asked hjournal hctx) hv hctx
    hwrapper

theorem Faithful.openContext (h : w.Faithful) (policy : Policy) :
    (w.openContext policy).2.Faithful := by
  constructor
  · intro c hc
    rcases w.openContext_cases policy c with ⟨halive, hcache⟩ | ⟨hnew, -, hcache⟩
    · rw [halive] at hc
      exact (h.remembers c hc).of_same hcache rfl fun _ _ hv => hv
    · exact .of_empty hcache (h.opened c (Nat.le_of_eq hnew.symm))
  · intro c hc
    rcases w.openContext_cases policy c with ⟨halive, hcache⟩ | ⟨-, halive, -⟩
    · rw [halive] at hc
      rw [hcache, h.forgotten c hc]
    · rw [halive] at hc
      cases hc
  · intro c hc
    have hsize : (w.openContext policy).2.contexts.size = w.contexts.size + 1 := Array.size_push ..
    rw [hsize] at hc
    exact h.opened c (Nat.le_of_succ_le hc)

theorem Faithful.retain (h : w.Faithful) (place : ContextId) : (w.retain place).Faithful :=
  h.of_contexts (fun c => .inl (w.retain_same place c)) (Array.size_modify ..) (fun _ => rfl)
    fun _ _ hv => hv

theorem Faithful.release (h : w.Faithful) (place : ContextId) : (w.release place).Faithful :=
  h.of_contexts (w.release_cases place) (Array.size_modify ..) (fun _ => rfl) fun _ _ hv => hv

/-- A step after which only the journal has grown, and by no request. -/
theorem Faithful.of_silent {event : Event} (h : w.Faithful) (hcontexts : w'.contexts = w.contexts)
    (hjournal : w'.journal = w.journal ++ [event]) (hsilent : ∀ c, event.request? c = none)
    (hwrapper : w.heap.Preserved w'.heap) : w'.Faithful :=
  h.of_contexts_eq hcontexts (fun c => requests_of_silent hjournal (hsilent c)) hwrapper

end World

open World

variable [Host σ] {w w' : World σ}

theorem Border.faithful (h : Border .any w w') (hw : w.Faithful) : w'.Faithful := by
  have hchange : Change False w w' := .border h
  have hwrapper : w.heap.Preserved w'.heap := fun _ _ hv => hchange.wrapper? hv
  cases h with
  | address => exact hw.of_contexts_eq rfl (fun _ => rfl) hwrapper
  | ran i outcome => exact hw.of_silent rfl rfl (fun _ => rfl) hwrapper
  | incoming policy value among outcome => exact hw.of_silent rfl rfl (fun _ => rfl) hwrapper
  | outgoing policy value among outcome => exact hw.of_silent rfl rfl (fun _ => rfl) hwrapper
  | recalled site subject stands known => exact hw.recalled stands known
  | wrapped site subject stands unknown => exact hw.wrapped stands unknown

theorem Breaks.faithful {e : ScriptError} (h : Breaks .any w e w') (hw : w.Faithful) :
    w'.Faithful := by
  have hchange : Change False w w' := .breaks h
  have hwrapper : w.heap.Preserved w'.heap := fun _ _ hv => hchange.wrapper? hv
  cases h with
  | ran i outcome => exact hw.of_silent rfl rfl (fun _ => rfl) hwrapper
  | incoming policy value among outcome => exact hw.of_silent rfl rfl (fun _ => rfl) hwrapper
  | outgoing policy value among outcome => exact hw.of_silent rfl rfl (fun _ => rfl) hwrapper
  | otherwise _ lenient => exact hw

/-- **Every change keeps memory faithful.** -/
theorem Change.faithful (h : Change False w w') (hw : w.Faithful) : w'.Faithful := by
  have hwrapper : w.heap.Preserved w'.heap := fun _ _ hv => h.wrapper? hv
  cases h with
  | border step => exact step.faithful hw
  | breaks step => exact step.faithful hw
  | opened policy => exact hw.openContext policy
  | retained c => exact hw.retain c
  | released c => exact hw.release c
  | recalled allowed => exact allowed.elim
  | stored allowed => exact allowed.elim
  | _ => exact hw.of_contexts_eq rfl (fun _ => rfl) hwrapper

/-! ## Contexts that were written to directly -/

/-- The content of an entry suits its key: a wrapper of that kind is over a host value of the key. -/
def Heap.Bears (h : Heap) (key : Identity) : Entry → Prop
  | ⟨.wrapper kind, id⟩ =>
    ∃ v, h.wrapper? id = some v ∧ v.subject.kind = kind ∧ v.subject.identity = key
  | _ => True

/-- The entry is what wrapping a host value of the key leaves in a memory. -/
def Heap.Registers (h : Heap) (key : Identity) (entry : Entry) : Prop :=
  ∃ id v, h.wrapper? id = some v ∧ key = v.subject.identity ∧ entry = v.subject.entry id

theorem Heap.Registers.bears {h : Heap} {key : Identity} {entry : Entry}
    (hentry : h.Registers key entry) : h.Bears key entry := by
  obtain ⟨id, v, hv, rfl, rfl⟩ := hentry
  exact ⟨v, hv, rfl, rfl⟩

theorem Heap.Preserved.fits {h h' : Heap} (hpreserved : h.Preserved h') {entry : Entry}
    (hentry : h.Fits entry) : h'.Fits entry := by
  obtain ⟨kind, content⟩ := entry
  cases kind with
  | wrapper kind =>
    obtain ⟨v, hv, hkind⟩ := hentry
    exact ⟨v, hpreserved content v hv, hkind⟩
  | _ => trivial

theorem Heap.Preserved.bears {h h' : Heap} (hpreserved : h.Preserved h') {key : Identity}
    {entry : Entry} (hentry : h.Bears key entry) : h'.Bears key entry := by
  obtain ⟨kind, content⟩ := entry
  cases kind with
  | wrapper kind =>
    obtain ⟨v, hv, hsame⟩ := hentry
    exact ⟨v, hpreserved content v hv, hsame⟩
  | _ => trivial

theorem Heap.Preserved.registers {h h' : Heap} (hpreserved : h.Preserved h') {key : Identity}
    {entry : Entry} (hentry : h.Registers key entry) : h'.Registers key entry := by
  obtain ⟨id, v, hv, hsame⟩ := hentry
  exact ⟨id, v, hpreserved id v hv, hsame⟩

namespace World

/-- Whatever contexts remember is what its kind says. -/
def Typed (w : World σ) : Prop :=
  ∀ c key entry, (w.cache c).get? key = some entry → w.heap.Fits entry

omit [Host σ] in
/-- The wrapper that a request yields is new, or the one that is remembered under the key. -/
theorem Typed.wrap_cases (h : w.Typed) (site : Site) (subject : Subject) :
    ∃ id w₁ v, (wrap site subject).on w = (.ok id, w₁) ∧ w₁.host = w.host ∧
      w₁.heap.wrapper? id = some v ∧ v.subject.kind = subject.kind ∧
      (v = ⟨subject, site.policy, site.context, site.realm⟩ ∨
        w.heap.wrapper? id = some v ∧ ∃ c, site.context = some c ∧
          (w.cache c).get? subject.identity = some (subject.entry id)) := by
  cases hknown : w.wrapper? site subject with
  | none =>
    refine ⟨w.heap.next, w.pushWrapper site subject, _, by rw [on_wrap, hknown],
      host_pushWrapper .., ?_, ?_, .inl rfl⟩
    · rw [heap_pushWrapper]
      exact Heap.wrapper?_push_next _
    · rfl
  | some id =>
    obtain ⟨c, hc⟩ : ∃ c, site.context = some c := by
      cases hctx : site.context with
      | none =>
        rw [wrapper?, hctx] at hknown
        cases hknown
      | some c => exact ⟨c, rfl⟩
    have hentry := (wrapper?_eq_some hc).1 hknown
    obtain ⟨v, hv, hkind⟩ := h c _ _ hentry
    refine ⟨id, w.note (.asked site.context subject.identity (subject.entry id) false), v,
      ?_, rfl, hv, hkind, .inr ⟨hv, c, hc, hentry⟩⟩
    rw [on_wrap, hknown]

end World

/-- A change forgets what a context remembers, adds one entry or leaves it as it is. Only an entry
that is put there directly may be anything else than a wrapper under its own key. -/
theorem Change.cache_cases {direct : Prop} (h : Change direct w w') (c : ContextId) :
    w'.cache c = w.cache c ∨ w'.cache c = {} ∨
      ∃ key entry, w'.cache c = (w.cache c).insert key entry ∧ w'.heap.Fits entry ∧
        (direct ∨ w'.heap.Registers key entry) := by
  cases h with
  | border step =>
    cases step with
    | wrapped site subject stands unknown =>
      have hv : (w.pushWrapper site subject).heap.wrapper? w.heap.next =
          some ⟨subject, site.policy, site.context, site.realm⟩ := by
        rw [heap_pushWrapper]
        exact Heap.wrapper?_push_next _
      rcases cache_keep_cases (w.push (site.wrapper subject)) site.context subject.identity
        (subject.entry w.heap.next) c with hsame | hnew
      · exact .inl hsame
      · exact .inr (.inr ⟨_, _, hnew, ⟨_, hv, rfl⟩, .inr ⟨_, _, hv, rfl, rfl⟩⟩)
    | _ => exact .inl rfl
  | breaks step =>
    cases step with
    | _ => exact .inl rfl
  | stored allowed context key entry stands fits =>
    have hfits : (w.keep context key entry).heap.Fits entry := by
      rw [World.heap_keep]
      exact fits
    rcases w.cache_keep_cases context key entry c with hsame | hnew
    · exact .inl hsame
    · exact .inr (.inr ⟨key, entry, hnew, hfits, .inl allowed⟩)
  | opened policy =>
    rcases w.openContext_cases policy c with ⟨-, hsame⟩ | ⟨-, -, hnew⟩
    · exact .inl hsame
    · exact .inr (.inl hnew)
  | retained place => exact .inl (w.retain_same place c).2
  | released place =>
    rcases w.release_cases place c with ⟨-, hsame⟩ | ⟨-, hforgotten⟩
    · exact .inl hsame
    · exact .inr (.inl hforgotten)
  | _ => exact .inl rfl

/-- What is remembered after a change was remembered before, or is what its kind says. -/
theorem Change.get?_cases {direct : Prop} (h : Change direct w w') {c : ContextId} {key : Identity}
    {entry : Entry} (hentry : (w'.cache c).get? key = some entry) :
    (w.cache c).get? key = some entry ∨
      w'.heap.Fits entry ∧ (direct ∨ w'.heap.Registers key entry) := by
  rcases h.cache_cases c with hsame | hnone | ⟨key', entry', hnew, hfits⟩
  · exact .inl (hsame ▸ hentry)
  · rw [hnone] at hentry
    cases hentry
  · rw [hnew, Cache.get?_insert] at hentry
    split at hentry
    case isTrue hkey =>
      subst hkey
      exact .inr (Option.some.inj hentry ▸ hfits)
    case isFalse => exact .inl hentry

theorem Change.typed {direct : Prop} (h : Change direct w w') (hw : w.Typed) : w'.Typed := by
  have hpreserved : w.heap.Preserved w'.heap := fun _ _ hv => h.wrapper? hv
  intro c key entry hentry
  rcases h.get?_cases hentry with hold | ⟨hfits, -⟩
  · exact hpreserved.fits (hw c key entry hold)
  · exact hfits

/-- **Whatever contexts remember is what its kind says**, also if it was put there directly. -/
theorem World.Reachable.typed (h : w.Reachable) : w.Typed := by
  obtain ⟨host, inForce, h⟩ := h
  have hchanges := (h.changes (World.initial_sound host inForce)).1
  clear h
  induction hchanges with
  | refl =>
    intro c key entry hentry
    cases hentry
  | tail _ hstep ih => exact hstep.typed ih

/-! ## Memory over a run -/

/-- No change takes anything out of the journal. -/
theorem Change.journal {direct : Prop} (h : Change direct w w') : w.journal <+: w'.journal := by
  cases h with
  | border step =>
    cases step with
    | address => exact List.prefix_rfl
    | wrapped site subject stands unknown =>
      rw [World.journal_pushWrapper]
      exact List.prefix_append ..
    | _ => exact List.prefix_append ..
  | breaks step =>
    cases step with
    | otherwise _ lenient => exact List.prefix_rfl
    | _ => exact List.prefix_append ..
  | recalled => exact List.prefix_append ..
  | stored allowed context key entry stands fits =>
    rw [World.note, World.journal_keep]
    exact List.prefix_append ..
  | _ => exact List.prefix_rfl

/-- Changes keep memory faithful and forget no request. -/
theorem Changes.faithful (h : Changes False w w') (hw : w.Faithful) :
    w'.Faithful ∧ w.journal <+: w'.journal := by
  induction h with
  | refl => exact ⟨hw, List.prefix_rfl⟩
  | tail _ hstep ih => exact ⟨hstep.faithful ih.1, ih.2.trans hstep.journal⟩

omit [Host σ] in
theorem World.initial_faithful (host : HostSide σ) (inForce : Accessor) :
    (World.initial host inForce).Faithful where
  remembers _ hc := by cases hc
  forgotten _ _ := rfl
  opened _ _ := rfl

theorem World.PlainlyReachable.faithful (h : w.PlainlyReachable) : w.Faithful := by
  obtain ⟨host, inForce, h⟩ := h
  have hchanges := (h.changes (World.initial_sound host inForce)).1
  exact (hchanges.faithful (World.initial_faithful host inForce)).1

omit [Host σ] in
/-- A context remembers one entry for each key that was ever asked for in it. -/
theorem World.Remembers.size_eq {c : ContextId} (h : w.Remembers c) :
    (w.cache c).size = ((w.requests c).map (·.1)).dedup.length := by
  have hmem : ∀ key, key ∈ (w.cache c).keys ↔ key ∈ ((w.requests c).map (·.1)).dedup := by
    intro key
    rw [Cache.mem_keys, List.mem_dedup, List.mem_map]
    constructor
    · rintro ⟨entry, hentry⟩
      exact ⟨(key, entry), (h.asked key entry).1 hentry, rfl⟩
    · rintro ⟨⟨_, entry⟩, hmem, rfl⟩
      exact ⟨entry, (h.asked _ entry).2 hmem⟩
  have hperm := (List.perm_ext_iff_of_nodup h.nodup (List.nodup_dedup _)).2 hmem
  rw [← hperm.length_eq, Cache.keys, List.length_map, Cache.size]

omit [Host σ] in
/-- A host value whose key is remembered gets the wrapper that is remembered. -/
theorem World.Remembers.on_wrap {c : ContextId} {site : Site} (hc : site.context = some c)
    {subject : Subject} {id : ObjectId}
    (hentry : (w.cache c).get? subject.identity = some (subject.entry id)) :
    (wrap site subject).on w =
      (.ok id, w.note (.asked site.context subject.identity (subject.entry id) false)) := by
  rw [Membrane.on_wrap, (World.wrapper?_eq_some hc).2 hentry]

/-- **What a context remembers, it remembers for the rest of its life.** Let plain moves lead from a
world that was reached plainly to another one in which the context is held. Then every entry is
still there. The entries are the answers that all requests in the context have been given, so that
two requests under a key were answered alike. Each is a wrapper of this context, over the one object
or class of the key or over a callable written that way, and any further request is answered with
it. There are as many as there were different keys. -/
theorem World.PlainlyReachable.memory (hw : w.PlainlyReachable) (h : w.ReachesPlainly w')
    {c : ContextId} (hc : w'.isAlive c = true) :
    (∀ key entry, (w.cache c).get? key = some entry → (w'.cache c).get? key = some entry) ∧
    (∀ key entry, (w'.cache c).get? key = some entry ↔ (key, entry) ∈ w'.requests c) ∧
    (∀ key entry, (w'.cache c).get? key = some entry →
      ∃ id v, entry = ⟨.wrapper v.subject.kind, id⟩ ∧ w'.heap.wrapper? id = some v ∧
        v.context = some c ∧ key.Names v.subject ∧
        ∀ site subject, site.context = some c → subject.identity = key →
          ((wrap site subject).on w').1 = .ok id ∧
          (site.policy.converter = .standard →
            ((toScript site subject.value).on w').1 = .ok (.object id))) ∧
    w'.remembered c = ((w'.requests c).map (·.1)).dedup.length := by
  obtain ⟨hw', hjournal⟩ := (h.changes hw.reachable.sound).1.faithful hw.faithful
  have hnow := hw'.remembers c hc
  refine ⟨fun key entry hentry => ?_, hnow.asked, fun key entry hentry => ?_, ?_⟩
  · -- there is something remembered, so the context was held
    cases halive : w.isAlive c with
    | false =>
      rw [hw.faithful.forgotten c halive] at hentry
      cases hentry
    | true =>
      have hasked := ((hw.faithful.remembers c halive).asked key entry).1 hentry
      exact (hnow.asked key entry).2 ((hjournal.filterMap _).subset hasked)
  · obtain ⟨id, v, rfl, hv, hctx, rfl⟩ := hnow.wrapper key entry hentry
    refine ⟨id, v, rfl, hv, hctx, Identity.names_iff.2 rfl, fun site subject hsite hkey => ?_⟩
    have hsame : (w'.cache c).get? subject.identity = some (subject.entry id) := by
      rw [hkey, hentry, Subject.entry_eq hkey]
    refine ⟨congrArg Prod.fst (World.Remembers.on_wrap hsite hsame), fun hstandard => ?_⟩
    rw [on_toScript, hstandard]
    exact congrArg Prod.fst (on_crossOut (World.Remembers.on_wrap
      (w := w'.note (.outgoing subject.value (.ok none))) hsite hsame))
  · rw [World.remembered_eq, hnow.size_eq]

/-- A context in which one object was wrapped. -/
def Catalog.wrappedOnce : World Catalog :=
  ((World.initial ⟨0, {}⟩ .standard).after (.openContext ⟨{}, .standard, .standard⟩)).after
    (.wrap ⟨⟨{}, .standard, .standard⟩, some ⟨0⟩, none⟩ (.object ⟨7, "Point"⟩))

/-- The same context after the object was wrapped again. -/
def Catalog.wrappedTwice : World Catalog :=
  wrappedOnce.after (.wrap ⟨⟨{}, .standard, .standard⟩, some ⟨0⟩, none⟩ (.object ⟨7, "Point"⟩))

/-- The object has one wrapper, which it keeps, and the context remembers one key. -/
theorem Catalog.memory_wrappedTwice :
    (wrappedTwice.cache ⟨0⟩).get? (.object ⟨7, "Point"⟩) = some ⟨.wrapper .object, ⟨0⟩⟩ ∧
      wrappedTwice.remembered ⟨0⟩ = 1 := by
  have hserves : ∀ w : World Catalog, w.isAlive ⟨0⟩ = true → w.Serves (some ⟨0⟩) none :=
    fun w hw => ⟨fun c hc => Option.some.inj hc ▸ hw, fun r hr => by cases hr⟩
  have honce : wrappedOnce.PlainlyReachable :=
    ((World.initial_reachable _ _).after (m := .openContext _) trivial trivial).after
      (hserves _ rfl) trivial
  have htwice : wrappedOnce.ReachesPlainly wrappedTwice :=
    .single (World.leads_after (hserves _ rfl) trivial)
  obtain ⟨hkept, -, -, hcount⟩ := honce.memory htwice (c := ⟨0⟩) rfl
  exact ⟨hkept _ _ rfl, hcount.trans (by decide)⟩

end Membrane
