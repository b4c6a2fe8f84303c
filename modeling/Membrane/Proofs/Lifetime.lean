import Membrane.Proofs.Asking
import Membrane.Proofs.Equality
import Membrane.Proofs.History
import Membrane.Proofs.Turns

/-!
# Reading methods while a context lives

A wrapper knows the context that it was made in only as long as somebody holds the context. Until
then every read that comes to a callable yields the one function that the context remembers for all
callables that are written alike. Afterwards, and for wrappers without a context, every such read
yields a new function that nobody remembers.
-/

namespace Membrane

variable {σ : Type} [Host σ] {w w' : World σ} {id : ObjectId} {v : Wrapper} {key : PropertyKey}
  {h : HostCallable}

/-! ## Reads that come to a callable -/

/-- Reading a key of a wrapper comes to a callable: to the method of a member that the strategy
hands out, or to the answer of the host code that the strategy runs for the key, if the converter
lets the answer cross as it is. -/
inductive World.ReadsAs (w : World σ) (v : Wrapper) (key : PropertyKey) : HostCallable → Prop where
  | handedOut (name : String) (m : Member) (named : key = .name name)
      (external : key.isInternal = false)
      (found : v.subject.value.member? w.host.state name = some m)
      (out : v.policy.accessor.HandsOut w.host.state v.subject.value name m) :
      ReadsAs w v key (.unbound (m.method w.host.next))
  | answered (i : Invocation) (asks : v.policy.accessor.AsksMembers)
      (runs : v.RunsMember w.host.state key i ∨ v.RunsIndex w.host.state key i) (h : HostCallable)
      (answer : (w.directly i.run).1 = .ok (.callable h))
      (crosses : v.policy.converter.outgoing (w.view.className (.callable h)) (.callable h) =
        .ok none) : ReadsAs w v key h

/-- The context remembers the function as the wrapper of all callables that are written alike. -/
def World.KeepsFunction (w : World σ) (c : ContextId) (h : HostCallable) (f : ObjectId) : Prop :=
  (w.cache c).get? (.ofCallable h) = some ⟨.wrapper .function, f⟩

/-- What the strategy answers if the host code that it runs answers with a callable. -/
theorem on_accessor_get_of_answered {i : Invocation} {w₁ : World σ} (site : Site)
    (receiver : ObjectId) (asks : v.policy.accessor.AsksMembers)
    (runs : v.RunsMember w.host.state key i ∨ v.RunsIndex w.host.state key i)
    (hinvoke : w.invoke i = (.ok (.callable h), w₁)) :
    (v.policy.accessor.get site v.subject.value receiver key).on w =
      (some <$> toScript site (.callable h)).on w₁ := by
  have hcall : (ScriptM.hostCall i).on w = (.ok (.callable h), w₁) := by
    rw [ScriptM.on_hostCall, hinvoke]
  rcases runs with ⟨name, m, named, external, found, runs⟩ | ⟨m, external, unnamed, found, arity⟩
  · have hkey := PropertyKey.memberName?_eq_some.2 ⟨external, named⟩
    rw [on_accessor_get_of_runs site receiver hkey found runs, ScriptM.on_map_eq,
      ScriptM.on_bind_of_ok hcall, ScriptM.on_map_eq]
  · rw [Wrapper.names_iff, not_or, Bool.not_eq_true, Option.isSome_eq_false_iff,
      Option.isNone_iff_eq_none] at unnamed
    have hindex : (v.subject.value.readIndex key).on w = (.ok (.callable h), w₁) := by
      rw [HostValue.readIndex, ScriptM.on_get_bind,
        HostValue.indexReader?_eq_some.2 ⟨external, found, arity⟩]
      exact hcall
    rw [on_accessor_get_of_unread asks unnamed.1, if_neg unnamed.2, getIndexed,
      ScriptM.on_bind_of_ok hindex, map_eq_pure_bind]
    rfl

/-- **A read that comes to a callable wraps it**, in a world with the same objects and contexts. -/
theorem World.ReadsAs.on_get? (hv : w.heap.wrapper? id = some v) (hreads : w.ReadsAs v key h) :
    ∃ u : World σ, u.heap = w.heap ∧ u.contexts = w.contexts ∧
      ∀ f w₁, (wrap (v.site w) (.function h)).on u = (.ok f, w₁) →
        (id.get? key).on w = (.ok (some (.object f)), w₁) := by
  cases hreads with
  | handedOut name m named external found out =>
    refine ⟨{ w with host := w.host.fresh.2 }, rfl, rfl, fun f w₁ hwrap => ?_⟩
    have hkey := PropertyKey.memberName?_eq_some.2 ⟨external, named⟩
    exact on_get?_of_accessor hv (on_accessor_get id hkey found out (on_handOut hwrap))
  | answered i asks runs _ answer crosses =>
    let w₁ : World σ := (w.invoke i).2
    have hinvoke : w.invoke i = (.ok (.callable h), w₁) := Prod.ext answer rfl
    have hcrosses : (v.site w).policy.converter.outgoing (w₁.view.className (.callable h))
        (.callable h) = .ok none := crosses
    refine ⟨w₁.note (.outgoing (.callable h) (.ok none)), rfl, rfl, fun f w₂ hwrap => ?_⟩
    have hcross : (crossOut (v.site w) (Subject.function h).value).on _ = (.ok (.object f), w₂) :=
      on_crossOut hwrap
    refine on_get?_of_accessor hv ?_
    rw [on_accessor_get_of_answered (v.site w) id asks runs hinvoke, ScriptM.on_map_eq,
      on_toScript, hcrosses]
    dsimp only
    rw [show (crossOut (v.site w) (.callable h)).on _ = _ from hcross]
    rfl

/-! ## What such a read yields -/

omit [Host σ] in
theorem Wrapper.context_site {c : ContextId} :
    (v.site w).context = some c ↔ v.context = some c ∧ w.isAlive c = true := by
  rw [Wrapper.site, World.revive?, Option.filter_eq_some_iff]

omit [Host σ] in
/-- A context that is held remembers a new wrapper. -/
theorem World.get?_cache_pushWrapper {site : Site} {c : ContextId} (hc : site.context = some c)
    (halive : w.isAlive c = true) (subject : Subject) :
    ((w.pushWrapper site subject).cache c).get? subject.identity =
      some (subject.entry w.heap.next) := by
  have hpushed : (w.push (site.wrapper subject)).isAlive c = true := halive
  show ((((w.push (site.wrapper subject)).keep site.context _ _).cache c).get? _) = _
  rw [hc, cache_keep_self hpushed, Cache.get?_insert, if_pos rfl]

/-- What is remembered in a context that is still held is read, and nothing changes. -/
theorem World.ReadsAs.on_get?_of_keepsFunction (hv : w.heap.wrapper? id = some v)
    (hreads : w.ReadsAs v key h) {c : ContextId} (hc : (v.site w).context = some c)
    {f : ObjectId} (hf : w.KeepsFunction c h f) :
    ∃ w₁, (id.get? key).on w = (.ok (some (.object f)), w₁) ∧ w₁.heap = w.heap ∧
      w₁.contexts = w.contexts := by
  obtain ⟨u, hheap, hcontexts, hread⟩ := hreads.on_get? hv
  have hknown : u.wrapper? (v.site w) (.function h) = some f := by
    rw [wrapper?_eq_some hc, cache_congr hcontexts]
    exact hf
  have hwrap := on_wrap (v.site w) (.function h) u
  rw [hknown] at hwrap
  exact ⟨_, hread f _ hwrap, hheap, hcontexts⟩

/-- Where nothing is remembered a new function is made, and remembered if the context of the wrapper
is still held. -/
theorem World.ReadsAs.on_get?_of_unknown (hv : w.heap.wrapper? id = some v)
    (hreads : w.ReadsAs v key h)
    (hunknown : ∀ c, (v.site w).context = some c → ∀ f, ¬ w.KeepsFunction c h f) :
    ∃ w₁, (id.get? key).on w = (.ok (some (.object w.heap.next)), w₁) ∧
      w₁.Wraps w.heap.next (.function h) ∧
      (∀ c, (v.site w).context = some c → w₁.KeepsFunction c h w.heap.next) ∧
      ((v.site w).context = none → w₁.contexts = w.contexts) := by
  obtain ⟨u, hheap, hcontexts, hread⟩ := hreads.on_get? hv
  have hknown : u.wrapper? (v.site w) (.function h) = none := by
    rw [Option.eq_none_iff_forall_ne_some]
    intro f hf
    cases hsite : (v.site w).context with
    | none =>
      rw [wrapper?, hsite] at hf
      cases hf
    | some c =>
      rw [wrapper?_eq_some hsite, cache_congr hcontexts] at hf
      exact hunknown c hsite f hf
  have hwrap := on_wrap (v.site w) (.function h) u
  rw [hknown] at hwrap
  rw [← hheap]
  refine ⟨_, hread _ _ hwrap, ?_, fun c hc => ?_, fun hc => ?_⟩
  · rw [Wraps, heap_pushWrapper]
    exact ⟨_, Heap.wrapper?_push_next _, rfl⟩
  · have halive := (Wrapper.context_site.1 hc).2
    rw [← isAlive_congr hcontexts] at halive
    exact get?_cache_pushWrapper hc halive (.function h)
  · rw [pushWrapper, hc]
    exact hcontexts

/-! ## As long as a context is held -/

/-- As long as the context is held and nothing of another kind is put in the place of the function
directly, all reads of wrappers that were made in the context and come to callables that are written
like this one yield the same function and change nothing. -/
def World.Settles (w : World σ) (c : ContextId) (h : HostCallable) (f : ObjectId) : Prop :=
  ∀ w', Relation.ReflTransGen (World.LeadsBy fun _ m => ¬ m.Replaces c (.function h)) w w' →
    w'.isAlive c = true → ∀ id v key h', w'.heap.wrapper? id = some v → v.context = some c →
      w'.ReadsAs v key h' → h'.render = h.render →
      ∃ w₁, (id.get? key).on w' = (.ok (some (.object f)), w₁) ∧ w₁.heap = w'.heap ∧
        w₁.contexts = w'.contexts

theorem World.Sound.settles (hs : w.Sound) {c : ContextId} {f : ObjectId} (hf : w.KeepsFunction c h f) :
    w.Settles c h f := by
  intro w' hleads halive id v key h' hv hc hreads hrender
  have hsecures : w'.Secures c (.function h) f :=
    hs.run (P := fun u => u.Secures c (.function h) f) (Secures.of_get? hf)
      (fun u m hs hu hm hmay => hu.after hs hm hmay) hleads
  have hf' : w'.KeepsFunction c h' f := by
    rw [KeepsFunction, Identity.ofCallable, hrender]
    exact hsecures.remembers halive
  exact hreads.on_get?_of_keepsFunction hv (Wrapper.context_site.2 ⟨hc, halive⟩) hf'

/-- What a read that comes to a callable yields: a function. As long as the context of the wrapper is
held it is the one that the context remembers from then on, and remembered before if it remembered
one; afterwards, and without a context, it is a new one, and all contexts stay as they are. -/
structure World.GivesFunction (w : World σ) (v : Wrapper) (h : HostCallable) (f : ObjectId)
    (w₁ : World σ) : Prop where
  function : ∃ d, w₁.Wraps f (.function d)
  held : ∀ c, v.context = some c → w.isAlive c = true → w₁.KeepsFunction c h f ∧ w₁.Settles c h f
  known : ∀ c, v.context = some c → w.isAlive c = true → ∀ g, w.KeepsFunction c h g →
    f = g ∧ w₁.contexts = w.contexts
  free : (∀ c, v.context = some c → w.isAlive c = false) →
    ¬ w.heap.Holds f ∧ w₁.Wraps f (.function h) ∧ w₁.contexts = w.contexts

theorem World.Reachable.read_callable (hw : w.Reachable) (hv : w.heap.wrapper? id = some v)
    (hreads : w.ReadsAs v key h) :
    ∃ f w₁, (id.get? key).on w = (.ok (some (.object f)), w₁) ∧ w.GivesFunction v h f w₁ := by
  by_cases hknown : ∃ c, (v.site w).context = some c ∧ ∃ f, w.KeepsFunction c h f
  · obtain ⟨c, hc, f, hf⟩ := hknown
    obtain ⟨w₁, hread, hheap, hcontexts⟩ := hreads.on_get?_of_keepsFunction hv hc hf
    have hheld := Wrapper.context_site.1 hc
    have hf₁ : w₁.KeepsFunction c h f := by
      rw [KeepsFunction, cache_congr hcontexts]
      exact hf
    refine ⟨f, w₁, hread, ?_, fun c' hc' _ => ?_, fun c' hc' _ g hg => ?_, fun hdead => ?_⟩
    · obtain ⟨u, hu, hkind⟩ := hw.typed c _ _ hf
      obtain ⟨d, hd⟩ := Subject.exists_function hkind
      exact ⟨d, u, hheap ▸ hu, hd⟩
    · obtain rfl := Option.some.inj (hc'.symm.trans hheld.1)
      exact ⟨hf₁, (hw.sound_of_get hv hread).settles hf₁⟩
    · obtain rfl := Option.some.inj (hc'.symm.trans hheld.1)
      exact ⟨Subject.entry_inj (a := .function h) (Option.some.inj (hf.symm.trans hg)), hcontexts⟩
    · rw [hdead c hheld.1] at hheld
      cases hheld.2
  · obtain ⟨w₁, hread, hwraps, hremembered, hnone⟩ :=
      hreads.on_get?_of_unknown hv fun c hc f hf => hknown ⟨c, hc, f, hf⟩
    refine ⟨_, w₁, hread, ⟨h, hwraps⟩, fun c hc halive => ?_, fun c hc halive g hg => ?_,
      fun hdead => ⟨fun hheld => hheld.ne_next rfl, hwraps, hnone ?_⟩⟩
    · have hf₁ := hremembered c (Wrapper.context_site.2 ⟨hc, halive⟩)
      exact ⟨hf₁, (hw.sound_of_get hv hread).settles hf₁⟩
    · exact absurd ⟨c, Wrapper.context_site.2 ⟨hc, halive⟩, g, hg⟩ hknown
    · rw [Option.eq_none_iff_forall_ne_some]
      intro c hc
      obtain ⟨hcontext, halive⟩ := Wrapper.context_site.1 hc
      rw [hdead c hcontext] at halive
      cases halive

/-! ## Handles over a course -/

/-- The number of handles of a context after a move: only taking one and letting one go count. No
handle is taken of a context that nobody holds. -/
def Move.handles (c : ContextId) (count : Nat) : Move σ → Nat
  | .retain place => if c = place ∧ 0 < count then count + 1 else count
  | .release place => if c = place then count - 1 else count
  | _ => count

theorem Move.handles_after (hs : w.Sound) {m : Move σ} (hm : m.Allowed w) {c : ContextId}
    (hc : c.index < w.contexts.size) :
    c.index < (w.after m).contexts.size ∧ (w.after m).handles c = m.handles c (w.handles c) := by
  have hk : w.context? c = some w.contexts[c.index] := Array.getElem?_eq_getElem hc
  obtain ⟨k', hk', hspares⟩ := (m.isLocal hs hm).context c _ hk
  refine ⟨(Array.getElem?_eq_some_iff.1 hk').1, ?_⟩
  have hsame : m ≠ .retain c → m ≠ .release c → (w.after m).handles c = w.handles c := by
    intro hretain hrelease
    rw [World.handles, hk', World.handles, hk]
    exact hspares.handles hretain hrelease
  cases m with
  | retain place => exact World.handles_retain w place c
  | release place => exact World.handles_release w place c
  | _ =>
    refine hsame ?_ ?_
    all_goals rintro ⟨⟩

theorem World.Course.handles (hs : w.Sound) {c : ContextId} (hc : c.index < w.contexts.size)
    {moves : List (Move σ)} (h : w.Course moves w') :
    c.index < w'.contexts.size ∧
      w'.handles c = moves.foldl (fun count m => m.handles c count) (w.handles c) := by
  induction h with
  | none => exact ⟨hc, rfl⟩
  | next prior allowed ih =>
    rw [List.foldl_append, ← ih.2]
    exact Move.handles_after (prior.reaches.changes hs).2 allowed ih.1

omit [Host σ] in
theorem Move.foldl_handles_zero (c : ContextId) (moves : List (Move σ)) :
    moves.foldl (fun count m => m.handles c count) 0 = 0 := by
  induction moves with
  | nil => rfl
  | cons m moves ih =>
    have hzero : m.handles c 0 = 0 := by
      cases m <;> simp [handles]
    rw [List.foldl_cons, hzero, ih]

omit [Host σ] in
theorem World.revive?_eq_some {c : ContextId} : w.revive? (some c) = some c ↔ w.isAlive c = true := by
  rw [revive?, Option.filter_eq_some_iff, and_iff_right rfl]

omit [Host σ] in
theorem World.revive?_eq_none {c : ContextId} : w.revive? (some c) = none ↔ w.isAlive c = false := by
  rw [revive?, Option.filter_some]
  cases w.isAlive c <;> simp

/-! ## The whole life -/

/-- **Methods and the life of contexts.** In a reachable world take any wrapper, and any key whose
read comes to a callable. The read succeeds and yields a function. As long as the context of the
wrapper is held, it is the one that the context remembers for all callables that are written alike:
the one that was remembered before, if there was one, and the one that all such reads of wrappers of
the context yield from then on, unless something of another kind is put in its place directly. If the
wrapper has no context, or nobody holds it any more, the function is a new one over the callable, and
no context changes.

Over any moves a context can be revived exactly if handles are left, where only taking and letting go
handles counts, and never again once there are none. The handles of a session are the registers that
hold the context and its places on the stack. -/
theorem World.Reachable.lifetime (hw : w.Reachable) :
    (∀ id v key h, w.heap.wrapper? id = some v → w.ReadsAs v key h →
      ∃ f w₁, (id.get? key).on w = (.ok (some (.object f)), w₁) ∧ w.GivesFunction v h f w₁) ∧
    (∀ c, c.index < w.contexts.size → ∀ (moves : List (Move σ)) w', w.Course moves w' →
      (w'.revive? (some c) = some c ↔
        0 < moves.foldl (fun count m => m.handles c count) (w.handles c)) ∧
      (w.isAlive c = false → w'.revive? (some c) = none)) ∧
    ∀ s, Session.initial.Leads s → ∀ c,
      (s.world.revive? (some c) = some c ↔
        (∃ name, Registers.Holds s.contexts c name) ∨ c ∈ s.stack) ∧
      (c.index < s.world.contexts.size → s.world.isAlive c = false →
        ∀ s', s.Leads s' → s'.world.revive? (some c) = none) := by
  refine ⟨fun id v key h hv hreads => hw.read_callable hv hreads,
    fun c hc moves w' hcourse => ?_, fun s hs c => ?_⟩
  · obtain ⟨hopened, hcount⟩ := hcourse.handles hw.sound hc
    rw [World.revive?_eq_some, World.isAlive_iff, hcount]
    refine ⟨.rfl, fun hdead => ?_⟩
    rw [← Bool.not_eq_true, World.isAlive_iff, Nat.not_lt, Nat.le_zero] at hdead
    rw [World.revive?_eq_none, ← Bool.not_eq_true, World.isAlive_iff, hcount, hdead,
      Move.foldl_handles_zero]
    exact Nat.lt_irrefl 0
  · rw [World.revive?_eq_some]
    refine ⟨hs.accounts.isAlive_iff c, fun hc hdead s' hlater => ?_⟩
    have hgone := hlater.gone (World.isGone_iff.2 ⟨hc, hdead⟩)
    exact World.revive?_eq_none.2 (World.isGone_iff.1 hgone).2

namespace Catalog

/-- The wrapper of the object that was made in the first of the two contexts. -/
def sharedPoint : Wrapper := ⟨.object ⟨7, "Point"⟩, ⟨{}, .standard, .standard⟩, some ⟨0⟩, none⟩

/-- The method was read through this wrapper. -/
def sharedOnce : World Catalog := shared.after (.get ⟨0⟩ (.name "echo"))

/-- Then a text was remembered under the key of the method. -/
def sharedReplaced : World Catalog :=
  sharedOnce.after (.memoize (some ⟨0⟩) (.callable "fn Point::echo") ⟨.text, "x"⟩)

/-- The second read yields the same function, and once the context is let go it does not come
back. -/
theorem lifetime_shared :
    (∃ f w₂, (ObjectId.get? ⟨0⟩ (.name "echo")).on shared = (.ok (some (.object f)), sharedOnce) ∧
      (ObjectId.get? ⟨0⟩ (.name "echo")).on sharedOnce = (.ok (some (.object f)), w₂) ∧
      w₂.contexts = sharedOnce.contexts) ∧
    (shared.after (.release ⟨0⟩)).revive? (some ⟨0⟩) = none := by
  obtain ⟨hreads, hhandles, -⟩ := shared_reachable.lifetime
  have hfirst : shared.ReadsAs sharedPoint (.name "echo") (.unbound (echo.method 8)) :=
    .handedOut "echo" echo rfl (by decide) rfl nofun
  have hsecond : sharedOnce.ReadsAs sharedPoint (.name "echo") (.unbound (echo.method 9)) :=
    .handedOut "echo" echo rfl (by decide) rfl nofun
  refine ⟨?_, ?_⟩
  · obtain ⟨f, w₁, hread, hgives⟩ := hreads ⟨0⟩ sharedPoint (.name "echo") _ rfl hfirst
    obtain rfl : sharedOnce = w₁ := congrArg Prod.snd hread
    obtain ⟨w₂, hagain, -, hsame⟩ := (hgives.held ⟨0⟩ rfl (by decide)).2 sharedOnce .refl
      (by decide) ⟨0⟩ sharedPoint (.name "echo") _ rfl rfl hsecond rfl
    exact ⟨f, w₂, hread, hagain, hsame⟩
  · have hlet := (hhandles ⟨0⟩ (by decide) [.release ⟨0⟩] _ (.next .none trivial)).1
    rw [World.revive?_eq_none, ← Bool.not_eq_true, ← World.revive?_eq_some]
    exact fun hheld => absurd (hlet.1 hheld) (by decide)

/-- The context is held all the time and the method is read twice, but a text was put in the place of
the function in between: the second read yields another function. -/
theorem lifetime_replaced :
    shared.Reachable ∧ shared.Reaches sharedReplaced ∧
    shared.heap.wrapper? ⟨0⟩ = some sharedPoint ∧
    shared.isAlive ⟨0⟩ = true ∧ sharedReplaced.isAlive ⟨0⟩ = true ∧
    shared.ReadsAs sharedPoint (.name "echo") (.unbound (echo.method 8)) ∧
    sharedReplaced.ReadsAs sharedPoint (.name "echo") (.unbound (echo.method 9)) ∧
    ((ObjectId.get? ⟨0⟩ (.name "echo")).on shared).1 = .ok (some (.object ⟨2⟩)) ∧
    ((ObjectId.get? ⟨0⟩ (.name "echo")).on sharedReplaced).1 = .ok (some (.object ⟨3⟩)) := by
  have hread : shared.Leads (fun _ => True) sharedOnce :=
    World.leads_after (Heap.holds_of_wrapper? (h := shared.heap) rfl) trivial
  have hreplaced : sharedOnce.Leads (fun _ => True) sharedReplaced :=
    World.leads_after ⟨World.serves_some rfl, trivial⟩ trivial
  exact ⟨shared_reachable, .tail (.single hread) hreplaced, rfl, by decide, by decide,
    .handedOut "echo" echo rfl (by decide) rfl nofun,
    .handedOut "echo" echo rfl (by decide) rfl nofun, rfl, rfl⟩

end Catalog

end Membrane
