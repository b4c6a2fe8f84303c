import Membrane.Proofs.Internal
import Membrane.Proofs.Isolation
import Membrane.Proofs.Keys
import Membrane.Proofs.Unaware

/-!
# Own properties of wrappers

A key that neither the host value nor the kind of the wrapper has anything under is free
(`PropertyKey.IsFree`). Under a free key, script code can give a wrapper a property of its own. It
keeps its value until it is written again, whatever else is done, and as long as the context of the
wrapper is held, wrapping the host value finds the property again. Other properties do not notice.
-/

namespace Membrane

variable {σ : Type}

/-! ## Free keys -/

section Free

variable [Host σ] {s : σ} {subject : Subject} {key : PropertyKey}

/-- Nothing is there under a key but what the wrapper has of its own: the key is internal, or the
host value has neither a member nor a writer of the name and no index access; and it is not one that
every wrapper of the kind answers. -/
structure PropertyKey.IsFree (s : σ) (subject : Subject) (key : PropertyKey) : Prop where
  host : key.isInternal = true ∨
    (∀ name, key = .name name → subject.value.member? s name = none ∧
      subject.value.member? s (writerName name) = none) ∧
    (∀ m, subject.value.member? s "[]" = some m → m.arity ≠ .exactly 1) ∧
    ∀ m, subject.value.member? s "[]=" = some m → m.arity ≠ .exactly 2
  kind : subject.kind ≠ .object → key ≠ .name "length" ∧ key ≠ .name "name"

namespace PropertyKey.IsFree

theorem isSilent (h : key.IsFree s subject) : subject.value.IsSilent s key := by
  cases hinternal : key.isInternal with
  | true => exact HostValue.isSilent_of_internal hinternal s subject.value
  | false =>
    obtain ⟨hnamed, hreader, -⟩ := h.host.resolve_left (by rw [hinternal]; exact Bool.false_ne_true)
    constructor
    · rw [HostValue.reader?, memberName?, hinternal, if_neg Bool.false_ne_true]
      cases key with
      | name text => exact (hnamed text rfl).1
      | index position => rfl
    · exact (HostValue.writer?_eq_none hinternal).2 fun name hname => (hnamed name hname).2
    · rw [HostValue.indexReader?, hinternal, if_neg Bool.false_ne_true, HostValue.memberOf?,
        Option.filter_eq_none_iff]
      exact fun m hm => by simpa using hreader m hm

/-- A write goes to the wrapper. -/
theorem destination (h : key.IsFree s subject) : subject.value.destination s key = .own := by
  have hwrites : subject.value.WritesTo s key .own :=
    .own (h.host.imp_right fun hhost => ⟨fun name hname => (hhost.1 name hname).2, hhost.2.2⟩)
  exact hwrites.eq_destination.symm

end PropertyKey.IsFree

end Free

/-! ## What becomes of an own property -/

/-- The move writes a property. -/
def Move.Writes (id : ObjectId) (key : PropertyKey) : Move σ → Prop
  | .put x k _ => x = id ∧ k = key
  | _ => False

section Runs

variable [Host σ] {w w' : World σ} {id : ObjectId} {v : Wrapper} {key : PropertyKey}

/-- Moves lead from a world to another, and none of them is of a sort that is left out. -/
abbrev World.ReachesWithout (sort : Move σ → Prop) : World σ → World σ → Prop :=
  Relation.ReflTransGen (World.Leads fun m => ¬ sort m)

/-- Where a wrapper has a free key as an own property, it is read from there, and nothing is run for
it. -/
theorem on_get?_of_isFree (hv : w.heap.wrapper? id = some v)
    (haccess : v.policy.accessor.AsksMembers) (hfree : key.IsFree w.host.state v.subject)
    {value : ScriptValue} (hown : (w.heap.store id).get? key = some value) :
    (id.get? key).on w = (.ok (some value), w) := by
  refine on_get?_of_own (Heap.holds_of_wrapper? hv) ?_
  have hleft := on_accessor_get_of_silent haccess hfree.isSilent (v.site w) id
  rw [on_getOwn_of_wrapper hv, on_orElseFrom_of_none hleft, Subject.intrinsic?_eq_none hfree.kind,
    Option.none_or, hown]

/-- A property of a wrapper changes only when it is written. -/
theorem Move.get?_own (hs : w.Sound) (hv : w.heap.wrapper? id = some v)
    (haccess : v.policy.accessor.AsksMembers) {m : Move σ} (hm : m.Allowed w)
    (hwrites : ¬ m.Writes id key) :
    ((w.after m).heap.store id).get? key = (w.heap.store id).get? key := by
  have hid := Heap.holds_of_wrapper? hv
  have hwrapper : ¬ w.heap.IsOrdinary id := by
    intro hordinary
    rw [hordinary.wrapper?] at hv
    cases hv
  by_cases hobject : m.object? = some id
  · cases m with
    | define x k value =>
      cases hobject
      exact absurd hm hwrapper
    | erase x k =>
      cases hobject
      exact absurd hm hwrapper
    | preventExtensions x =>
      cases hobject
      exact absurd hm hwrapper
    | put x k value =>
      cases hobject
      show (((id.put k value).on w).2.heap.store id).get? key = _
      rw [on_put hv haccess]
      cases v.subject.value.destination w.host.state k with
      | member m leading =>
        have hsame := (w.writesMember_writeMember v.policy v.subject.value m leading value).objects
        rw [Heap.store, hsame id hid, ← Heap.store]
      | own =>
        have hother : key ≠ k := fun hk => hwrites ⟨rfl, hk.symm⟩
        have hwritten := World.writesOwn_putOwn hid (hs.extensible id v hv) k value
        exact (hwritten.own key).trans (if_neg hother)
    | setPrototype x link =>
      cases hobject
      show (((discard (id.setPrototype link)).on w).2.heap.store id).get? key = _
      have hlink : ∀ link, ((w.heap.setStore id
          { w.heap.store id with prototype := link }).store id).get? key =
            (w.heap.store id).get? key := by
        intro link
        rw [Heap.store_setStore_self hid]
        rfl
      rw [ScriptM.on_discard, on_setPrototype]
      cases link with
      | none => exact hlink none
      | some x =>
        dsimp only
        split
        · rfl
        · split
          · rfl
          · exact hlink (some x)
    | _ => cases hobject
  · rw [(m.isLocal hs hm).store id hid hobject]

/-- So it does over a whole run. -/
theorem World.ReachesWithout.get?_own (hs : w.Sound) (hv : w.heap.wrapper? id = some v)
    (haccess : v.policy.accessor.AsksMembers) {sort : Move σ → Prop}
    (hsort : ∀ m : Move σ, m.Writes id key → sort m) (h : w.ReachesWithout sort w') :
    w'.heap.wrapper? id = some v ∧ (w'.heap.store id).get? key = (w.heap.store id).get? key := by
  refine hs.run (P := fun u => u.heap.wrapper? id = some v ∧
    (u.heap.store id).get? key = (w.heap.store id).get? key) ⟨hv, rfl⟩ ?_ h
  rintro u m hu ⟨hvu, hsame⟩ hm hleft
  have hkind := (Move.isLocal hu hm).kind id (Heap.holds_of_wrapper? hvu)
  refine ⟨?_, ?_⟩
  · rw [Heap.wrapper?_eq_some] at hvu ⊢
    rw [hkind, hvu]
  · rw [Move.get?_own hu hvu haccess hm fun hwrites => hleft (hsort m hwrites), hsame]

/-- Where the property is still free after a run that does not write it, it reads as it was. -/
theorem World.ReachesWithout.on_get? (hs : w.Sound) (hv : w.heap.wrapper? id = some v)
    (haccess : v.policy.accessor.AsksMembers) {value : ScriptValue}
    (hown : (w.heap.store id).get? key = some value) {sort : Move σ → Prop}
    (hsort : ∀ m : Move σ, m.Writes id key → sort m) (h : w.ReachesWithout sort w')
    (hfree : key.IsFree w'.host.state v.subject) :
    (id.get? key).on w' = (.ok (some value), w') := by
  obtain ⟨hv', hsame⟩ := h.get?_own hs hv haccess hsort
  exact on_get?_of_isFree hv' haccess hfree (hsame.trans hown)

/-- What a context remembers of a host value, it is wrapped as after a run that does not replace it,
if the context is still held. -/
theorem World.ReachesWithout.on_wrap (hs : w.Sound) {c : ContextId} {site site' : Site}
    {subject : Subject} (hsite : site.context = some c)
    (hknown : w.wrapper? site subject = some id) {sort : Move σ → Prop}
    (hsort : ∀ m : Move σ, m.Replaces c subject → sort m) (h : w.ReachesWithout sort w')
    (halive : w'.isAlive c = true) (hsite' : site'.context = some c) :
    (wrap site' subject).on w' =
      (.ok id, w'.note (.asked site'.context subject.identity (subject.entry id) false)) := by
  have hsecures : w'.Secures c subject id := by
    refine hs.run (P := fun u => u.Secures c subject id)
      (.of_get? ((wrapper?_eq_some hsite).1 hknown)) ?_ h
    intro u m hu hsecures hm hleft
    exact hsecures.after hu hm fun hreplaces => hleft (hsort m hreplaces)
  rw [Membrane.on_wrap, (wrapper?_eq_some hsite').2 (hsecures.remembers halive)]

/-! ## Written once -/

/-- Writing a free key gives the wrapper the property. -/
theorem on_put_of_isFree (hs : w.Sound) (hv : w.heap.wrapper? id = some v)
    (haccess : v.policy.accessor.AsksMembers) (hfree : key.IsFree w.host.state v.subject)
    (value : ScriptValue) :
    (id.put key value).on w = (.ok (), w.setStore id ((w.heap.store id).define key value)) := by
  rw [on_put hv haccess, hfree.destination]
  dsimp only
  rw [on_putOwn, hs.extensible id v hv, Bool.or_true, if_pos rfl]

omit [Host σ] in
/-- Giving a wrapper a property makes a difference in this property only. -/
theorem World.sameBut_define (hs : w.Sound) (hv : w.heap.wrapper? id = some v) (key : PropertyKey)
    (value : ScriptValue) :
    w.SameBut id key (w.setStore id ((w.heap.store id).define key value)) := by
  refine ⟨_, ?_, rfl⟩
  constructor
  · exact ⟨v, hv⟩
  · exact hs.extensible id v hv
  · exact fun x => Heap.kind?_setStore _
  · exact fun x hx => Heap.store_setStore_of_ne hx _
  · rw [Heap.store_setStore_self (Heap.holds_of_wrapper? hv), Store.erase_define]

omit [Host σ] in
/-- A host value that a site wraps as an object that is there is remembered so. -/
theorem World.wrapper?_of_on_wrap {site : Site} {subject : Subject} (hid : w.heap.Holds id)
    (h : ((wrap site subject).on w).1 = .ok id) : w.wrapper? site subject = some id := by
  rw [on_wrap] at h
  cases hknown : w.wrapper? site subject with
  | some known =>
    rw [hknown] at h
    exact congrArg some (Except.ok.inj h)
  | none =>
    rw [hknown] at h
    exact absurd (Except.ok.inj h).symm hid.ne_next

/-- **A property that the host does not take lives on the wrapper.** Take a wrapper whose strategy
asks the members of its host value, and a key that is free on it. Then writing a value succeeds. As
long as the property is not written again, reading it yields this very value, whatever else is done,
provided that the key is still free. A host value whose wrapper it is in some context has this
wrapper as long as that context is held, unless somebody puts something of another kind in its place
there; so wrapping the host value again finds the property. And nothing else is read differently:
if the same moves that ask nobody for the property are made as if it had not been written, every
other read comes to the same afterwards. That last part is about host code that does not itself look
at the property through a script object. -/
theorem World.Reachable.own_property (hw : w.Reachable) (hv : w.heap.wrapper? id = some v)
    (haccess : v.policy.accessor.AsksMembers) (hfree : key.IsFree w.host.state v.subject)
    (value : ScriptValue) :
    let written := w.after (.put id key value)
    (id.put key value).on w = (.ok (), written) ∧
    (∀ w', written.ReachesWithout (Move.Writes id key) w' →
      key.IsFree w'.host.state v.subject → (id.get? key).on w' = (.ok (some value), w')) ∧
    (∀ c site subject, site.context = some c → ((wrap site subject).on w).1 = .ok id →
      ∀ w', written.ReachesWithout (fun m => m.Writes id key ∨ m.Replaces c subject) w' →
        w'.isAlive c = true → key.IsFree w'.host.state v.subject →
        ∀ site', site'.context = some c →
          ∃ w'', (wrap site' subject).on w' = (.ok id, w'') ∧
            (id.get? key).on w'' = (.ok (some value), w'')) ∧
    (Host.Discreet (Heap.SameBut id key) σ →
      ∀ w' u', Relation.ReflTransGen (World.LeadBoth id key) (w, written) (w', u') →
        ∀ x k, (id ∈ w'.heap.chain x → k ≠ key) →
          ((x.get? k).on u').1 = ((x.get? k).on w').1) := by
  intro written
  have hid := Heap.holds_of_wrapper? hv
  have hput := on_put_of_isFree hw.sound hv haccess hfree value
  have hwritten : written = w.setStore id ((w.heap.store id).define key value) :=
    congrArg Prod.snd hput
  have hs : written.Sound := (hw.after (m := .put id key value) hid).sound
  have hv' : written.heap.wrapper? id = some v := by
    rw [hwritten]
    exact (Heap.wrapper?_setStore _).trans hv
  have hown : (written.heap.store id).get? key = some value := by
    rw [hwritten]
    show Store.get? (Heap.store (Heap.setStore ..) id) key = _
    rw [Heap.store_setStore_self hid, Store.get?_define, if_pos rfl]
  refine ⟨hput.trans (by rw [hwritten]), ?_, ?_, ?_⟩
  · intro w' hrun hfree'
    exact hrun.on_get? hs hv' haccess hown (fun _ h => h) hfree'
  · intro c site subject hsite hwrap w' hrun halive hfree' site' hsite'
    have hremembered := wrapper?_of_on_wrap hid hwrap
    have hknown : written.wrapper? site subject = some id := by
      rw [hwritten]
      exact hremembered
    have hagain := hrun.on_wrap hs hsite hknown (fun _ h => .inr h) halive hsite'
    -- that the wrapper was asked for again is all that has changed
    obtain ⟨hv'', hsame⟩ := hrun.get?_own hs hv' haccess fun _ h => .inl h
    exact ⟨w'.note _, hagain,
      on_get?_of_isFree (w := w'.note _) hv'' haccess hfree' (hsame.trans hown)⟩
  · intro hd w' u' hrun x k hask
    have hsame : w.SameBut id key written := by
      rw [hwritten]
      exact World.sameBut_define hw.sound hv key value
    exact (ScriptM.Unaware.get? hd (hsame.run hd hrun) hask).1

end Runs

namespace Catalog

/-- Where a context wraps values. -/
def homeSite : Site := ⟨⟨{}, .standard, .standard⟩, some ⟨0⟩, none⟩

/-- A context with the wrapper of an object that has a member. -/
def withMember : World Catalog :=
  let opened := (World.initial ⟨8, {
      definitions := #[⟨some "x", .stateMethod (.const (.str "host"))⟩]
      objects := #[⟨⟨7, "Point"⟩, {
        className := "Point"
        methods := [⟨"Point", "x", .exactly 0, .code ⟨0⟩ none, none⟩]
        members := ["x"] }, []⟩]
    }⟩ .standard).after (.openContext homeSite.policy)
  opened.after (.wrap homeSite (.object ⟨7, "Point"⟩))

theorem stands_homeSite {w : World Catalog} (hw : w.isAlive ⟨0⟩ = true) : homeSite.Stands w :=
  World.serves_some hw

/-- The object has nothing under another name. -/
theorem isFree_label :
    (PropertyKey.name "label").IsFree withMember.host.state (.object ⟨7, "Point"⟩) where
  host := by
    refine .inr ⟨fun name hname => ?_, fun m hm => ?_, fun m hm => ?_⟩
    · cases hname
      decide
    · cases hm
    · cases hm
  kind hkind := absurd rfl hkind

/-- A property that the wrapper is given is there after the object was wrapped again, which gives
the same wrapper, and the member is read as before. -/
theorem own_property_label :
    let written := withMember.after (.put ⟨0⟩ (.name "label") (.string "own"))
    let again := written.after (.wrap homeSite (.object ⟨7, "Point"⟩))
    ((ObjectId.get? ⟨0⟩ (.name "label")).on again).1 = .ok (some (.string "own")) ∧
      ((wrap homeSite (.object ⟨7, "Point"⟩)).on again).1 = .ok ⟨0⟩ ∧
      ((ObjectId.get? ⟨0⟩ (.name "x")).on written).1 =
        ((ObjectId.get? ⟨0⟩ (.name "x")).on withMember).1 := by
  intro written again
  have hw : withMember.Reachable :=
    ((World.initial_reachable _ _).reachable.after (m := .openContext _) trivial).after
      (m := .wrap _ _) (stands_homeSite rfl)
  have hv : withMember.heap.wrapper? ⟨0⟩ =
      some ⟨.object ⟨7, "Point"⟩, homeSite.policy, some ⟨0⟩, none⟩ := rfl
  have hagain : ∀ {sort : Move Catalog → Prop}, ¬ sort (.wrap homeSite (.object ⟨7, "Point"⟩)) →
      written.ReachesWithout sort again := fun hsort =>
    .single (World.leads_after (m := .wrap ..) (stands_homeSite rfl) hsort)
  obtain ⟨-, hread, hwrapped, hother⟩ :=
    hw.own_property hv (.inl rfl) isFree_label (.string "own")
  refine ⟨congrArg Prod.fst (hread again (hagain id) isFree_label), ?_, ?_⟩
  · obtain ⟨_, hsame, -⟩ := hwrapped ⟨0⟩ homeSite (.object ⟨7, "Point"⟩) rfl rfl again
      (hagain fun h => h.elim id id) rfl isFree_label homeSite rfl
    exact congrArg Prod.fst hsame
  · exact hother (discreet.mono Heap.SameBut.kinds) _ _ .refl _ _ fun _ => by decide

end Catalog

/-! ## Where the conditions are needed -/

/-- An embedding program that holds a script object. Each of its objects has one member, which tells
whether the script object has a property of the name `label`. -/
structure Onlooker where
  watched : ObjectId

namespace Onlooker

/-- The member. -/
def look : Member := ⟨"Onlooker", "look", .exactly 0, .code ⟨0⟩ none, none⟩

instance : Naming Onlooker where
  className _ o := o.type

instance : Reflective Onlooker where
  members _ _ := [look.name]
  member? _ _ name := if name = look.name then some look else none
  hasField _ _ _ := false
  equal _ a b := a == b
  statics _ _ := []
  static? _ _ _ := none
  isInstance _ _ _ := false

instance : Host Onlooker where
  run _ _ _ := do
    let held := (← get).state.watched
    return .bool (((← read).store held).contains (.name "label"))

/-- A context with the wrapper of an object; the wrapper is the script object that is held. -/
def watching : World Onlooker :=
  ((World.initial ⟨8, ⟨⟨0⟩⟩⟩ .standard).after (.openContext Catalog.homeSite.policy)).after
    (.wrap Catalog.homeSite (.object ⟨7, "Point"⟩))

theorem isFree_label : (PropertyKey.name "label").IsFree watching.host.state
    (.object ⟨7, "Point"⟩) where
  host := by
    refine .inr ⟨fun name hname => ?_, fun m hm => ?_, fun m hm => ?_⟩
    · cases hname
      decide
    · cases hm
    · cases hm
  kind hkind := absurd rfl hkind

end Onlooker

namespace Catalog

/-- A context with the wrapper of a function, which was given a property; then a text was put in the
place of the wrapper in the memory of the context. -/
def withReplaced : World Catalog :=
  let function : HostCallable := .free ⟨7, some "twin", .exactly 0, ⟨0⟩⟩
  let opened := (World.initial ⟨8, {}⟩ .standard).after (.openContext homeSite.policy)
  ((opened.after (.wrap homeSite (.function function))).after
    (.put ⟨0⟩ (.name "note") (.string "own"))).after
      (.memoize (some ⟨0⟩) (.callable "fn twin") ⟨.text, "x"⟩)

/-- Where something else was put in the place of a wrapper, wrapping the host value again gives
another wrapper, which does not have the property. And where host code looks at the property through
a script object that it holds, the read of another key notices the write. -/
theorem own_property_noticed :
    (withReplaced.Reachable ∧ withReplaced.isAlive ⟨0⟩ = true ∧
      ((ObjectId.get? ⟨0⟩ (.name "note")).on withReplaced).1 = .ok (some (.string "own")) ∧
      let again := (wrap homeSite (.function (.free ⟨7, some "twin", .exactly 0, ⟨0⟩⟩))).on
        withReplaced
      again.1 = .ok ⟨1⟩ ∧ ((ObjectId.get? ⟨1⟩ (.name "note")).on again.2).1 = .ok none) ∧
    Onlooker.watching.Reachable ∧
    (PropertyKey.name "label").IsFree Onlooker.watching.host.state (.object ⟨7, "Point"⟩) ∧
    let written := Onlooker.watching.after (.put ⟨0⟩ (.name "label") (.string "own"))
    ((ObjectId.get? ⟨0⟩ (.name "look")).on Onlooker.watching).1 = .ok (some (.boolean false)) ∧
      ((ObjectId.get? ⟨0⟩ (.name "look")).on written).1 = .ok (some (.boolean true)) := by
  have hreplaced : withReplaced.Reachable := by
    refine ((((World.initial_reachable _ _).reachable.after (m := .openContext _) trivial).after
      (m := .wrap _ _) ?wrap).after (m := .put _ _ _) ?put).after (m := .memoize _ _ ⟨.text, "x"⟩)
      ?replace
    case wrap => exact stands_homeSite rfl
    case put => exact Heap.holds_of_wrapper? (h := World.heap _) rfl
    case replace => exact ⟨World.serves_some rfl, trivial⟩
  have hwatching : Onlooker.watching.Reachable := by
    refine ((World.initial_reachable _ _).reachable.after (m := .openContext _) trivial).after
      (m := .wrap _ _) ?wrap
    exact World.serves_some rfl
  exact ⟨⟨hreplaced, rfl, rfl, rfl, rfl⟩, hwatching, Onlooker.isFree_label, rfl, rfl⟩

end Catalog

end Membrane
