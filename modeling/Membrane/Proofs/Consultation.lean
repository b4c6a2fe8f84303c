import Membrane.Proofs.Asking
import Mathlib.Data.List.Forall2

/-!
# Which host code a look-up runs

Reading and searching ask the objects along the prototypes in turn. What a whole look-up comes to is
a course of questions (`Consults`), which goes on only past objects that leave the question open,
each asked with what the one before has left of the host's side. There is one such course, and the
operations follow it, by induction along the objects.
-/

namespace Membrane

variable {σ α : Type}

/-! ## Along the prototypes -/

section Along

variable [Host σ] {w w' : World σ} {l : Lookup} {key : PropertyKey} {ids : List ObjectId}
  {ran : List HostRun} {side : HostSide σ} {settled : Bool}

/-- What a look-up along some objects comes to. The first object that settles it ends it; past one
that does not, it goes on in a world with the same objects and what is left of the host's side. -/
inductive World.Consults (l : Lookup) (key : PropertyKey) :
    World σ → List ObjectId → List HostRun → HostSide σ → Bool → Prop where
  | exhausted (w : World σ) : Consults l key w [] [] w.host false
  | settled {w : World σ} {id : ObjectId} {rest : List ObjectId} {ran : List HostRun}
      {side : HostSide σ} (asks : w.Asks l key id ran side true) :
      Consults l key w (id :: rest) ran side true
  | passed {w : World σ} {id : ObjectId} {rest : List ObjectId} {ran ran' : List HostRun}
      {side side' : HostSide σ} {settled : Bool} (asks : w.Asks l key id ran side false)
      (u : World σ) (heap : u.heap = w.heap) (host : u.host = side)
      (later : Consults l key u rest ran' side' settled) :
      Consults l key w (id :: rest) (ran ++ ran') side' settled

/-- Questions that are asked one after the other make up a look-up. -/
theorem World.consults_firstAlong {ask : ObjectId → ScriptM σ (Option α)}
    (hask : ∀ id ∈ ids, ∀ u : World σ, u.heap = w.heap → u.Asked l key id ((ask id).on u)) :
    ∃ ran side settled, w.Consults l key ids ran side settled ∧
      w.Shows ran side settled ((firstAlong ask ids).on w) := by
  induction ids generalizing w with
  | nil =>
    refine ⟨[], w.host, false, .exhausted w, ?_⟩
    exact ⟨(List.append_nil _).symm, rfl, fun _ => ⟨rfl, rfl, rfl⟩, nofun⟩
  | cons id rest ih =>
    obtain ⟨ran, side, settled, htries, hshows⟩ := hask id List.mem_cons_self w rfl
    cases settled with
    | true =>
      refine ⟨ran, side, true, .settled htries, ?_⟩
      rw [on_firstAlong_of_ne (hshows.settled rfl)]
      exact hshows
    | false =>
      obtain ⟨hnone, hheap, hhost⟩ := hshows.unsettled rfl
      -- the objects behind are asked in the world that this question leaves
      obtain ⟨ran', side', settled, hconsults, hlater⟩ :=
        ih (w := ((ask id).on w).2) fun x hx u hu =>
          hask x (List.mem_cons_of_mem _ hx) u (hu.trans hheap)
      refine ⟨ran ++ ran', side', settled, .passed htries _ hheap hhost hconsults, ?_⟩
      rw [on_firstAlong_of_none (Prod.ext hnone rfl)]
      constructor
      · rw [hlater.runs, hshows.runs, List.append_assoc]
      · exact hlater.state
      · intro hsettled
        obtain ⟨hnone', hheap', hhost'⟩ := hlater.unsettled hsettled
        exact ⟨hnone', hheap'.trans hheap, hhost'⟩
      · exact hlater.settled

/-- A question runs host code at most once. -/
theorem World.Tries.once {may : Invocation → Prop} {answered : Prop}
    (h : w.Tries may answered ran side settled) :
    ran = [] ∨ ∃ r : HostRun, ran = [r] ∧ may r.1 ∧ (settled = false → r.2 = .ok .nil) := by
  cases h with
  | quiet settled idle settles => exact .inl rfl
  | runs settled i permitted settles =>
    refine .inr ⟨_, rfl, permitted, fun hunsettled => ?_⟩
    by_contra hne
    rw [settles.2 (.inr hne)] at hunsettled
    cases hunsettled

/-- What a question comes to is up to the objects and the host's side. -/
theorem World.Tries.congr {may : Invocation → Prop} {answered : Prop}
    (h : w.Tries may answered ran side settled) (hheap : w'.heap = w.heap)
    (hhost : w'.host = w.host) : w'.Tries may answered ran side settled := by
  cases h with
  | quiet settled idle settles =>
    rw [← hhost]
    exact .quiet settled idle settles
  | runs settled i permitted settles =>
    have hrun : w.directly i.run = w'.directly i.run := by
      rw [directly, directly, hheap, hhost]
    rw [hrun] at settles ⊢
    exact .runs settled i permitted settles

theorem World.Tries.unique {may : Invocation → Prop} {answered : Prop}
    (hmay : ∀ i j, may i → may j → i = j) (h : w.Tries may answered ran side settled)
    {ran' : List HostRun} {side' : HostSide σ} {settled' : Bool}
    (h' : w.Tries may answered ran' side' settled') :
    ran' = ran ∧ side' = side ∧ settled' = settled := by
  cases h with
  | quiet settled idle settles =>
    cases h' with
    | quiet settled' idle' settles' =>
      exact ⟨rfl, rfl, Bool.eq_iff_iff.2 (settles'.trans settles.symm)⟩
    | runs settled' i permitted => exact absurd permitted (idle i)
  | runs settled i permitted settles =>
    cases h' with
    | quiet settled' idle => exact absurd permitted (idle i)
    | runs settled' j permitted' settles' =>
      obtain rfl := hmay i j permitted permitted'
      exact ⟨rfl, rfl, Bool.eq_iff_iff.2 (settles'.trans settles.symm)⟩

theorem World.Asks.unique {id : ObjectId} (h : w.Asks l key id ran side settled)
    (hheap : w'.heap = w.heap) (hhost : w'.host = w.host) {ran' : List HostRun}
    {side' : HostSide σ} {settled' : Bool} (h' : w'.Asks l key id ran' side' settled') :
    ran' = ran ∧ side' = side ∧ settled' = settled := by
  unfold Asks at h h'
  rw [hheap, hhost] at h'
  refine World.Tries.unique ?_ h (h'.congr hheap.symm hhost.symm)
  rintro i j ⟨v, hv, hi⟩ ⟨v', hv', hj⟩
  cases hv.symm.trans hv'
  exact Lookup.runs_unique hi hj

/-- A look-up has one course only. -/
theorem World.Consults.unique (h : w.Consults l key ids ran side settled)
    (hheap : w'.heap = w.heap) (hhost : w'.host = w.host) {ran' : List HostRun}
    {side' : HostSide σ} {settled' : Bool} (h' : w'.Consults l key ids ran' side' settled') :
    ran' = ran ∧ side' = side ∧ settled' = settled := by
  induction h generalizing w' ran' with
  | exhausted w =>
    cases h' with
    | exhausted => exact ⟨rfl, hhost, rfl⟩
  | settled asks =>
    cases h' with
    | settled asks' => exact asks.unique hheap hhost asks'
    | passed asks' => cases (asks.unique hheap hhost asks').2.2
  | passed asks u hu host later ih =>
    cases h' with
    | settled asks' => cases (asks.unique hheap hhost asks').2.2
    | passed asks' u' hu' host' later' =>
      -- both go on with the same objects and the same host's side
      obtain ⟨rfl, rfl, -⟩ := asks.unique hheap hhost asks'
      obtain ⟨rfl, hrest⟩ :=
        ih (hu'.trans (hheap.trans hu.symm)) (host'.trans host.symm) later'
      exact ⟨rfl, hrest⟩

/-- Host code is run on the wrappers among the objects in their order, at most once on each. -/
theorem World.Consults.order (h : w.Consults l key ids ran side settled) {heap : Heap}
    (hheap : w.heap = heap) :
    List.SublistForall₂
      (fun r id => ∃ (s : σ) (v : Wrapper), heap.wrapper? id = some v ∧ l.Runs s v key r.1)
      ran ids := by
  induction h with
  | exhausted w => exact .nil
  | settled asks =>
    rcases asks.once with rfl | ⟨r, rfl, ⟨v, hv, hruns⟩, -⟩
    · exact .nil
    · exact .cons ⟨_, v, hheap ▸ hv, hruns⟩ .nil
  | passed asks u hu host later ih =>
    have hlater := ih (hu.trans hheap)
    rcases asks.once with rfl | ⟨r, rfl, ⟨v, hv, hruns⟩, -⟩
    · exact .cons_right hlater
    · exact .cons ⟨_, v, hheap ▸ hv, hruns⟩ hlater

/-- Nothing is run after host code that has failed or yielded anything but `nil`. -/
theorem World.Consults.early (h : w.Consults l key ids ran side settled) :
    ∀ r ∈ ran.dropLast, r.2 = .ok .nil := by
  induction h with
  | exhausted w => exact fun r hr => absurd hr List.not_mem_nil
  | settled asks =>
    rcases asks.once with rfl | ⟨r, rfl, -⟩
    · exact fun r hr => absurd hr List.not_mem_nil
    · exact fun r hr => absurd hr List.not_mem_nil
  | @passed w id rest ran ran' side side' settled asks u heap host later ih =>
    rcases asks.once with rfl | ⟨r, rfl, -, hnil⟩
    · exact ih
    · intro r' hr'
      cases ran' with
      | nil => cases hr'
      | cons next more =>
        rcases List.mem_cons.1 hr' with rfl | hr'
        · exact hnil rfl
        · exact ih r' hr'

/-- What a look-up did that led from a world to another: the one course of questions that there is,
with these runs of host code. -/
structure World.LookedUp (w : World σ) (l : Lookup) (key : PropertyKey) (ids : List ObjectId)
    (ran : List HostRun) (missed : Prop) (w' : World σ) : Prop where
  course : ∃ side settled, w.Consults l key ids ran side settled ∧
    w'.host.state = side.state ∧ (missed ↔ settled = false)
  only : ∀ ran' side settled, w.Consults l key ids ran' side settled → ran' = ran
  runs : w'.runs = w.runs ++ ran
  order : List.SublistForall₂
    (fun r id => ∃ (s : σ) (v : Wrapper), w.heap.wrapper? id = some v ∧ l.Runs s v key r.1)
    ran ids
  early : ∀ r ∈ ran.dropLast, r.2 = .ok .nil

theorem World.lookedUp_of_shows {result : Except ScriptError (Option α) × World σ}
    (hconsults : w.Consults l key ids ran side settled) (hshows : w.Shows ran side settled result)
    {missed : Prop} (hmissed : missed ↔ result.1 = .ok none) :
    w.LookedUp l key ids ran missed result.2 where
  course := by
    refine ⟨side, settled, hconsults, hshows.state, hmissed.trans ?_⟩
    cases settled with
    | true => exact ⟨fun h => absurd h (hshows.settled rfl), nofun⟩
    | false => exact ⟨fun _ => rfl, fun _ => (hshows.unsettled rfl).1⟩
  only _ _ _ h := (hconsults.unique rfl rfl h).1
  runs := hshows.runs
  order := hconsults.order rfl
  early := hconsults.early

/-- A search along objects that ask the members of their host values is settled by nothing but
finding the key. -/
theorem World.on_search_ne_false
    (haccess : ∀ id ∈ ids, w.heap.Holds id ∧ w.heap.AsksMembers id) (key : PropertyKey) :
    ((firstAlong (·.hasOwn key) ids).on w).1 ≠ .ok (some false) := by
  have hagree : Agree ((firstAlong (·.getOwn key) ids).on w)
      ((firstAlong (·.hasOwn key) ids).on w) := by
    refine firstAlong_agree fun id hid u hu => getOwn_agree key fun v hv => ?_
    obtain ⟨hheld, hasks⟩ := haccess id hid
    rw [hu.wrapper? hheld] at hv
    rcases hasks v hv with h | h
    · rw [h]
      exact nofun
    · rw [h]
      exact nofun
  generalize (firstAlong (·.getOwn key) ids).on w = read at hagree
  generalize (firstAlong (·.hasOwn key) ids).on w = found at hagree
  cases hagree with
  | absent => exact nofun
  | present found => exact nofun
  | failed v e => exact nofun

/-- What a read along the prototypes did. -/
theorem World.lookedUp_get (id : ObjectId) (key : PropertyKey)
    (haccess : ∀ x ∈ w.heap.chain id, w.heap.AsksMembers x) :
    ∃ ran, w.LookedUp .read key (w.heap.chain id) ran (((id.get? key).on w).1 = .ok none)
      ((id.get? key).on w).2 := by
  have hask : ∀ x ∈ w.heap.chain id, ∀ u : World σ, u.heap = w.heap →
      u.Asked .read key x ((x.getOwn key).on u) := by
    intro x hx u hu
    exact asked_getOwn (hu ▸ haccess x hx) key
  obtain ⟨ran, side, settled, hconsults, hshows⟩ := consults_firstAlong hask
  exact ⟨ran, lookedUp_of_shows hconsults hshows .rfl⟩

/-- What a search along the prototypes did. -/
theorem World.Sound.lookedUp_has (hs : w.Sound) {id : ObjectId} (hid : w.heap.Holds id)
    (key : PropertyKey) (haccess : ∀ x ∈ w.heap.chain id, w.heap.AsksMembers x) :
    ∃ ran, w.LookedUp .search key (w.heap.chain id) ran (((id.has key).on w).1 = .ok false)
      ((id.has key).on w).2 := by
  have hask : ∀ x ∈ w.heap.chain id, ∀ u : World σ, u.heap = w.heap →
      u.Asked .search key x ((x.hasOwn key).on u) := by
    intro x hx u hu
    exact asked_hasOwn (hu ▸ haccess x hx) key
  obtain ⟨ran, side, settled, hconsults, hshows⟩ := consults_firstAlong hask
  have hfound := on_search_ne_false (fun x hx => ⟨hs.holds_of_mem_chain hid hx, haccess x hx⟩) key
  refine ⟨ran, ?_⟩
  generalize hsearch : (firstAlong (·.hasOwn key) (w.heap.chain id)).on w = search
    at hshows hfound
  obtain ⟨r, w'⟩ := search
  rw [on_has hsearch]
  refine lookedUp_of_shows hconsults hshows ?_
  -- the search answers `false` only if no object decided
  match r, hfound with
  | .ok none, _ => exact ⟨fun _ => rfl, fun _ => rfl⟩
  | .ok (some true), _ => exact ⟨nofun, nofun⟩
  | .ok (some false), hfound => exact absurd rfl hfound
  | .error e, _ => exact ⟨nofun, nofun⟩

/-- Reading a member that has parameters runs nothing. -/
theorem on_get?_of_parameters {id : ObjectId} {v : Wrapper} (hv : w.heap.wrapper? id = some v)
    {name : String} {m : Member} (hm : v.subject.value.member? w.host.state name = some m)
    (harity : m.arity ≠ .exactly 0) (haccess : ∀ x ∈ w.heap.chain id, w.heap.AsksMembers x) :
    ((id.get? (.name name)).on w).2.runs = w.runs ∧
      ((id.get? (.name name)).on w).2.host.state = w.host.state := by
  cases hinternal : PropertyKey.isInternal (.name name) with
  | true =>
    rw [on_get?_of_internal hinternal haccess]
    exact ⟨rfl, rfl⟩
  | false =>
    have hself : w.heap.AsksMembers id :=
      haccess id (Heap.chain_eq_cons (Heap.holds_of_wrapper? hv) ▸ List.mem_cons_self)
    have hout : v.policy.accessor.HandsOut w.host.state v.subject.value name m :=
      (hself v hv).handsOut fun hruns => harity hruns.arity
    have hkey := PropertyKey.memberName?_eq_some.2 ⟨hinternal, rfl⟩
    obtain ⟨f, w₁, hhanded, hsame⟩ := exists_on_handOut (v.site w) m w
    rw [on_get?_of_accessor hv (on_accessor_get id hkey hm hout hhanded)]
    exact hsame

/-- **A look-up runs host code at most once on each wrapper along the prototypes, in their order.**
Read and search a key of any object of a reachable world, where the strategy of every wrapper on its
prototype chain asks the members of its host value. The chain meets no object twice. Both look-ups
ask the objects along it in turn, each with the state that the host was left in, and end with the
first that answers or fails; what they have run is what these questions come to. A read runs on a
wrapper the member of exactly the name of the key, without arguments, if it has no parameters, or
the index reader of one parameter on the key, if nothing reads or writes the name. A search runs
only such index readers, and nothing for what every wrapper of the kind has. After host code that
failed, or yielded anything but `nil`, nothing more is run; and reading a member with parameters
runs nothing at all. -/
theorem World.Reachable.lookup_runs (hw : w.Reachable) {id : ObjectId} (hid : w.heap.Holds id)
    (key : PropertyKey) (haccess : ∀ x ∈ w.heap.chain id, w.heap.AsksMembers x) :
    (w.heap.chain id).Nodup ∧
    (∃ ran, w.LookedUp .read key (w.heap.chain id) ran (((id.get? key).on w).1 = .ok none)
      ((id.get? key).on w).2) ∧
    (∃ ran, w.LookedUp .search key (w.heap.chain id) ran (((id.has key).on w).1 = .ok false)
      ((id.has key).on w).2) ∧
    ∀ v name m, w.heap.wrapper? id = some v → key = .name name →
      v.subject.value.member? w.host.state name = some m → m.arity ≠ .exactly 0 →
      ((id.get? key).on w).2.runs = w.runs ∧
        ((id.get? key).on w).2.host.state = w.host.state := by
  have hwalk := hw.sound.grounded.walk_chain hw.sound.linked hid
  refine ⟨hwalk.nodup, World.lookedUp_get id key haccess,
    hw.sound.lookedUp_has hid key haccess, ?_⟩
  rintro v name m hv rfl hm harity
  exact on_get?_of_parameters hv hm harity haccess

end Along

namespace Catalog

/-- A class without static members. -/
def plainClass : HostClass := ⟨9, "Plain", .exactly 0, .custom ⟨0⟩⟩

/-- The reader of an index that has nothing at all. -/
def emptyIndex : Member := ⟨"Bag", "[]", .exactly 1, .code ⟨1⟩ none, none⟩

/-- The wrapper of an object with this reader, linked to the wrapper of a class. -/
def withBag : World Catalog :=
  let site : Site := ⟨⟨{}, .standard, .standard⟩, none, none⟩
  let bag := (World.initial ⟨10, {
      definitions := #[⟨some "Plain", .function (.const .nil)⟩,
        ⟨some "[]", .stateMethod (.const .nil)⟩]
      objects := #[⟨⟨7, "Bag"⟩, {
        className := "Bag", methods := [emptyIndex], members := ["[]"] }, []⟩]
      classes := #[{ hostClass := plainClass }]
    }⟩ .standard).after (.wrap site (.object ⟨7, "Bag"⟩))
  (bag.after (.wrap site (.constructor plainClass))).after (.setPrototype ⟨0⟩ (some ⟨1⟩))

theorem withBag_reachable : withBag.Reachable := by
  refine ((((World.initial_reachable _ _).reachable.after ?object).after ?type).after ?linked)
  case object => exact World.serves_none _
  case type => exact World.serves_none _
  case linked =>
    refine ⟨?_, ?_⟩
    · show Heap.Holds _ _
      decide
    · rintro x ⟨⟩
      show Heap.Holds _ _
      decide

theorem asksMembers_withBag (x : ObjectId) : withBag.heap.AsksMembers x := by
  intro v hv
  match x, hv with
  | ⟨0⟩, hv =>
    cases hv
    exact .inl rfl
  | ⟨1⟩, hv =>
    cases hv
    exact .inl rfl

/-- A read of `new` asks the index reader of the object and runs nothing for the class behind it.
Reading it on the class runs nothing either. -/
theorem lookup_runs_new :
    (∃ ran, withBag.LookedUp .read (.name "new") [⟨0⟩, ⟨1⟩] ran
        (((ObjectId.get? ⟨0⟩ (.name "new")).on withBag).1 = .ok none)
        ((ObjectId.get? ⟨0⟩ (.name "new")).on withBag).2 ∧
      ran = [(.member (.object ⟨7, "Bag"⟩) emptyIndex [.str "new"], .ok .nil)]) ∧
    ((ObjectId.get? ⟨1⟩ (.name "new")).on withBag).2.runs = withBag.runs := by
  have hobject : withBag.heap.Holds ⟨0⟩ := by decide
  have hclass : withBag.heap.Holds ⟨1⟩ := by decide
  obtain ⟨-, ⟨ran, hread⟩, -, -⟩ :=
    withBag_reachable.lookup_runs hobject (.name "new") fun x _ => asksMembers_withBag x
  obtain ⟨-, -, -, hnew⟩ :=
    withBag_reachable.lookup_runs hclass (.name "new") fun x _ => asksMembers_withBag x
  refine ⟨⟨ran, hread, ?_⟩, ?_⟩
  · exact hread.runs.symm
  · exact (hnew _ "new" Reflector.classNew.member rfl rfl rfl (by decide)).1

end Catalog

end Membrane
