import Membrane.Catalog.Running
import Membrane.Proofs.Reach

/-!
# How operations on wrappers fail

An operation on a wrapper ends at the first failure, and there are only two kinds of it: host code
failed, whose error is then wrapped once and thrown, or a converter refused a value, whose error is
then the error of the operation. `Ends` says so of an outcome: nothing fails before the last step,
and the last step is one of those that `Fails` lists. A thrown host error keeps its identity
wherever it goes: whoever catches it finds the error of the host in it, also later.
-/

namespace Membrane

variable {σ α β : Type}

/-! ## Stretches without a failure -/

/-- Whether an event is a failure of host code or the refusal of a converter. -/
def Event.fails : Event → Bool
  | .ran _ (.error _) | .incoming _ (.error _) | .outgoing _ (.error _) => true
  | _ => false

/-- Between two worlds nothing failed, and no host error was wrapped. -/
structure Smooth (w w' : World σ) : Prop where
  journal : ∃ events, w'.journal = w.journal ++ events ∧ ∀ event ∈ events, event.fails = false
  errors : ∀ id, w'.heap.hostError? id = w.heap.hostError? id

theorem Smooth.refl (w : World σ) : Smooth w w :=
  ⟨⟨[], (List.append_nil _).symm, fun _ h => absurd h List.not_mem_nil⟩, fun _ => rfl⟩

theorem Smooth.trans {w₁ w₂ w₃ : World σ} (h : Smooth w₁ w₂) (h' : Smooth w₂ w₃) :
    Smooth w₁ w₃ := by
  obtain ⟨events, hevents, hfine⟩ := h.journal
  obtain ⟨events', hevents', hfine'⟩ := h'.journal
  refine ⟨⟨events ++ events', by rw [hevents', hevents, List.append_assoc], ?_⟩, fun id => ?_⟩
  · intro event hmem
    rcases List.mem_append.1 hmem with hmem | hmem
    · exact hfine event hmem
    · exact hfine' event hmem
  · rw [h'.errors, h.errors]

theorem Smooth.of_event {w w' : World σ} {event : Event}
    (hjournal : w'.journal = w.journal ++ [event]) (hfine : event.fails = false)
    (herrors : ∀ id, w'.heap.hostError? id = w.heap.hostError? id) : Smooth w w' :=
  ⟨⟨[event], hjournal, fun _ hmem => List.mem_singleton.1 hmem ▸ hfine⟩, herrors⟩

theorem Smooth.of_journal_eq {w w' : World σ} (hjournal : w'.journal = w.journal)
    (herrors : ∀ id, w'.heap.hostError? id = w.heap.hostError? id) : Smooth w w' :=
  ⟨⟨[], by rw [hjournal, List.append_nil], fun _ h => absurd h List.not_mem_nil⟩, herrors⟩

/-- A new wrapper wraps no host error. -/
theorem Heap.hostError?_push_wrapper (h : Heap) (v : Wrapper) (store : Store) (id : ObjectId) :
    (h.push ⟨.wrapper v, store⟩).hostError? id = h.hostError? id := by
  simp only [hostError?, kind?_push]
  by_cases hid : id = h.next
  · subst hid
    have hfree : ¬ h.Holds h.next := Nat.lt_irrefl _
    have hnone : h.kind? h.next = none := by
      rw [kind?, get?_eq_none hfree]
      rfl
    rw [if_pos rfl, hnone]
  · rw [if_neg hid]

/-! ## The last step of an operation that fails -/

/-- The last step of an operation that fails, with its error. `among` holds of the policies that the
operation works with. -/
inductive Fails [Naming σ] (among : Policy → Prop) (v : World σ) :
    ScriptError → World σ → Prop where
  /-- Host code was run and failed. The one object that was added wraps its error and is thrown. -/
  | host {w' : World σ} (i : Invocation) (error : HostError)
      (last : w'.journal = v.journal ++ [.ran i (.error error)])
      (wrapped : w'.heap = v.heap.push { kind := .hostError error }) :
      Fails among v (.thrown (.object v.heap.next)) w'
  /-- The converter of one of the policies refused a script value. -/
  | incoming {w' : World σ} {e : ScriptError} (policy : Policy) (value : ScriptValue)
      (involved : among policy)
      (refused : policy.converter.incoming (v.heap.typeOf value) value = .error e)
      (last : w'.journal = v.journal ++ [.incoming value (.error e)]) (heap : w'.heap = v.heap) :
      Fails among v e w'
  /-- The converter of one of the policies refused a host value. -/
  | outgoing {w' : World σ} {e : ScriptError} (policy : Policy) (value : HostValue)
      (involved : among policy)
      (refused : policy.converter.outgoing (v.view.className value) value = .error e)
      (last : w'.journal = v.journal ++ [.outgoing value (.error e)]) (heap : w'.heap = v.heap) :
      Fails among v e w'

/-- An outcome to which nothing leads but steps that do not fail, with a failing one at the end if
the outcome is an error. -/
def Ends [Naming σ] (among : Policy → Prop) (w : World σ) :
    Except ScriptError α × World σ → Prop
  | (.ok _, w') => Smooth w w'
  | (.error e, w') => ∃ v, Smooth w v ∧ Fails among v e w'

theorem Converter.letIn_eq_error {converter : Converter} {h : Heap} {value : ScriptValue}
    {e : ScriptError} (herror : converter.letIn h value = .error e) :
    converter.incoming (h.typeOf value) value = .error e := by
  rw [letIn] at herror
  cases hin : converter.incoming (h.typeOf value) value with
  | error e' =>
    rw [hin] at herror
    cases herror
    rfl
  | ok decision =>
    rw [hin] at herror
    cases decision <;> cases herror

variable [Host σ] {among : Policy → Prop} {w w' : World σ}

theorem Border.smooth {t : Terms} (h : Border t w w') : Smooth w w' := by
  cases h with
  | address => exact .of_journal_eq rfl fun _ => rfl
  | ran i outcome =>
    have hfine : (Event.ran i (w.invoke i).1).fails = false := by
      rw [outcome]
      rfl
    exact .of_event rfl hfine fun _ => rfl
  | incoming policy value among outcome => exact .of_event rfl rfl fun _ => rfl
  | outgoing policy value among outcome => exact .of_event rfl rfl fun _ => rfl
  | recalled site subject stands known => exact .of_event rfl rfl fun _ => rfl
  | wrapped site subject stands unknown =>
    refine .of_event (w.journal_pushWrapper site subject) rfl fun id => ?_
    rw [World.heap_pushWrapper]
    exact Heap.hostError?_push_wrapper ..

theorem Crosses.smooth {t : Terms} (h : Crosses t w w') : Smooth w w' := by
  induction h with
  | refl => exact .refl w
  | tail _ hstep ih => exact ih.trans hstep.smooth

theorem Breaks.fails {e : ScriptError} (h : Breaks ⟨among, False⟩ w e w') : Fails among w e w' := by
  cases h with
  | ran i outcome => exact .host i _ (by rw [← outcome]; rfl) rfl
  | incoming policy value involved outcome =>
    exact .incoming policy value involved (Converter.letIn_eq_error outcome) rfl rfl
  | outgoing policy value involved outcome => exact .outgoing policy value involved outcome rfl rfl
  | otherwise _ lenient => exact lenient.elim

/-- An operation made of elementary steps ends at its first failure. -/
theorem ScriptM.Proceeds.ends {act : ScriptM σ α} (h : act.Proceeds ⟨among, False⟩ w) :
    Ends among w (act.on w) := by
  unfold ScriptM.Proceeds at h
  match act.on w, h with
  | (.ok _, _), h => exact Crosses.smooth h
  | (.error _, _), ⟨v, hv, hbreak⟩ => exact ⟨v, Crosses.smooth hv, hbreak.fails⟩

/-- Whatever follows an operation that ends like this, if it does too, the two in a row do. -/
theorem Ends.bind {act : ScriptM σ α} {next : α → ScriptM σ β} (h : Ends among w (act.on w))
    (hnext : ∀ a w', act.on w = (.ok a, w') → Ends among w' ((next a).on w')) :
    Ends among w ((act >>= next).on w) := by
  rw [ScriptM.on_bind]
  match hact : act.on w, h with
  | (.error e, w'), h => exact h
  | (.ok a, w'), h =>
    have hnext := hnext a w' hact
    dsimp only
    match (next a).on w', hnext with
    | (.ok _, _), hnext => exact Smooth.trans h hnext
    | (.error _, _), ⟨v, hv, hfails⟩ => exact ⟨v, Smooth.trans h hv, hfails⟩

theorem Ends.discard {act : ScriptM σ α} (h : Ends among w (act.on w)) :
    Ends among w ((discard act).on w) := by
  rw [ScriptM.on_discard]
  match act.on w, h with
  | (.ok _, _), h => exact h
  | (.error _, _), h => exact h

/-! ## Operations on wrappers -/

/-- The move is an operation on a wrapper: a look-up or a write, a call of one that can be called, a
construction with one of a class. -/
def Move.OnWrapper (w : World σ) : Move σ → Prop
  | .get id _ | .has id _ | .put id _ _ => ∃ v, w.heap.wrapper? id = some v
  | .call id .. => ∃ v, w.heap.wrapper? id = some v ∧ v.subject.callee?.isSome = true
  | .construct id .. => ∃ v c, w.heap.wrapper? id = some v ∧ v.subject = .constructor c
  | _ => False

/-- The objects that an operation asks: those along the prototypes for a look-up, else the one
object. -/
def Move.asked (w : World σ) : Move σ → List ObjectId
  | .get id _ | .has id _ => w.heap.chain id
  | .put id _ _ | .call id .. | .construct id .. => [id]
  | _ => []

/-- The policies of the wrappers that an operation asks. -/
def Move.Involves (m : Move σ) (w : World σ) (policy : Policy) : Prop :=
  ∃ id ∈ m.asked w, ∃ v, w.heap.wrapper? id = some v ∧ v.policy = policy

omit [Host σ] in
/-- A wrapper that takes new properties takes what its host does not. -/
theorem putOwn_ends (id : ObjectId) (key : PropertyKey) (value : ScriptValue)
    (hext : (w.heap.store id).extensible = true) :
    ∃ w', (id.putOwn key value).on w = (.ok (), w') ∧ Smooth w w' := by
  rw [on_putOwn, hext, Bool.or_true, if_pos rfl]
  refine ⟨_, rfl, .of_journal_eq rfl fun x => ?_⟩
  simp only [World.setStore, Heap.hostError?, Heap.kind?_setStore]

/-- An operation on a wrapper ends at its first failure. -/
theorem Move.ends (hs : w.Sound) {m : Move σ} (hm : m.Allowed w) (hon : m.OnWrapper w)
    (haccess : ∀ id ∈ m.asked w, ∀ v, w.heap.wrapper? id = some v → v.policy.accessor ≠ .deny) :
    Ends (m.Involves w) w (m.run.on w) := by
  have hsuits : ∀ id ∈ m.asked w, w.heap.Holds id → Suits ⟨m.Involves w, False⟩ w id := by
    intro id hid hheld
    constructor
    · exact hheld
    · intro v hv
      exact ⟨id, hid, v, hv, rfl⟩
    · intro v hv
      exact .inr (haccess id hid v hv)
    · intro v r hv hr
      exact hs.realm id v r hv hr
  cases m with
  | get id key =>
    refine (ScriptM.Proceeds.get? (fun x hx => hsuits x hx ?_) key).ends.discard
    exact hs.holds_of_mem_chain hm hx
  | has id key => exact (ScriptM.Proceeds.has? id key).ends.discard
  | put id key value =>
    obtain ⟨v, hv⟩ := hon
    have hself := hsuits id (List.mem_singleton_self id) hm
    have hput : (v.policy.accessor.put (v.site w) v.subject.value id key value).Proceeds
        ⟨Move.Involves (.put id key value) w, False⟩ w :=
      .put (hself.policy v hv) (hself.accessor v hv) ..
    show Ends _ w ((id.put key value).on w)
    rw [ObjectId.put, ScriptM.on_get_bind, hv]
    refine hput.ends.bind fun taken w' hact => ?_
    cases taken with
    | true => exact .refl w'
    | false =>
      have hext : (w'.heap.store id).extensible = true := by
        have hstore := hput.widens.store id (Heap.holds_of_wrapper? hv)
        rw [hact] at hstore
        rw [hstore, hs.extensible id v hv]
      obtain ⟨w'', hown, hsmooth⟩ := putOwn_ends id key value hext
      show Ends _ w' ((id.putOwn key value).on w')
      rw [hown]
      exact hsmooth
  | call id context realm this args =>
    obtain ⟨v, hv, hcallee⟩ := hon
    obtain ⟨callee, hcallee⟩ := Option.isSome_iff_exists.1 hcallee
    have hfound : (w.heap.callee? id context realm).isSome = true := by
      rw [Heap.callee?, hv, Option.bind_some, hcallee]
      rfl
    have hself := hsuits id (List.mem_singleton_self id) hm.1
    exact (ScriptM.Proceeds.call hself hm.2 (.inr hfound) this args).ends.discard
  | construct id context realm args =>
    obtain ⟨v, c, hv, hc⟩ := hon
    have hfound : w.heap.callee? id context realm =
        some (.hostClass c, ⟨v.policy, context, realm.or v.realm⟩) := by
      rw [Heap.callee?, hv, Option.bind_some, hc]
      rfl
    have hself := hsuits id (List.mem_singleton_self id) hm.1
    exact (ScriptM.Proceeds.construct hself hm.2 (.inr ⟨c, _, hfound⟩) args).ends.discard
  | _ => exact hon.elim

/-! ## What becomes of a failure -/

omit [Host σ] in
theorem Fails.thrown {e : ScriptError} {v : World σ} [Naming σ] (h : Fails among v e w')
    {i : Invocation} {error : HostError}
    (hlast : w'.journal.getLast? = some (.ran i (.error error))) :
    e = .thrown (.object v.heap.next) ∧
      w'.heap.kind? v.heap.next = some (.hostError error) := by
  cases h with
  | host j error' last wrapped =>
    rw [last, List.getLast?_concat] at hlast
    cases hlast
    exact ⟨rfl, by rw [wrapped, Heap.kind?_push, if_pos rfl]⟩
  | incoming policy value involved refused last heap =>
    rw [last, List.getLast?_concat] at hlast
    cases hlast
  | outgoing policy value involved refused last heap =>
    rw [last, List.getLast?_concat] at hlast
    cases hlast

/-- **A failure ends an operation on a wrapper and reaches script code as it is.** Take any
operation on a wrapper of a reachable world, where no wrapper that it asks refuses all access. It
ends at the first failure: the error is the thrown wrapping of the host error of its last run of
host code, and no other host error was wrapped; or it is the error of a converter of a wrapper that
was asked, and no host error was wrapped at all. An operation without an error met no failure. The
value that a handler catches after a failure of host code carries the host error, from then on, and
crosses to the host as the object that it is. -/
theorem World.Reachable.failure (hw : w.Reachable) {m : Move σ} (hm : m.Allowed w)
    (hon : m.OnWrapper w)
    (haccess : ∀ id ∈ m.asked w, ∀ v, w.heap.wrapper? id = some v → v.policy.accessor ≠ .deny) :
    Ends (m.Involves w) w (m.run.on w) ∧
    ∀ e w' i error, m.run.on w = (.error e, w') →
      w'.journal.getLast? = some (.ran i (.error error)) →
      ∃ id, e = .thrown (.object id) ∧
        (∀ realm handler, (tryCatch realm m.run handler).on w = (handler (.object id)).on w') ∧
        ∀ w'', w'.Reaches w'' → w''.heap.carried? (.object id) = some error ∧
          w''.heap.crossIn (.object id) = .script (.object id) := by
  have hends := m.ends hw.sound hm hon haccess
  refine ⟨hends, fun e w' i error hrun hlast => ?_⟩
  rw [hrun] at hends
  obtain ⟨v, -, hfails⟩ := hends
  obtain ⟨rfl, hkind⟩ := hfails.thrown hlast
  have hsound : w'.Sound := by
    have h := (hw.after hm).sound
    rwa [World.after, hrun] at h
  refine ⟨_, rfl, fun realm handler => on_tryCatch_of_thrown hrun handler, fun w'' h => ?_⟩
  have hkind' := h.kind? hsound hkind
  refine ⟨Heap.hostError?_eq_some.2 hkind', ?_⟩
  rw [Heap.crossIn, Heap.wrapper?, hkind']

/-- The wrapper of an object with a property that cannot be read. -/
def Catalog.withBroken : World Catalog :=
  (World.initial ⟨8, {
      definitions := #[⟨some "broken", .stateMethod (.raise (.runtime "broken"))⟩]
      objects := #[⟨⟨7, "Point"⟩, {
        className := "Point"
        methods := [⟨"Point", "broken", .exactly 0, .code ⟨0⟩ none, none⟩]
        members := ["broken"] }, []⟩]
    }⟩ .standard).after (.wrap ⟨⟨{}, .standard, .standard⟩, none, none⟩ (.object ⟨7, "Point"⟩))

/-- Reading the property throws the host error to the handler, which can look at it. -/
theorem Catalog.failure_broken :
    let w' := withBroken.after (.get ⟨0⟩ (.name "broken"))
    (∀ realm handler,
      (tryCatch realm (Move.run (.get ⟨0⟩ (.name "broken"))) handler).on withBroken =
        (handler (.object ⟨1⟩)).on w') ∧
    w'.heap.carried? (.object ⟨1⟩) = some (.runtime "broken") := by
  have hw : withBroken.Reachable :=
    (World.initial_reachable _ _).reachable.after (World.serves_none _)
  have haccess : ∀ id ∈ Move.asked withBroken (.get ⟨0⟩ (.name "broken")), ∀ v,
      withBroken.heap.wrapper? id = some v → v.policy.accessor ≠ .deny := by
    intro id hid v hv
    obtain rfl : id = ⟨0⟩ := List.mem_singleton.1 hid
    cases hv
    decide
  have hheld : withBroken.heap.Holds ⟨0⟩ := by decide
  have hfailure := (hw.failure (m := .get ⟨0⟩ (.name "broken")) hheld ⟨_, rfl⟩ haccess).2
  obtain ⟨id, hid, hcaught, hlater⟩ := hfailure (.thrown (.object ⟨1⟩)) _
    (.member (.object ⟨7, "Point"⟩) ⟨"Point", "broken", .exactly 0, .code ⟨0⟩ none, none⟩ [])
    (.runtime "broken") rfl rfl
  cases hid
  exact ⟨hcaught, (hlater _ .refl).1⟩

end Membrane
