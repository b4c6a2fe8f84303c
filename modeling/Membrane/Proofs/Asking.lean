import Membrane.Proofs.Internal

/-!
# Asking one object for a key

An object that is read or searched may run host code once. `Tries` says what such a question comes
to: what was run, what is left of the host's side, and whether there is an answer. `Tried` ties the
result of an operation to it. That is shown for the strategies first, by the member of the name, the
writer and the index reader, and then for objects of every kind.
-/

namespace Membrane

variable {σ α : Type}

/-- A run of host code with its outcome. -/
abbrev HostRun := Invocation × Except HostError HostValue

/-! ## One question -/

/-- What a question comes to that may run some host code once, and that may be answered whatever the
host code says: the runs, the host's side after them, and whether the question is settled. Host code
that fails, or yields anything but `nil`, settles it. -/
inductive World.Tries [Host σ] (w : World σ) (may : Invocation → Prop) (answered : Prop) :
    List HostRun → HostSide σ → Bool → Prop where
  | quiet (settled : Bool) (idle : ∀ i, ¬ may i) (settles : settled = true ↔ answered) :
      Tries w may answered [] w.host settled
  | runs (settled : Bool) (i : Invocation) (permitted : may i)
      (settles : settled = true ↔ answered ∨ (w.directly i.run).1 ≠ .ok .nil) :
      Tries w may answered [(i, (w.directly i.run).1)] (w.directly i.run).2 settled

/-- The result of an operation shows what was run. Where the question is not settled, there is no
answer, and nothing has changed but the host's side; where it is, there is an answer, or a failure.
-/
structure World.Shows (w : World σ) (ran : List HostRun) (side : HostSide σ) (settled : Bool)
    (result : Except ScriptError (Option α) × World σ) : Prop where
  runs : result.2.runs = w.runs ++ ran
  state : result.2.host.state = side.state
  unsettled : settled = false →
    result.1 = .ok none ∧ result.2.heap = w.heap ∧ result.2.host = side
  settled : settled = true → result.1 ≠ .ok none

/-- The result of an operation is what a question comes to. -/
def World.Tried [Host σ] (w : World σ) (may : Invocation → Prop) (answered : Prop)
    (result : Except ScriptError (Option α) × World σ) : Prop :=
  ∃ ran side settled, w.Tries may answered ran side settled ∧ w.Shows ran side settled result

section Tried

variable [Host σ] {w : World σ} {may : Invocation → Prop} {answered : Prop}

theorem HostValue.isNil_eq_true {value : HostValue} : value.isNil = true ↔ value = .nil := by
  cases value <;> simp [isNil]

/-- An answer that is there. -/
theorem World.tried_of_idle (idle : ∀ i, ¬ may i) (answer : Option α)
    (hanswer : answer.isSome = true ↔ answered) : w.Tried may answered (.ok answer, w) := by
  refine ⟨[], w.host, answer.isSome, .quiet _ idle hanswer, ?_⟩
  constructor
  · exact (List.append_nil _).symm
  · rfl
  · intro hnone
    rw [Option.isSome_eq_false_iff, Option.isNone_iff_eq_none] at hnone
    exact ⟨by rw [hnone], rfl, rfl⟩
  · rintro hsome ⟨⟩
    cases hsome

/-- What is built as an answer without running host code. -/
theorem World.tried_of_answered (idle : ∀ i, ¬ may i) (hanswered : answered)
    {result : Except ScriptError (Option α) × World σ} (hruns : result.2.runs = w.runs)
    (hstate : result.2.host.state = w.host.state) (hresult : result.1 ≠ .ok none) :
    w.Tried may answered result := by
  refine ⟨[], w.host, true, .quiet _ idle ⟨fun _ => hanswered, fun _ => rfl⟩, ?_⟩
  constructor
  · rw [hruns, List.append_nil]
  · exact hstate
  · exact nofun
  · exact fun _ => hresult

/-- Host code is run, and its outcome becomes the answer without running any more. Only a `nil` may
leave the question open. -/
theorem World.tried_hostCall {i : Invocation} (permitted : may i)
    {next : HostValue → ScriptM σ (Option α)}
    (hquiet : ∀ value u, ((next value).on u).2.runs = u.runs ∧ ((next value).on u).2.host = u.host)
    (hopen : ∀ value u, value = .nil ∧ ¬ answered ∧ (next value).on u = (.ok none, u) ∨
      (answered ∨ value ≠ .nil) ∧ ((next value).on u).1 ≠ .ok none) :
    w.Tried may answered ((ScriptM.hostCall i >>= next).on w) := by
  let w₁ : World σ := { w with host := (w.directly i.run).2 }.note (.ran i (w.directly i.run).1)
  have hinvoke : w.invoke i = ((w.directly i.run).1, w₁) := rfl
  have hruns : w₁.runs = w.runs ++ [(i, (w.directly i.run).1)] := World.runs_note ..
  rw [ScriptM.on_bind, ScriptM.on_hostCall, hinvoke]
  cases houtcome : (w.directly i.run).1 with
  | error e =>
    -- the failure is thrown, whatever would come next
    refine ⟨_, _, true, .runs true i permitted ?_, ?_⟩
    · rw [houtcome]
      exact ⟨fun _ => .inr nofun, fun _ => rfl⟩
    · exact ⟨hruns, rfl, nofun, nofun⟩
  | ok value =>
    dsimp only
    obtain ⟨hruns', hhost⟩ := hquiet value w₁
    rcases hopen value w₁ with ⟨hnil, hunanswered, hnone⟩ | ⟨hsettles, hne⟩
    · refine ⟨_, _, false, .runs false i permitted ?_, ?_⟩
      · rw [houtcome, hnil]
        exact ⟨nofun, fun h => absurd rfl (h.resolve_left hunanswered)⟩
      · rw [hnone]
        exact ⟨hruns, rfl, fun _ => ⟨rfl, rfl, rfl⟩, nofun⟩
    · refine ⟨_, _, true, .runs true i permitted ?_, ?_⟩
      · rw [houtcome]
        refine ⟨fun _ => hsettles.imp_right fun hvalue h => ?_, fun _ => rfl⟩
        exact hvalue (Except.ok.inj h)
      · exact ⟨hruns'.trans hruns, congrArg HostSide.state hhost, nofun, fun _ => hne⟩

theorem World.Tried.congr {result : Except ScriptError (Option α) × World σ}
    (h : w.Tried may answered result) {may' : Invocation → Prop} (hmay : ∀ i, may' i ↔ may i)
    {answered' : Prop} (hanswered : answered' ↔ answered) : w.Tried may' answered' result := by
  obtain rfl : may' = may := funext fun i => propext (hmay i)
  obtain rfl : answered' = answered := propext hanswered
  exact h

/-- A second answer settles what the first one leaves open. -/
theorem World.Tried.orElseFrom {act : ScriptM σ (Option α)} (h : w.Tried may answered (act.on w))
    (second : Option α) :
    w.Tried may (answered ∨ second.isSome = true) ((orElseFrom act second).on w) := by
  obtain ⟨ran, side, settled, htries, hshows⟩ := h
  have htries' : w.Tries may (answered ∨ second.isSome = true) ran side
      (settled || second.isSome) := by
    cases htries with
    | quiet settled idle settles =>
      refine .quiet _ idle ?_
      rw [Bool.or_eq_true, settles]
    | runs settled i permitted settles =>
      refine .runs _ i permitted ?_
      rw [Bool.or_eq_true, settles, or_right_comm]
  refine ⟨ran, side, _, htries', ?_⟩
  cases settled with
  | true =>
    have hne := hshows.settled rfl
    rw [on_orElseFrom_of_ne hne]
    exact ⟨hshows.runs, hshows.state, nofun, fun _ => hne⟩
  | false =>
    obtain ⟨hnone, hheap, hhost⟩ := hshows.unsettled rfl
    rw [on_orElseFrom_of_none (Prod.ext hnone rfl)]
    refine ⟨hshows.runs, hshows.state, fun h => ⟨?_, hheap, hhost⟩, fun h => ?_⟩
    · rw [Bool.false_or, Option.isSome_eq_false_iff, Option.isNone_iff_eq_none] at h
      rw [h]
    · obtain ⟨value, hvalue⟩ := Option.isSome_iff_exists.1 h
      rw [hvalue]
      exact nofun

end Tried

/-! ## The strategies -/

section Strategies

variable [Host σ] {s : σ} {v : Wrapper} {key : PropertyKey}

/-- The host value of a wrapper has a member that reads or writes the name of a key, and the key may
reach it. -/
inductive Wrapper.Names (s : σ) (v : Wrapper) (key : PropertyKey) : Prop where
  | reader (name : String) (m : Member) (named : key = .name name)
      (external : key.isInternal = false) (found : v.subject.value.member? s name = some m)
  | writer (name : String) (m : Member) (named : key = .name name)
      (external : key.isInternal = false)
      (found : v.subject.value.member? s (writerName name) = some m)

/-- The run of the member of exactly the name of a key, without arguments, if it is one that the
strategy of the wrapper runs: those have no parameters. -/
inductive Wrapper.RunsMember (s : σ) (v : Wrapper) (key : PropertyKey) : Invocation → Prop where
  | intro (name : String) (m : Member) (named : key = .name name)
      (external : key.isInternal = false) (found : v.subject.value.member? s name = some m)
      (runs : v.policy.accessor.RunsMember s v.subject.value name m) :
      RunsMember s v key (.member v.subject.value m [])

/-- The run of the index reader, which has one parameter, on a key that nothing is named by. -/
inductive Wrapper.RunsIndex (s : σ) (v : Wrapper) (key : PropertyKey) : Invocation → Prop where
  | intro (m : Member) (external : key.isInternal = false) (unnamed : ¬ v.Names s key)
      (found : v.subject.value.member? s "[]" = some m) (parameters : m.arity = .exactly 1) :
      RunsIndex s v key (.member v.subject.value m [key.toHost])

omit [Host σ] in
theorem PropertyKey.memberName?_eq_some {name : String} :
    key.memberName? = some name ↔ key.isInternal = false ∧ key = .name name := by
  rw [memberName?]
  cases key.isInternal <;> cases key <;> simp [name?]

namespace HostValue

variable {host : HostValue} {m : Member}

theorem reader?_eq_some :
    host.reader? s key = some m ↔
      ∃ name, key.memberName? = some name ∧ host.member? s name = some m := by
  rw [reader?, Option.bind_eq_some_iff]

theorem writer?_eq_some :
    host.writer? s key = some m ↔
      ∃ name, key.memberName? = some name ∧ host.member? s (writerName name) = some m := by
  rw [writer?, Option.bind_eq_some_iff]

theorem indexReader?_eq_some :
    host.indexReader? s key = some m ↔
      key.isInternal = false ∧ host.member? s "[]" = some m ∧ m.arity = .exactly 1 := by
  rw [indexReader?]
  cases key.isInternal with
  | true => simp
  | false => simp [memberOf?, Option.filter_eq_some_iff]

end HostValue

theorem Wrapper.names_iff :
    v.Names s key ↔ (v.subject.value.reader? s key).isSome = true ∨
      (v.subject.value.writer? s key).isSome = true := by
  simp only [Option.isSome_iff_exists, HostValue.reader?_eq_some, HostValue.writer?_eq_some,
    PropertyKey.memberName?_eq_some]
  constructor
  · rintro (⟨name, m, named, external, found⟩ | ⟨name, m, named, external, found⟩)
    · exact .inl ⟨m, name, ⟨external, named⟩, found⟩
    · exact .inr ⟨m, name, ⟨external, named⟩, found⟩
  · rintro (⟨m, name, ⟨external, named⟩, found⟩ | ⟨m, name, ⟨external, named⟩, found⟩)
    · exact .reader name m named external found
    · exact .writer name m named external found

theorem Wrapper.not_runsIndex (hnames : v.Names s key) (i : Invocation) :
    ¬ v.RunsIndex s key i := by
  rintro ⟨m, external, unnamed, found, parameters⟩
  exact unnamed hnames

theorem Wrapper.RunsMember.names {i : Invocation} (h : v.RunsMember s key i) : v.Names s key := by
  obtain ⟨name, m, named, external, found, runs⟩ := h
  exact .reader name m named external found

theorem Wrapper.RunsMember.unique {i j : Invocation} (hi : v.RunsMember s key i)
    (hj : v.RunsMember s key j) : i = j := by
  obtain ⟨name, m, named, -, found, -⟩ := hi
  obtain ⟨name', m', named', -, found', -⟩ := hj
  cases named.symm.trans named'
  cases found.symm.trans found'
  rfl

theorem Wrapper.RunsIndex.unique {i j : Invocation} (hi : v.RunsIndex s key i)
    (hj : v.RunsIndex s key j) : i = j := by
  obtain ⟨m, -, -, found, -⟩ := hi
  obtain ⟨m', -, -, found', -⟩ := hj
  cases found.symm.trans found'
  rfl

/-- A value that crosses to script code runs nothing. -/
theorem runs_toScript (site : Site) (value : HostValue) (w : World σ) :
    ((toScript site value).on w).2.runs = w.runs ∧
      ((toScript site value).on w).2.host = w.host := by
  rw [on_toScript]
  cases site.policy.converter.outgoing (w.view.className value) value with
  | error e => exact ⟨(w.alike_note rfl).runs, rfl⟩
  | ok decision =>
    cases decision with
    | some replacement => exact ⟨(w.alike_note rfl).runs, rfl⟩
    | none =>
      obtain ⟨result, w', hcross, hhost, hruns⟩ :=
        exists_on_crossOut site value (w.note (.outgoing value (.ok none)))
      dsimp only
      rw [hcross]
      exact ⟨hruns.trans (w.alike_note rfl).runs, hhost⟩

variable {w : World σ}

/-- What index access comes to for a key that nothing is named by: whatever the index reader yields
but `nil` becomes the answer. -/
theorem tried_readIndex (hunnamed : ¬ v.Names w.host.state key)
    (answer : HostValue → ScriptM σ α)
    (hquiet : ∀ value u, ((answer value).on u).2.runs = u.runs ∧
      ((answer value).on u).2.host = u.host) :
    w.Tried (v.RunsIndex w.host.state key) (v.Names w.host.state key)
      ((v.subject.value.readIndex key >>= fun value =>
        if value.isNil then pure none else answer value >>= fun a => pure (some a)).on w) := by
  rw [HostValue.readIndex, bind_assoc, ScriptM.on_get_bind]
  cases hindex : v.subject.value.indexReader? w.host.state key with
  | none =>
    refine World.tried_of_idle ?_ none
      ⟨fun h => absurd h Bool.false_ne_true, fun h => absurd h hunnamed⟩
    rintro i ⟨m, external, -, found, parameters⟩
    cases hindex.symm.trans (HostValue.indexReader?_eq_some.2 ⟨external, found, parameters⟩)
  | some m =>
    obtain ⟨external, found, parameters⟩ := HostValue.indexReader?_eq_some.1 hindex
    refine World.tried_hostCall (.intro m external hunnamed found parameters) ?_ ?_
    · intro value u
      cases value.isNil with
      | true => exact ⟨rfl, rfl⟩
      | false =>
        rw [if_neg Bool.false_ne_true, ← map_eq_pure_bind, ScriptM.on_map_eq]
        exact hquiet value u
    · intro value u
      cases hnil : value.isNil with
      | true => exact .inl ⟨HostValue.isNil_eq_true.1 hnil, hunnamed, rfl⟩
      | false =>
        refine .inr ⟨.inr fun h => ?_, on_bind_some_ne (answer value) u⟩
        rw [HostValue.isNil_eq_true.2 h] at hnil
        cases hnil

/-- A strategy that asks the members of a host value without a reader of the name. -/
theorem on_accessor_get_of_unread {accessor : Accessor} (haccess : accessor.AsksMembers)
    {host : HostValue} (hreader : host.reader? w.host.state key = none) (site : Site)
    (receiver : ObjectId) :
    (accessor.get site host receiver key).on w =
      if (host.writer? w.host.state key).isSome then (.ok (some .null), w)
      else (getIndexed site host key).on w := by
  have hnamed : ∀ asProperty : σ → HostValue → String → Bool,
      (getNamed asProperty site host key).on w =
        if (host.writer? w.host.state key).isSome then (.ok (some .null), w)
        else (getIndexed site host key).on w := by
    intro asProperty
    rw [getNamed, ScriptM.on_get_bind]
    dsimp only
    rw [hreader]
    cases host.writer? w.host.state key <;> rfl
  rcases haccess with rfl | rfl
  · exact hnamed fun _ _ _ => true
  · exact hnamed fun s value name => value.isAttribute s name

/-- A strategy that asks the members hands out the ones that it does not run. -/
theorem Accessor.AsksMembers.handsOut {accessor : Accessor} (haccess : accessor.AsksMembers)
    {host : HostValue} {name : String} {m : Member} (h : ¬ accessor.RunsMember s host name m) :
    accessor.HandsOut s host name m := by
  rcases haccess with rfl | rfl
  · exact h
  · by_cases harity : m.arity = .exactly 0
    · exact .inr (Bool.not_eq_true _ ▸ fun hattribute => h ⟨harity, hattribute⟩)
    · exact .inl harity

/-- A member that is run when it is read has no parameters. -/
theorem Accessor.RunsMember.arity {accessor : Accessor} {host : HostValue} {name : String}
    {m : Member} (h : accessor.RunsMember s host name m) : m.arity = .exactly 0 := by
  cases accessor with
  | standard => exact h
  | attributes => exact h.1
  | transparent => exact h.elim
  | deny => exact h.elim

omit [Host σ] in
/-- Handing a member out runs nothing. -/
theorem exists_on_handOut (site : Site) (m : Member) (w : World σ) :
    ∃ f w', (handOut site m).on w = (.ok (.object f), w') ∧ w'.runs = w.runs ∧
      w'.host.state = w.host.state := by
  obtain ⟨f, w', hwrap, hhost, hruns⟩ :=
    exists_on_wrap site (.function (.unbound (m.method w.host.next)))
      { w with host := w.host.fresh.2 }
  refine ⟨f, w', on_handOut hwrap, hruns, ?_⟩
  rw [hhost]
  rfl

/-- A strategy that asks the members finds a key that something is named by, and others by index. -/
theorem on_accessor_has (haccess : v.policy.accessor.AsksMembers) (key : PropertyKey) :
    (v.Names w.host.state key →
      (v.policy.accessor.has v.subject.value key).on w = (.ok (some true), w)) ∧
    (¬ v.Names w.host.state key → (v.policy.accessor.has v.subject.value key).on w =
      (v.subject.value.readIndex key >>= fun value =>
        if value.isNil then pure none else pure (some true)).on w) := by
  have hnamed : (v.policy.accessor.has v.subject.value key : ScriptM σ (Option Bool)) =
      hasNamed v.subject.value key := by
    rcases haccess with haccess | haccess
    · rw [haccess]
      rfl
    · rw [haccess]
      rfl
  rw [hnamed, hasNamed, ScriptM.on_get_bind, Wrapper.names_iff, ← Bool.or_eq_true]
  dsimp only
  refine ⟨fun h => ?_, fun h => ?_⟩
  · rw [if_pos h]
    rfl
  · rw [if_neg h]

/-- What a read of a host value comes to. -/
theorem tried_accessor_get (haccess : v.policy.accessor.AsksMembers) (site : Site)
    (receiver : ObjectId) (key : PropertyKey) :
    w.Tried (fun i => v.RunsMember w.host.state key i ∨ v.RunsIndex w.host.state key i)
      (v.Names w.host.state key)
      ((v.policy.accessor.get site v.subject.value receiver key).on w) := by
  cases hreader : v.subject.value.reader? w.host.state key with
  | some m =>
    have hnames := Wrapper.names_iff.2 (.inl (Option.isSome_of_eq_some hreader))
    obtain ⟨name, hkey, hm⟩ := HostValue.reader?_eq_some.1 hreader
    obtain ⟨external, named⟩ := PropertyKey.memberName?_eq_some.1 hkey
    -- the member of the name settles the question, whether it is run or handed out
    by_cases hruns : v.policy.accessor.RunsMember w.host.state v.subject.value name m
    · rw [on_accessor_get_of_runs site receiver hkey hm hruns, map_eq_pure_bind, bind_assoc]
      refine World.tried_hostCall (.inl (.intro name m named external hm hruns)) ?_ ?_
      · intro value u
        rw [← map_eq_pure_bind, ScriptM.on_map_eq]
        exact runs_toScript site value u
      · exact fun value u => .inr ⟨.inl hnames, on_bind_some_ne (toScript site value) u⟩
    · obtain ⟨f, w₁, hhanded, hruns₁, hstate⟩ := exists_on_handOut site m w
      rw [on_accessor_get receiver hkey hm (haccess.handsOut hruns) hhanded]
      refine World.tried_of_answered ?_ hnames hruns₁ hstate nofun
      rintro i (⟨name', m', named', -, found, runs⟩ | hindex)
      · cases named.symm.trans named'
        cases hm.symm.trans found
        exact hruns runs
      · exact Wrapper.not_runsIndex hnames i hindex
  | none =>
    have hunread : ∀ i, ¬ v.RunsMember w.host.state key i := by
      rintro i ⟨name, m, named, external, found, -⟩
      cases hreader.symm.trans (HostValue.reader?_eq_some.2
        ⟨name, PropertyKey.memberName?_eq_some.2 ⟨external, named⟩, found⟩)
    rw [on_accessor_get_of_unread haccess hreader]
    by_cases hwriter : (v.subject.value.writer? w.host.state key).isSome = true
    · -- a name that can only be written reads as null
      have hnames := Wrapper.names_iff.2 (.inr hwriter)
      rw [if_pos hwriter]
      refine World.tried_of_idle ?_ (some ScriptValue.null) ⟨fun _ => hnames, fun _ => rfl⟩
      exact fun i => not_or.2 ⟨hunread i, Wrapper.not_runsIndex hnames i⟩
    · have hunnamed : ¬ v.Names w.host.state key := by
        rw [Wrapper.names_iff, hreader]
        exact not_or.2 ⟨nofun, hwriter⟩
      rw [if_neg hwriter]
      have hindexed := tried_readIndex hunnamed (toScript site) (runs_toScript site)
      exact hindexed.congr (fun i => or_iff_right (hunread i)) .rfl

/-- What a search in a host value comes to. -/
theorem tried_accessor_has (haccess : v.policy.accessor.AsksMembers) (key : PropertyKey) :
    w.Tried (v.RunsIndex w.host.state key) (v.Names w.host.state key)
      ((v.policy.accessor.has v.subject.value key).on w) := by
  obtain ⟨hfound, hindexed⟩ := on_accessor_has (w := w) haccess key
  by_cases hnames : v.Names w.host.state key
  · rw [hfound hnames]
    exact World.tried_of_idle (Wrapper.not_runsIndex hnames) (some true)
      ⟨fun _ => hnames, fun _ => rfl⟩
  · rw [hindexed hnames]
    exact tried_readIndex hnames (fun _ => pure true) fun _ _ => ⟨rfl, rfl⟩

end Strategies

/-! ## One object -/

/-- The two ways to look a key up. -/
inductive Lookup where
  | read
  | search

section Object

variable [Host σ] {w : World σ} {id : ObjectId} {key : PropertyKey}

/-- The host code that a look-up may run on a wrapper. A search runs no member of the name, and
nothing at all for what every wrapper of the kind has. -/
def Lookup.Runs (s : σ) (v : Wrapper) (key : PropertyKey) (i : Invocation) : Lookup → Prop
  | read => v.RunsMember s key i ∨ v.RunsIndex s key i
  | search => v.subject.intrinsic? key = none ∧ v.RunsIndex s key i

/-- An object answers a key whatever an index reader says: as its own property, by its kind, or by a
member of its host value that reads or writes the name. -/
inductive Heap.AnswersKey (h : Heap) (s : σ) (key : PropertyKey) (id : ObjectId) : Prop where
  | own (has : (h.store id).contains key = true)
  | kind (v : Wrapper) (wrapper : h.wrapper? id = some v)
      (has : (v.subject.intrinsic? key).isSome = true)
  | error (e : HostError) (error : h.hostError? id = some e)
      (has : (e.intrinsic? key).isSome = true)
  | member (v : Wrapper) (wrapper : h.wrapper? id = some v) (names : v.Names s key)

/-- What asking one object comes to. -/
abbrev World.Asks (w : World σ) (l : Lookup) (key : PropertyKey) (id : ObjectId) :
    List HostRun → HostSide σ → Bool → Prop :=
  w.Tries (fun i => ∃ v, w.heap.wrapper? id = some v ∧ l.Runs w.host.state v key i)
    (w.heap.AnswersKey w.host.state key id)

/-- The result of asking one object. -/
abbrev World.Asked (w : World σ) (l : Lookup) (key : PropertyKey) (id : ObjectId)
    (result : Except ScriptError (Option α) × World σ) : Prop :=
  w.Tried (fun i => ∃ v, w.heap.wrapper? id = some v ∧ l.Runs w.host.state v key i)
    (w.heap.AnswersKey w.host.state key id) result

theorem Heap.answersKey_wrapper {h : Heap} {s : σ} {v : Wrapper} (hv : h.wrapper? id = some v) :
    h.AnswersKey s key id ↔ v.Names s key ∨
      ((v.subject.intrinsic? key).or ((h.store id).get? key)).isSome = true := by
  rw [Option.isSome_or, Bool.or_eq_true]
  constructor
  · rintro (has | ⟨v', hv', has⟩ | ⟨e, he, -⟩ | ⟨v', hv', names⟩)
    · exact .inr (.inr has)
    · cases hv.symm.trans hv'
      exact .inr (.inl has)
    · cases (Heap.wrapper?_eq_some.1 hv).symm.trans (Heap.hostError?_eq_some.1 he)
    · cases hv.symm.trans hv'
      exact .inl names
  · rintro (names | has | has)
    · exact .member v hv names
    · exact .kind v hv has
    · exact .own has

theorem Heap.answersKey_of_not_wrapper {h : Heap} {s : σ} (hv : h.wrapper? id = none) :
    h.AnswersKey s key id ↔
      (((h.store id).get? key).or ((h.hostError? id).bind (·.intrinsic? key))).isSome = true := by
  rw [Option.isSome_or, Bool.or_eq_true]
  constructor
  · rintro (has | ⟨v, hv', -⟩ | ⟨e, he, has⟩ | ⟨v, hv', -⟩)
    · exact .inl has
    · cases hv.symm.trans hv'
    · rw [he]
      exact .inr has
    · cases hv.symm.trans hv'
  · rintro (has | has)
    · exact .own has
    · cases he : h.hostError? id with
      | none =>
        rw [he] at has
        cases has
      | some e =>
        rw [he] at has
        exact .error e he has

theorem Store.isSome_decides (s : Store) (key : PropertyKey) :
    (s.decides key).isSome = (s.get? key).isSome := by
  rw [decides, contains]
  cases (s.get? key).isSome <;> rfl

/-- No host code is run for an object that is no wrapper. -/
theorem World.asked_of_not_wrapper (l : Lookup) (hv : w.heap.wrapper? id = none) {answer : Option α}
    (hanswer : answer.isSome =
      (((w.heap.store id).get? key).or ((w.heap.hostError? id).bind (·.intrinsic? key))).isSome) :
    w.Asked l key id (.ok answer, w) := by
  refine World.tried_of_idle ?_ answer ?_
  · rintro i ⟨v, hv', -⟩
    cases hv.symm.trans hv'
  · rw [hanswer]
    exact (Heap.answersKey_of_not_wrapper hv).symm

/-- What a look-up may run on a wrapper is what it may run on the object. -/
theorem Lookup.exists_runs (l : Lookup) {h : Heap} {v : Wrapper} (hv : h.wrapper? id = some v)
    (s : σ) (key : PropertyKey) (i : Invocation) :
    (∃ v', h.wrapper? id = some v' ∧ l.Runs s v' key i) ↔ l.Runs s v key i := by
  constructor
  · rintro ⟨v', hv', hruns⟩
    cases hv.symm.trans hv'
    exact hruns
  · exact fun hruns => ⟨v, hv, hruns⟩

/-- There is only one run that a look-up may make of a wrapper. -/
theorem Lookup.runs_unique {l : Lookup} {s : σ} {v : Wrapper} {i j : Invocation}
    (hi : l.Runs s v key i) (hj : l.Runs s v key j) : i = j := by
  cases l with
  | read =>
    rcases hi with hi | hi <;> rcases hj with hj | hj
    · exact hi.unique hj
    · exact absurd hj (Wrapper.not_runsIndex hi.names j)
    · exact absurd hi (Wrapper.not_runsIndex hj.names i)
    · exact hi.unique hj
  | search => exact hi.2.unique hj.2

/-- What reading a key of one object comes to. -/
theorem World.asked_getOwn (haccess : w.heap.AsksMembers id) (key : PropertyKey) :
    w.Asked .read key id ((id.getOwn key).on w) := by
  cases hv : w.heap.wrapper? id with
  | none =>
    rw [on_getOwn_of_not_wrapper hv]
    exact asked_of_not_wrapper _ hv rfl
  | some v =>
    rw [on_getOwn_of_wrapper hv]
    have htried := tried_accessor_get (w := w) (haccess v hv) (v.site w) id key
    exact (htried.orElseFrom _).congr (Lookup.read.exists_runs hv _ key)
      (Heap.answersKey_wrapper hv)

/-- What searching a key in one object comes to. -/
theorem World.asked_hasOwn (haccess : w.heap.AsksMembers id) (key : PropertyKey) :
    w.Asked .search key id ((id.hasOwn key).on w) := by
  cases hv : w.heap.wrapper? id with
  | none =>
    rw [on_hasOwn_of_not_wrapper hv]
    refine asked_of_not_wrapper _ hv ?_
    rw [Option.isSome_or, ← Store.isSome_decides, Bool.or_comm]
    cases ((w.heap.hostError? id).bind (·.intrinsic? key)).isSome <;> rfl
  | some v =>
    have hmay := Lookup.search.exists_runs hv w.host.state key
    rw [on_hasOwn_of_wrapper hv]
    cases hintrinsic : v.subject.intrinsic? key with
    | some value =>
      -- the wrapper is asked before its strategy
      refine tried_of_idle (fun i hi => ?_) (some true) ⟨fun _ => ?_, fun _ => rfl⟩
      · cases hintrinsic.symm.trans ((hmay i).1 hi).1
      · exact .kind v hv (by rw [hintrinsic, Option.isSome_some])
    | none =>
      rw [Option.isSome_none, if_neg Bool.false_ne_true]
      refine ((tried_accessor_has (haccess v hv) key).orElseFrom _).congr (fun i => ?_) ?_
      · rw [hmay]
        exact and_iff_right hintrinsic
      · rw [Heap.answersKey_wrapper hv, hintrinsic, Option.none_or, Store.isSome_decides]

end Object

end Membrane
