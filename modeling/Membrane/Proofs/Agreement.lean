import Membrane.Catalog.Running
import Membrane.Proofs.Prototype

/-!
# Reading and searching agree

A read and a search of a property are two ways through the same layers: the members of the host
value, its index access, what every object of the kind has, the own properties, the prototypes.
`Agree` compares the two outcomes. It holds of one object that is asked both ways in the same world,
and where neither finds anything, both leave the same world. So the two go along the prototypes in
step, and the outcomes of the whole look-ups agree as well.
-/

namespace Membrane

variable {σ : Type}

/-- What a read and a search come to. Where the search finds nothing, neither does the read. The
search fails only by a failure of host code, and the read fails by the same one. In both cases they
leave the same world. Where the search finds something, the read does too or fails. -/
inductive Agree :
    Except ScriptError (Option ScriptValue) × World σ →
      Except ScriptError (Option Bool) × World σ → Prop where
  | absent (w : World σ) : Agree (.ok none, w) (.ok none, w)
  | present {read : Except ScriptError (Option ScriptValue) × World σ} {w : World σ}
      (found : read.1 ≠ .ok none) : Agree read (.ok (some true), w)
  | failed (w : World σ) (e : HostError) :
      Agree (.error (.thrown (.object w.heap.next)), w.pushError e)
        (.error (.thrown (.object w.heap.next)), w.pushError e)

/-! ## Steps -/

variable {α : Type}

/-- What is made of a result is a result. -/
theorem on_bind_some_ne (act : ScriptM σ α) (w : World σ) :
    ((act >>= fun a => pure (some a)).on w).1 ≠ .ok none := by
  rw [ScriptM.on_bind]
  match act.on w with
  | (.ok a, w') => exact nofun
  | (.error e, w') => exact nofun

variable {act : ScriptM σ (Option α)} {w w' : World σ}

/-- A second answer is given where there is no first one. -/
theorem on_orElseFrom_of_none (h : act.on w = (.ok none, w')) (second : Option α) :
    (orElseFrom act second).on w = (.ok second, w') :=
  ScriptM.on_bind_of_ok h _

theorem on_orElseFrom_of_ne (h : (act.on w).1 ≠ .ok none) (second : Option α) :
    (orElseFrom act second).on w = act.on w := by
  rw [orElseFrom, ScriptM.on_bind]
  match hact : act.on w with
  | (.ok none, _) => exact absurd (congrArg Prod.fst hact) h
  | (.ok (some _), _) => rfl
  | (.error _, _) => rfl

theorem on_orElseFrom_some_ne (act : ScriptM σ (Option α)) (second : α) (w : World σ) :
    ((orElseFrom act (some second)).on w).1 ≠ .ok none := by
  rw [orElseFrom, ScriptM.on_bind]
  match act.on w with
  | (.ok none, _) | (.ok (some _), _) | (.error _, _) => exact nofun

variable {ask : ObjectId → ScriptM σ (Option α)} {id : ObjectId}

/-- The next objects are asked where the first one answers nothing. -/
theorem on_firstAlong_of_none (h : (ask id).on w = (.ok none, w')) (rest : List ObjectId) :
    (firstAlong ask (id :: rest)).on w = (firstAlong ask rest).on w' := by
  rw [on_firstAlong_cons, h]

theorem on_firstAlong_of_ne (h : ((ask id).on w).1 ≠ .ok none) (rest : List ObjectId) :
    (firstAlong ask (id :: rest)).on w = (ask id).on w := by
  rw [on_firstAlong_cons]
  match hask : (ask id).on w with
  | (.ok none, _) => exact absurd (congrArg Prod.fst hask) h
  | (.ok (some _), _) => rfl
  | (.error _, _) => rfl

variable [Host σ]

/-- Reading by index yields a value, or the failure of the reader. -/
theorem on_readIndex_cases (host : HostValue) (key : PropertyKey) (w : World σ) :
    (∃ value w', (host.readIndex key).on w = (.ok value, w')) ∨
      ∃ (v : World σ) (e : HostError), (host.readIndex key).on w =
        (.error (.thrown (.object v.heap.next)), v.pushError e) := by
  rw [HostValue.readIndex, ScriptM.on_get_bind]
  cases host.indexReader? w.host.state key with
  | none => exact .inl ⟨.nil, w, rfl⟩
  | some reader =>
    dsimp only
    rw [ScriptM.on_hostCall]
    match hrun : w.invoke (.member host reader [key.toHost]) with
    | (.ok value, w') => exact .inl ⟨value, w', rfl⟩
    | (.error e, w') =>
      have hheap : w.heap = w'.heap := congrArg (·.2.heap) hrun
      exact .inr ⟨w', e, by rw [hheap]⟩

/-! ## One object -/

theorem getNamed_agree (asProperty : σ → HostValue → String → Bool) (site : Site)
    (host : HostValue) (key : PropertyKey) (w : World σ) :
    Agree ((getNamed asProperty site host key).on w) ((hasNamed host key).on w) := by
  rw [getNamed, hasNamed, ScriptM.on_get_bind, ScriptM.on_get_bind]
  dsimp only
  cases host.reader? w.host.state key with
  | some m =>
    refine .present ?_
    dsimp only
    generalize (decide (m.arity = .exactly 0) && _) = asRead
    cases asRead with
    | true =>
      have hread := on_bind_some_ne (ScriptM.hostCall (.member host m []) >>= toScript site) w
      rwa [bind_assoc] at hread
    | false => exact on_bind_some_ne (handOut site m) w
  | none =>
    cases host.writer? w.host.state key with
    | some m => exact .present nofun
    | none =>
      -- neither a reader nor a writer has the name: both read by index, in the same world
      show Agree ((getIndexed site host key).on w) ((do
        if (← host.readIndex key).isNil then return none else return some true).on w)
      rw [getIndexed, ScriptM.on_bind, ScriptM.on_bind]
      rcases on_readIndex_cases host key w with ⟨value, w', hread⟩ | ⟨v, e, hread⟩
      · rw [hread]
        dsimp only
        cases value.isNil with
        | true => exact .absent w'
        | false => exact .present (on_bind_some_ne (toScript site value) w')
      · rw [hread]
        exact .failed v e

/-- Every strategy that does not refuse all access. -/
theorem accessor_agree {accessor : Accessor} (h : accessor ≠ .deny) (site : Site) (host : HostValue)
    (receiver : ObjectId) (key : PropertyKey) (w : World σ) :
    Agree ((accessor.get site host receiver key).on w) ((accessor.has host key).on w) := by
  cases accessor with
  | standard => exact getNamed_agree (fun _ _ _ => true) site host key w
  | attributes => exact getNamed_agree (fun s value name => value.isAttribute s name) site host key w
  | transparent => exact .absent w
  | deny => exact absurd rfl h

omit [Host σ] in
/-- What an object has of itself is found where it is read. -/
theorem own_agree (own : Option ScriptValue) (w : World σ) :
    Agree (.ok own, w) (.ok (if own.isSome then some true else none), w) := by
  cases own with
  | none => exact .absent w
  | some value => exact .present nofun

/-- An object that is asked both ways in the same world gives answers that agree. -/
theorem getOwn_agree {id : ObjectId} (key : PropertyKey)
    (haccess : ∀ v, w.heap.wrapper? id = some v → v.policy.accessor ≠ .deny) :
    Agree ((id.getOwn key).on w) ((id.hasOwn key).on w) := by
  rw [ObjectId.getOwn, ObjectId.hasOwn, ScriptM.on_get_bind, ScriptM.on_get_bind]
  dsimp only
  rcases hkind : w.heap.kind? id with _ | (className | v | e)
  · exact own_agree _ w
  · exact own_agree _ w
  · dsimp only
    have hagree := accessor_agree (haccess v (Heap.wrapper?_eq_some.2 hkind)) (v.site w)
      v.subject.value id key w
    cases hintrinsic : v.subject.intrinsic? key with
    | some value =>
      -- the search stops here; the read asks the strategy first, and then finds the value
      exact .present (on_orElseFrom_some_ne _ value w)
    | none =>
      rw [Option.none_or, Option.isSome_none, if_neg Bool.false_ne_true]
      generalize hread : (v.policy.accessor.get (v.site w) v.subject.value id key).on w = read
        at hagree
      generalize hsearch : (v.policy.accessor.has v.subject.value key).on w = search at hagree
      cases hagree with
      | absent w' =>
        rw [on_orElseFrom_of_none hread, on_orElseFrom_of_none hsearch]
        exact own_agree _ w'
      | failed v e =>
        rw [on_orElseFrom_of_ne (hread ▸ nofun), on_orElseFrom_of_ne (hsearch ▸ nofun), hread,
          hsearch]
        exact .failed v e
      | present found =>
        rw [on_orElseFrom_of_ne (hread ▸ found), on_orElseFrom_of_ne (hsearch ▸ nofun), hread,
          hsearch]
        exact .present found
  · dsimp only
    cases hintrinsic : e.intrinsic? key with
    | some value =>
      refine .present ?_
      cases (w.heap.store id).get? key <;> exact nofun
    | none =>
      rw [Option.or_none]
      exact own_agree _ w

/-! ## Along the prototypes -/

/-- Two look-ups along the same objects stay in step as long as neither finds anything. -/
theorem firstAlong_agree {key : PropertyKey} {ids : List ObjectId}
    (hagree : ∀ id ∈ ids, ∀ w', w.Extends w' →
      Agree ((id.getOwn key).on w') ((id.hasOwn key).on w')) :
    Agree ((firstAlong (·.getOwn key) ids).on w) ((firstAlong (·.hasOwn key) ids).on w) := by
  induction ids generalizing w with
  | nil => exact .absent w
  | cons id rest ih =>
    have hhead := hagree id List.mem_cons_self w (.refl w)
    have hextends : w.Extends ((id.hasOwn key).on w).2 :=
      (ScriptM.Proceeds.hasOwn (t := .any) id key).widens
    generalize hread : (id.getOwn key).on w = read at hhead
    generalize hsearch : (id.hasOwn key).on w = search at hhead hextends
    cases hhead with
    | absent w' =>
      rw [on_firstAlong_of_none hread, on_firstAlong_of_none hsearch]
      exact ih fun x hx w'' hw'' => hagree x (List.mem_cons_of_mem _ hx) w'' (hextends.trans hw'')
    | failed v e =>
      rw [on_firstAlong_of_ne (hread ▸ nofun), on_firstAlong_of_ne (hsearch ▸ nofun), hread,
        hsearch]
      exact .failed v e
    | present found =>
      rw [on_firstAlong_of_ne (hread ▸ found), on_firstAlong_of_ne (hsearch ▸ nofun), hread,
        hsearch]
      exact .present found

/-- **A property is found exactly where reading it does not come to nothing.** Read and search a
property of any object of a reachable world, where no wrapper on its prototype chain refuses all
access. If the read yields a value, the search finds the property. The read yields nothing exactly
if the search does not find it, and then the two leave the same world. If the search fails, it is by
a failure of host code, and the read fails in the same way: with the same error, the thrown wrapping
of one host error, and with the same world left behind. -/
theorem World.Reachable.get_has (hw : w.Reachable) {id : ObjectId} (hid : w.heap.Holds id)
    (key : PropertyKey)
    (haccess : ∀ x ∈ w.heap.chain id, ∀ v, w.heap.wrapper? x = some v →
      v.policy.accessor ≠ .deny) :
    ∃ read found w₁ w₂, (id.get? key).on w = (read, w₁) ∧ (id.has key).on w = (found, w₂) ∧
      (∀ value, read = .ok (some value) → found = .ok true) ∧
      (read = .ok none ↔ found = .ok false) ∧ (found = .ok false → w₁ = w₂) ∧
      ∀ e, found = .error e → read = .error e ∧ w₁ = w₂ ∧
        ∃ x error, e = .thrown (.object x) ∧ w₁.heap.hostError? x = some error := by
  have hchain : ∀ x ∈ w.heap.chain id, ∀ w', w.Extends w' →
      Agree ((x.getOwn key).on w') ((x.hasOwn key).on w') := by
    intro x hx w' hw'
    refine getOwn_agree key fun v hv => haccess x hx v ?_
    rwa [hw'.wrapper? (hw.sound.holds_of_mem_chain hid hx)] at hv
  have hagree := firstAlong_agree hchain
  have hread : (id.get? key).on w = (firstAlong (·.getOwn key) (w.heap.chain id)).on w := rfl
  rw [hread]
  match hfound : (firstAlong (·.hasOwn key) (w.heap.chain id)).on w with
  | (r, w₂) =>
    rw [on_has hfound]
    rw [hfound] at hagree
    generalize (firstAlong (·.getOwn key) (w.heap.chain id)).on w = read at hagree
    cases hagree with
    | absent =>
      exact ⟨_, _, w₂, w₂, rfl, rfl, nofun, ⟨fun _ => rfl, fun _ => rfl⟩, fun _ => rfl, nofun⟩
    | present found =>
      refine ⟨_, _, read.2, w₂, rfl, rfl, fun _ _ => rfl, ⟨?_, nofun⟩, nofun, nofun⟩
      exact fun hnone => absurd hnone found
    | failed v e =>
      refine ⟨_, _, v.pushError e, v.pushError e, rfl, rfl, nofun, ⟨nofun, nofun⟩, nofun, ?_⟩
      rintro _ ⟨⟩
      refine ⟨rfl, rfl, v.heap.next, e, rfl, Heap.hostError?_eq_some.2 ?_⟩
      rw [World.pushError, World.push, Heap.kind?_push, if_pos rfl]

/-- The wrapper of an object whose index cannot be read. -/
def Catalog.withLocked : World Catalog :=
  (World.initial ⟨8, {
      definitions := #[⟨some "locked", .stateMethod (.raise (.runtime "locked"))⟩]
      objects := #[⟨⟨7, "Vault"⟩, {
        className := "Vault"
        methods := [⟨"Vault", "[]", .exactly 1, .code ⟨0⟩ none, none⟩]
        members := ["[]"] }, []⟩]
    }⟩ .standard).after (.wrap ⟨⟨{}, .standard, .standard⟩, none, none⟩ (.object ⟨7, "Vault"⟩))

/-- A property that would be read by index can neither be searched nor read, for the one reason. -/
theorem Catalog.get_has_locked : ∃ w',
    (ObjectId.has ⟨0⟩ (.name "gold")).on withLocked = (.error (.thrown (.object ⟨1⟩)), w') ∧
    (ObjectId.get? ⟨0⟩ (.name "gold")).on withLocked = (.error (.thrown (.object ⟨1⟩)), w') ∧
    w'.heap.hostError? ⟨1⟩ = some (.runtime "locked") := by
  have hw : withLocked.Reachable :=
    (World.initial_reachable _ _).reachable.after (World.serves_none _)
  have haccess : ∀ x ∈ withLocked.heap.chain ⟨0⟩, ∀ v, withLocked.heap.wrapper? x = some v →
      v.policy.accessor ≠ .deny := by
    intro x hx v hv
    obtain rfl : x = ⟨0⟩ := List.mem_singleton.1 hx
    cases hv
    decide
  have hheld : withLocked.heap.Holds ⟨0⟩ := by decide
  obtain ⟨read, found, w₁, w₂, hread, hfound, -, -, -, hfails⟩ :=
    hw.get_has hheld (.name "gold") haccess
  have hlocked : ((ObjectId.has ⟨0⟩ (.name "gold")).on withLocked).1 =
      .error (.thrown (.object ⟨1⟩)) := rfl
  have herror : (((ObjectId.has ⟨0⟩ (.name "gold")).on withLocked).2).heap.hostError? ⟨1⟩ =
      some (.runtime "locked") := rfl
  rw [hfound] at hlocked herror
  obtain ⟨hsame, rfl, -⟩ := hfails _ hlocked
  exact ⟨w₁, hlocked ▸ hfound, hsame ▸ hread, herror⟩

end Membrane
