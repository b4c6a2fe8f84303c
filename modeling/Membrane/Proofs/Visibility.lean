import Membrane.Proofs.Consultation
import Membrane.Proofs.Listing

/-!
# Listed keys are found

Listing a wrapper goes through the members that its host value lists, and searching it through those
that the host value answers with. Where the host value answers with each member that it lists, the
two meet: what is listed is found. Internal names are the exception. A host may list them, but it is
never asked for them.
-/

namespace Membrane

variable {σ : Type} [Host σ] {w : World σ} {id : ObjectId} {v : Wrapper} {key : PropertyKey}

/-- The host value of a wrapper answers with every member that it lists. -/
def Wrapper.Resolves (s : σ) (v : Wrapper) : Prop :=
  ∀ member ∈ v.subject.value.members s, (v.subject.value.member? s member).isSome = true

/-- Reading a key of the host value by index does not fail, if it can be read at all. -/
def World.ReadsIndex (w : World σ) (host : HostValue) (key : PropertyKey) : Prop :=
  ∀ m, host.indexReader? w.host.state key = some m →
    ∃ value, (w.directly (Invocation.member host m [key.toHost]).run).1 = .ok value

/-- A key is named by the member that it is listed for, unless it is internal. -/
theorem Wrapper.Resolves.names {s : σ} (h : v.Resolves s) (external : key.isInternal = false)
    (hlisted : key ∈ foldedKeys (v.subject.value.members s)) : v.Names s key := by
  obtain ⟨member, hmember, name, hfolds, hkey⟩ := mem_foldedKeys.1 hlisted
  obtain ⟨m, hm⟩ := Option.isSome_iff_exists.1 (h member hmember)
  cases hfolds with
  | writer _ => exact .writer _ m hkey external hm
  | plain _ unmarked => exact .reader _ m hkey external hm

/-- Reading by index that does not fail yields a value. -/
theorem World.ReadsIndex.exists_on_readIndex {host : HostValue} (hindex : w.ReadsIndex host key) :
    ∃ value w', (host.readIndex key).on w = (.ok value, w') := by
  rw [HostValue.readIndex, ScriptM.on_get_bind]
  cases hreader : host.indexReader? w.host.state key with
  | none => exact ⟨.nil, w, rfl⟩
  | some m =>
    obtain ⟨value, hvalue⟩ := hindex m hreader
    have hinvoke : w.invoke (.member host m [key.toHost]) = (.ok value, _) := Prod.ext hvalue rfl
    dsimp only
    rw [ScriptM.on_hostCall, hinvoke]
    exact ⟨value, _, rfl⟩

/-- A search in a host value whose index reader does not fail finds the key or leaves it. -/
theorem World.ReadsIndex.on_accessor_has (hindex : w.ReadsIndex v.subject.value key)
    (haccess : v.policy.accessor.AsksMembers) :
    ∃ w', (v.policy.accessor.has v.subject.value key).on w = (.ok (some true), w') ∨
      ¬ v.Names w.host.state key ∧
        (v.policy.accessor.has v.subject.value key).on w = (.ok none, w') := by
  obtain ⟨hfound, hindexed⟩ := Membrane.on_accessor_has (w := w) haccess key
  by_cases hnames : v.Names w.host.state key
  · exact ⟨w, .inl (hfound hnames)⟩
  · obtain ⟨value, w', hread⟩ := hindex.exists_on_readIndex
    rw [hindexed hnames, ScriptM.on_bind_of_ok hread]
    refine ⟨w', ?_⟩
    cases value.isNil with
    | true => exact .inr ⟨hnames, rfl⟩
    | false => exact .inl rfl

/-- A wrapper finds its own keys and those that something of its host value is named by. -/
theorem World.ReadsIndex.on_has (hv : w.heap.wrapper? id = some v)
    (hindex : w.ReadsIndex v.subject.value key) (haccess : v.policy.accessor.AsksMembers)
    (hkey : (w.heap.store id).contains key = true ∨ v.Names w.host.state key) :
    ((id.has key).on w).1 = .ok true := by
  have hown : ∃ w', (id.hasOwn key).on w = (.ok (some true), w') := by
    rw [on_hasOwn_of_wrapper hv]
    cases hintrinsic : (v.subject.intrinsic? key).isSome with
    | true => exact ⟨w, rfl⟩
    | false =>
      rw [if_neg Bool.false_ne_true]
      -- only a key that nothing is named by is left to the own properties
      obtain ⟨w', hfound | ⟨hunnamed, hleft⟩⟩ := hindex.on_accessor_has haccess
      · exact ⟨w', (on_orElseFrom_of_ne (hfound ▸ nofun) _).trans hfound⟩
      · rw [on_orElseFrom_of_none hleft, Store.decides, if_pos (hkey.resolve_right hunnamed)]
        exact ⟨w', rfl⟩
  obtain ⟨w', hown⟩ := hown
  rw [on_has_of_own (Heap.holds_of_wrapper? hv) hown]

/-- **A wrapper finds what it lists, internal names of the host excepted.** Take a wrapper of any
kind whose strategy asks the members of its host value, where the host value answers with every
member that it lists, and reading by index does not fail. Listing it runs nothing. Every key that it
lists is found by a search, if it is one of its own properties or not internal. An internal name is
found where an object along the prototypes has it as an own property, since no host is asked for
it. -/
theorem World.ids_found (hv : w.heap.wrapper? id = some v)
    (haccess : v.policy.accessor.AsksMembers) (hresolves : v.Resolves w.host.state)
    (hindex : ∀ key, w.ReadsIndex v.subject.value key) :
    ∃ keys, (id.ids).on w = (.ok keys, w) ∧
      ∀ key ∈ keys,
        ((w.heap.store id).contains key = true ∨ key.isInternal = false →
          ((id.has key).on w).1 = .ok true) ∧
        (key.isInternal = true → (∀ x ∈ w.heap.chain id, w.heap.AsksMembers x) →
          (id.has key).on w =
            (.ok ((w.heap.chain id).any fun x => (w.heap.store x).contains key), w)) := by
  refine ⟨_, on_ids_of_wrapper hv, fun key hkey => ⟨fun hseen => ?_, fun internal hchain => ?_⟩⟩
  · refine (hindex key).on_has hv haccess ?_
    by_cases hown : (w.heap.store id).contains key = true
    · exact .inl hown
    · have hlisted : key ∈ foldedKeys (v.subject.value.members w.host.state) := by
        refine (List.mem_append.1 hkey).resolve_left fun harranged => hown ?_
        exact Store.contains_eq_true.2 ((IdOrder.perm_arrange _ _).mem_iff.1 harranged)
      exact .inr (hresolves.names (hseen.resolve_left hown) hlisted)
  · rw [on_has_of_internal internal hchain, findSome?_decides]

namespace Catalog

/-- An object with a reader, an index reader and a member under an internal name. -/
def vault : HostObject := ⟨7, "Vault"⟩

/-- An index reader that always answers `nil`. -/
def noIndex : Member := ⟨"Vault", "[]", .exactly 1, .code ⟨0⟩ none, none⟩

/-- The wrapper of this object, with a property of its own. -/
def withVault : World Catalog :=
  ((World.initial ⟨8, {
      definitions := #[⟨some "body", .stateMethod (.const .nil)⟩]
      objects := #[⟨vault, {
        className := "Vault"
        methods := [⟨"Vault", "x", .exactly 0, .code ⟨0⟩ none, none⟩, noIndex,
          ⟨"Vault", "__x__", .exactly 0, .code ⟨0⟩ none, none⟩]
        members := ["x", "__x__"] }, []⟩]
    }⟩ .standard).after (.wrap ⟨⟨{}, .standard, .standard⟩, none, none⟩ (.object vault))).after
    (.put ⟨0⟩ (.name "label") .null)

theorem withVault_reachable : withVault.Reachable := by
  refine ((World.initial_reachable _ _).reachable.after ?wrapped).after ?written
  case wrapped => exact World.serves_none _
  case written =>
    show Heap.Holds _ _
    decide

theorem wrapper?_withVault : withVault.heap.wrapper? ⟨0⟩ =
    some ⟨.object vault, ⟨{}, .standard, .standard⟩, none, none⟩ := rfl

theorem resolves_withVault : Wrapper.Resolves withVault.host.state
    ⟨.object vault, ⟨{}, .standard, .standard⟩, none, none⟩ := by
  show ∀ member ∈ ["x", "__x__"],
    ((HostValue.object vault).member? withVault.host.state member).isSome = true
  decide

theorem readsIndex_withVault (key : PropertyKey) :
    withVault.ReadsIndex (.object vault) key := by
  intro m hm
  obtain ⟨-, hfound, -⟩ := HostValue.indexReader?_eq_some.1 hm
  obtain rfl : noIndex = m := Option.some.inj hfound
  exact ⟨.nil, rfl⟩

/-- The reader and the own property are found. -/
theorem ids_found_withVault : ∃ keys, (ObjectId.ids ⟨0⟩).on withVault = (.ok keys, withVault) ∧
    (.name "label" ∈ keys ∧ ((ObjectId.has ⟨0⟩ (.name "label")).on withVault).1 = .ok true) ∧
    .name "x" ∈ keys ∧ ((ObjectId.has ⟨0⟩ (.name "x")).on withVault).1 = .ok true := by
  obtain ⟨keys, hids, hfound⟩ := World.ids_found wrapper?_withVault (.inl rfl) resolves_withVault
    readsIndex_withVault
  obtain rfl : [.name "label", .name "x", .name "__x__"] = keys :=
    Except.ok.inj (congrArg Prod.fst hids)
  exact ⟨_, hids, ⟨by decide, (hfound _ (by decide)).1 (.inl (by decide))⟩,
    by decide, (hfound _ (by decide)).1 (.inr (by decide))⟩

/-- The internal name is listed, and not found. -/
theorem internal_not_found : withVault.Reachable ∧
    Wrapper.Resolves withVault.host.state
      ⟨.object vault, ⟨{}, .standard, .standard⟩, none, none⟩ ∧
    (∀ key, withVault.ReadsIndex (.object vault) key) ∧
    (∃ keys, (ObjectId.ids ⟨0⟩).on withVault = (.ok keys, withVault) ∧ .name "__x__" ∈ keys) ∧
    ((ObjectId.has ⟨0⟩ (.name "__x__")).on withVault).1 = .ok false :=
  ⟨withVault_reachable, resolves_withVault, readsIndex_withVault,
    ⟨[.name "label", .name "x", .name "__x__"], rfl, by decide⟩, rfl⟩

end Catalog

end Membrane
