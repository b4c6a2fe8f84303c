import Membrane.Catalog.Running
import Membrane.Proofs.Reach
import Mathlib.Data.List.Forall2

/-!
# The keys that a wrapper lists

A wrapper lists its own keys and then those that its host value offers. The second part folds the
mark of a writer off each member and keeps every name at its first place; the first part is the own
keys as they were added, or the other way round. Both are loops, and both are shown equal to
functions of the library here: `List.eraseDups` and `List.reverse`.
-/

namespace Membrane

/-! ## Folding writers into readers -/

/-- A member stands for a name: as the writer of it, or, if it writes no name, by its own. Of
several marks at the end of a member only the last is one of a writer. -/
inductive FoldsTo : String → String → Prop where
  | writer (name : String) : FoldsTo (writerName name) name
  | plain (name : String) (unmarked : ∀ n, name ≠ writerName n) : FoldsTo name name

theorem toList_writerName (name : String) : (writerName name).toList = name.toList ++ ['='] :=
  String.toList_append

theorem foldedName_writerName (name : String) : foldedName (writerName name) = name := by
  have hlast : (writerName name).toList.getLast? = some '=' := by
    rw [toList_writerName, List.getLast?_concat]
  rw [foldedName, if_pos hlast, toList_writerName, List.dropLast_concat, String.ofList_toList]

theorem foldedName_of_unmarked {member : String} (h : ∀ n, member ≠ writerName n) :
    foldedName member = member := by
  rw [foldedName, if_neg fun hlast => ?_]
  obtain ⟨front, hfront⟩ := List.getLast?_eq_some_iff.1 hlast
  refine h (String.ofList front) (String.toList_inj.1 ?_)
  rw [toList_writerName, String.toList_ofList, hfront]

/-- Every member stands for exactly one name. -/
theorem foldsTo_iff {member name : String} : FoldsTo member name ↔ foldedName member = name := by
  constructor
  · rintro (_ | ⟨_, unmarked⟩)
    · exact foldedName_writerName name
    · exact foldedName_of_unmarked unmarked
  · rintro rfl
    by_cases h : ∃ n, member = writerName n
    · obtain ⟨n, rfl⟩ := h
      rw [foldedName_writerName]
      exact .writer n
    · have hunmarked : ∀ n, member ≠ writerName n := fun n hn => h ⟨n, hn⟩
      rw [foldedName_of_unmarked hunmarked]
      exact .plain member hunmarked

/-! ## Each name once -/

/-- The key of the name that a member stands for. -/
def foldedKey (member : String) : PropertyKey := .name (foldedName member)

/-- One step of the loop over the members: a key that is listed already adds nothing. -/
def listMember (keys : List PropertyKey) (member : String) : List PropertyKey :=
  if foldedKey member ∈ keys then keys else keys ++ [foldedKey member]

theorem foldedKeys_eq_foldl (members : List String) :
    foldedKeys members = members.foldl listMember [] := rfl

theorem removeAll_concat (keys listed : List PropertyKey) (key : PropertyKey) :
    keys.removeAll (listed ++ [key]) = (keys.removeAll listed).filter fun k => !k == key := by
  rw [List.removeAll, List.removeAll, List.filter_filter]
  refine List.filter_congr fun k _ => ?_
  by_cases hk : k = key <;> simp [hk]

/-- The loop adds to a list what is not on it yet, each key at its first place. -/
theorem foldl_listMember (members : List String) (keys : List PropertyKey) :
    members.foldl listMember keys =
      keys ++ ((members.map foldedKey).removeAll keys).eraseDups := by
  induction members generalizing keys with
  | nil => exact (List.append_nil keys).symm
  | cons member rest ih =>
    rw [List.foldl_cons, ih, List.map_cons, listMember]
    -- a key that is listed already is dropped on both sides, and a new one heads what is added
    by_cases hlisted : foldedKey member ∈ keys
    · rw [if_pos hlisted, List.cons_removeAll, if_neg (by simpa using hlisted)]
    · rw [if_neg hlisted, List.cons_removeAll, if_pos (by simpa using hlisted),
        List.eraseDups_cons, List.append_assoc, List.singleton_append, removeAll_concat]

/-- The keys of the members are those of their names, each at its first place. -/
theorem foldedKeys_eq (members : List String) :
    foldedKeys members = (members.map foldedKey).eraseDups := by
  rw [foldedKeys_eq_foldl, foldl_listMember, List.removeAll_nil, List.nil_append]

theorem nodup_listMember {keys : List PropertyKey} (h : keys.Nodup) (member : String) :
    (listMember keys member).Nodup := by
  unfold listMember
  split
  case isTrue => exact h
  case isFalse hunlisted =>
    rw [← List.concat_eq_append]
    exact h.concat hunlisted

theorem nodup_foldedKeys (members : List String) : (foldedKeys members).Nodup := by
  rw [foldedKeys_eq_foldl]
  exact List.foldlRecOn members listMember List.nodup_nil fun _ h member _ =>
    nodup_listMember h member

theorem mem_foldedKeys {members : List String} {key : PropertyKey} :
    key ∈ foldedKeys members ↔
      ∃ member ∈ members, ∃ name, FoldsTo member name ∧ key = .name name := by
  rw [foldedKeys_eq, List.mem_eraseDups, List.mem_map]
  refine exists_congr fun member => and_congr_right fun _ => ?_
  constructor
  · rintro rfl
    exact ⟨_, foldsTo_iff.2 rfl, rfl⟩
  · rintro ⟨name, hfolds, rfl⟩
    rw [foldedKey, foldsTo_iff.1 hfolds]

/-- A name that no member before stands for is listed at the place of its first member. -/
theorem foldedKeys_append_cons {before after : List String} {member name : String}
    (hfolds : FoldsTo member name) (hfirst : ∀ earlier ∈ before, ¬ FoldsTo earlier name) :
    ∃ rest, foldedKeys (before ++ member :: after) = foldedKeys before ++ .name name :: rest := by
  have hkey : foldedKey member = .name name := by rw [foldedKey, foldsTo_iff.1 hfolds]
  have hunlisted : .name name ∉ foldedKeys before := by
    intro hmem
    obtain ⟨earlier, hearlier, name', hfolds', hname⟩ := mem_foldedKeys.1 hmem
    cases hname
    exact hfirst earlier hearlier hfolds'
  -- the loop has listed the keys of `before` when it comes to the member
  rw [foldedKeys_eq_foldl, List.foldl_append, List.foldl_cons, ← foldedKeys_eq_foldl, listMember,
    hkey, if_neg hunlisted, foldl_listMember, List.append_assoc, List.singleton_append]
  exact ⟨_, rfl⟩

/-! ## A wrapper -/

/-- One at a time, keys come before a list in reverse. -/
theorem keysInFront_eq (keys listed : List PropertyKey) :
    keysInFront keys listed = keys.reverse ++ listed := by
  have hfold : keysInFront keys listed = (keys.map id).reverse ++ listed :=
    List.foldl_flip_cons_eq_append
  rwa [List.map_id] at hfold

/-- The own keys in an order. -/
def IdOrder.arrange (own : List PropertyKey) : IdOrder → List PropertyKey
  | asDefined => own
  | newestFirst => own.reverse

theorem IdOrder.perm_arrange (order : IdOrder) (own : List PropertyKey) :
    (order.arrange own).Perm own := by
  cases order with
  | newestFirst => exact own.reverse_perm
  | asDefined => exact .refl own

variable {σ : Type} [Host σ] {w : World σ} {id : ObjectId} {v : Wrapper}

/-- A wrapper lists its own keys in the order of its policy, and then those of the members. -/
theorem on_ids_of_wrapper (hv : w.heap.wrapper? id = some v) :
    (id.ids).on w = (.ok (v.policy.config.idOrder.arrange (w.heap.store id).keys ++
      foldedKeys (v.subject.value.members w.host.state)), w) := by
  rw [ObjectId.ids, ScriptM.on_get_bind]
  dsimp only
  rw [Heap.wrapper?_eq_some.1 hv]
  dsimp only
  cases v.policy.config.idOrder with
  | newestFirst =>
    rw [keysInFront_eq]
    rfl
  | asDefined => rfl

/-- **A wrapper lists its own keys, and then each name that a member of its host value stands for
once.** The own keys come in the order of their addition or the other way round, as the policy asks
for. A member stands for one name: as its writer, or by its own name. The names come in the order of
their first members, without repetition, so a reader and its writer are listed once, at the place of
whichever comes first; no other key is listed, and none is left out. A wrapper of the same host
value with the same own keys lists under any other policy the same keys of the host behind the same
own keys in some order. -/
theorem World.ids_wrapper (hv : w.heap.wrapper? id = some v) :
    ∃ listed,
      (id.ids).on w =
        (.ok ((match v.policy.config.idOrder with
          | .asDefined => (w.heap.store id).keys
          | .newestFirst => (w.heap.store id).keys.reverse) ++ listed), w) ∧
      (∃ names, List.Forall₂ FoldsTo (v.subject.value.members w.host.state) names ∧
        listed = (names.map PropertyKey.name).eraseDups) ∧
      listed.Nodup ∧
      (∀ key, key ∈ listed ↔ ∃ member ∈ v.subject.value.members w.host.state,
        ∃ name, FoldsTo member name ∧ key = .name name) ∧
      (∀ before member after name,
        v.subject.value.members w.host.state = before ++ member :: after →
        FoldsTo member name → (∀ earlier ∈ before, ¬ FoldsTo earlier name) →
        ∃ rest, listed = foldedKeys before ++ .name name :: rest) ∧
      ∀ (u : World σ) (v' : Wrapper), u.heap.wrapper? id = some v' → v'.subject = v.subject →
        u.host.state = w.host.state → (u.heap.store id).keys = (w.heap.store id).keys →
        ∃ own, (id.ids).on u = (.ok (own ++ listed), u) ∧ own.Perm (w.heap.store id).keys := by
  refine ⟨foldedKeys (v.subject.value.members w.host.state), ?_, ?_, nodup_foldedKeys _,
    fun key => mem_foldedKeys, ?_, ?_⟩
  · rw [on_ids_of_wrapper hv]
    cases v.policy.config.idOrder <;> rfl
  · refine ⟨(v.subject.value.members w.host.state).map foldedName, ?_, ?_⟩
    · rw [List.forall₂_map_right_iff, List.forall₂_same]
      exact fun member _ => foldsTo_iff.2 rfl
    · rw [foldedKeys_eq, List.map_map]
      rfl
  · rintro before member after name hmembers hfolds hfirst
    rw [hmembers]
    exact foldedKeys_append_cons hfolds hfirst
  · intro u v' hv' hsubject hstate hown
    refine ⟨_, on_ids_of_wrapper hv' |>.trans ?_, IdOrder.perm_arrange v'.policy.config.idOrder _⟩
    rw [hsubject, hstate, hown]

namespace Catalog

/-- The wrapper of an object that lists a writer before its reader, and a name with two marks. The
wrapper has two properties of its own. -/
def withMarks : World Catalog :=
  let wrapped := (World.initial ⟨8, {
      objects := #[⟨⟨7, "Point"⟩, {
        className := "Point", methods := [], members := ["x=", "y", "x", "z=="] }, []⟩]
    }⟩ .standard).after (.wrap ⟨⟨{}, .standard, .standard⟩, none, none⟩ (.object ⟨7, "Point"⟩))
  (wrapped.after (.put ⟨0⟩ (.name "a") .null)).after (.put ⟨0⟩ (.name "y") .null)

/-- The last own property comes first, and the reader is listed at the place of its writer, once. -/
theorem ids_withMarks : ∃ listed rest,
    (ObjectId.ids ⟨0⟩).on withMarks = (.ok ([.name "y", .name "a"] ++ listed), withMarks) ∧
      listed = .name "x" :: rest ∧ listed.Nodup ∧ .name "z=" ∈ listed := by
  have hv : withMarks.heap.wrapper? ⟨0⟩ =
      some ⟨.object ⟨7, "Point"⟩, ⟨{}, .standard, .standard⟩, none, none⟩ := rfl
  obtain ⟨listed, hids, -, hnodup, hmem, hplace, -⟩ := World.ids_wrapper hv
  obtain ⟨rest, hrest⟩ := hplace [] "x=" ["y", "x", "z=="] "x" rfl (.writer "x") fun _ h => by
    cases h
  exact ⟨listed, rest, hids, hrest, hnodup, (hmem _).2 ⟨"z==", by decide, "z=", .writer "z=", rfl⟩⟩

/-- Of two marks only the last is folded away. -/
example : foldedKeys ["x=", "y", "x", "z=="] = [.name "x", .name "y", .name "z="] := by decide

end Catalog

end Membrane
