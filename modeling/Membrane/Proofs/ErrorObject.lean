import Membrane.Catalog.Running
import Membrane.Proofs.Distinct
import Membrane.Proofs.History
import Membrane.Proofs.Reading
import Mathlib.Data.List.Induction

/-!
# Wrapped errors as objects

A wrapped error is open to puts and links only, and it is always extensible, so its own part collects
whatever script code puts there (`Store.Collects`). The name and the message of the host error lie
under the own part and over the prototypes: a search finds them always, a read finds what was put in
their place, and a listing has them first. The host error itself is out of the reach of script code.
-/

namespace Membrane

/-! ## What was put on an object -/

/-- The keys and values that a history puts, in order. -/
def putsIn (history : List Edit) : List (PropertyKey × ScriptValue) :=
  history.filterMap fun
    | .put key value => some (key, value)
    | _ => none

/-- The value that a history puts last under a key. -/
def lastPut (key : PropertyKey) (history : List Edit) : Option ScriptValue :=
  (putsIn history).reverse.lookup key

/-- The keys that a history puts, each at its first place. -/
def putKeys (history : List Edit) : List PropertyKey := ((putsIn history).map (·.1)).eraseDups

section Puts

variable {history : List Edit} {key : PropertyKey} {value : ScriptValue} {e : Edit}

theorem putsIn_concat_put (history : List Edit) (key : PropertyKey) (value : ScriptValue) :
    putsIn (history ++ [.put key value]) = putsIn history ++ [(key, value)] :=
  List.filterMap_append

theorem putsIn_concat_link (history : List Edit) (link : Option ObjectId) :
    putsIn (history ++ [.link link]) = putsIn history := by
  rw [putsIn, List.filterMap_append]
  exact List.append_nil _

theorem lastPut_concat (history : List Edit) (k : PropertyKey) (value : ScriptValue) :
    lastPut key (history ++ [.put k value]) = if key = k then some value else lastPut key history := by
  rw [lastPut, putsIn_concat_put, List.reverse_append, List.reverse_singleton, List.singleton_append,
    List.lookup_cons]
  by_cases hk : key = k
  · rw [if_pos hk, hk, beq_self_eq_true]
  · rw [if_neg hk, beq_false_of_ne hk]
    rfl

theorem putKeys_concat (history : List Edit) (key : PropertyKey) (value : ScriptValue) :
    putKeys (history ++ [.put key value]) =
      if key ∈ putKeys history then putKeys history else putKeys history ++ [key] := by
  rw [putKeys, putsIn_concat_put, List.map_append, List.eraseDups_append, ← putKeys,
    List.map_singleton, List.removeAll]
  by_cases hmem : key ∈ putKeys history
  · rw [if_pos hmem]
    rw [putKeys, List.mem_eraseDups] at hmem
    simp [hmem]
  · rw [if_neg hmem]
    rw [putKeys, List.mem_eraseDups] at hmem
    simp [hmem, List.eraseDups_cons]

end Puts

/-- The own part of an object that is open to puts and links only, after a history: the keys that were
put, in order, each with the value that was put last. -/
structure Store.Collects (s : Store) (history : List Edit) : Prop where
  extensible : s.extensible = true
  keys : s.keys = putKeys history
  value : ∀ key, s.get? key = lastPut key history

namespace Store.Collects

variable {s s' : Store} {history : List Edit} {e : Edit}

theorem nil : Store.Collects {} [] := ⟨rfl, rfl, fun _ => rfl⟩

/-- A link changes nothing but the link. -/
theorem link (h : s.Collects history) {prototype : Option ObjectId}
    (hext : s'.extensible = s.extensible) (hsame : s'.properties = s.properties) :
    s'.Collects (history ++ [.link prototype]) where
  extensible := hext.trans h.extensible
  keys := by
    rw [putKeys, putsIn_concat_link, ← putKeys, ← h.keys]
    exact congrArg (List.map Prod.fst) hsame
  value key := by
    rw [lastPut, putsIn_concat_link, ← lastPut, ← h.value]
    exact congrArg (List.lookup key) hsame

theorem put (h : s.Collects history) (key : PropertyKey) (value : ScriptValue) :
    (s.define key value).Collects (history ++ [.put key value]) where
  extensible := (extensible_define ..).trans h.extensible
  keys := by
    rw [keys_define, putKeys_concat, ← h.keys]
    simp only [contains_eq_true]
  value k := by rw [get?_define, lastPut_concat, h.value]

theorem edits (h : s.Collects history) (he : s.Edits e s') (hopen : ¬ e.IsDirect) :
    s'.Collects (history ++ [e]) := by
  cases he with
  | @taken key value takes => exact h.put key value
  | refused new closed =>
    rw [h.extensible] at closed
    cases closed
  | defined => exact absurd trivial hopen
  | erased => exact absurd trivial hopen
  | closed => exact absurd trivial hopen
  | unlinked => exact h.link rfl rfl
  | linked extensible => exact h.link rfl rfl
  | unmoved => exact h.link rfl rfl

end Store.Collects

/-! ## One wrapped error -/

/-- The keys that a wrapped error has of itself. -/
def errorKeys : List PropertyKey := [.name "name", .name "message"]

theorem HostError.isSome_intrinsic? (e : HostError) {key : PropertyKey} :
    (e.intrinsic? key).isSome = true ↔ key ∈ errorKeys := by
  simp only [errorKeys, List.mem_cons, List.not_mem_nil, or_false]
  unfold intrinsic?
  split
  · simp
  · simp
  case h_3 hname hmessage =>
    simp only [Option.isSome_none, Bool.false_eq_true, false_iff, not_or]
    exact ⟨hname, hmessage⟩

/-- The keys that are listed after those that an error has of itself. -/
theorem HostError.errorKeys_append (e : HostError) (own : List PropertyKey) :
    ([.name "name", .name "message"] ++ own.filter fun key => (e.intrinsic? key).isNone) =
      errorKeys ++ own.filter (· ∉ errorKeys) := by
  have hothers : ∀ key, (e.intrinsic? key).isNone = decide (key ∉ errorKeys) := by
    intro key
    rw [Bool.eq_iff_iff, decide_eq_true_eq, ← e.isSome_intrinsic?, Bool.not_eq_true,
      Option.isSome_eq_false_iff]
  simp only [hothers]
  rfl

section One

variable {σ : Type} [Host σ] {w : World σ} {id : ObjectId} {e : HostError}

omit [Host σ] in
theorem Heap.wrapper?_of_hostError? {h : Heap} (he : h.hostError? id = some e) :
    h.wrapper? id = none := by
  rw [wrapper?, hostError?_eq_some.1 he]

/-- A search finds what an error has of itself, whatever was put there. -/
theorem on_has_of_hostError (he : w.heap.hostError? id = some e) {key : PropertyKey}
    (hkey : key ∈ errorKeys) : (id.has key).on w = (.ok true, w) := by
  refine on_has_of_own (Heap.holds_of_kind? (Heap.hostError?_eq_some.1 he)) ?_
  rw [on_hasOwn_of_not_wrapper (Heap.wrapper?_of_hostError? he), he, Option.bind_some,
    if_pos (e.isSome_intrinsic?.2 hkey)]

/-- A read finds it unless something was put in its place, and never goes on to the prototypes. -/
theorem on_get?_of_hostError (he : w.heap.hostError? id = some e) {key : PropertyKey}
    {value : ScriptValue} (hvalue : e.intrinsic? key = some value) :
    (id.get? key).on w = (.ok (some (((w.heap.store id).get? key).getD value)), w) := by
  refine on_get?_of_own (Heap.holds_of_kind? (Heap.hostError?_eq_some.1 he)) ?_
  rw [on_getOwn_of_not_wrapper (Heap.wrapper?_of_hostError? he), he, Option.bind_some, hvalue]
  cases (w.heap.store id).get? key <;> rfl

end One

/-! ## Over a course -/

section Courses

variable {σ : Type} [Host σ] {w w' : World σ} {id : ObjectId} {e : HostError}

/-- **A wrapped error keeps its name and its message, and script code cannot reach the host error.**
Take a new wrapped error in a reachable world, and any course of moves. In the end a search finds the
name and the message. A read of one of them yields the value that was put last in its place, or else
the class or the message of the host error, whatever the prototypes have. The listing has both first,
then the other keys that were put, in the order in which they came, and no key twice. Every further
put is taken. The object still carries the host error, and is written as that. -/
theorem World.Reachable.error_object (hw : w.Reachable) (he : w.heap.hostError? id = some e)
    (hnew : w.heap.store id = {}) {moves : List (Move σ)} (h : w.Course moves w') :
    let history := editsOf id moves
    let listed := errorKeys ++ (putKeys history).filter (· ∉ errorKeys)
    (∀ key ∈ errorKeys, (id.has key).on w' = (.ok true, w')) ∧
    (id.get? (.name "name")).on w' =
      (.ok (some ((lastPut (.name "name") history).getD (.string e.className))), w') ∧
    (id.get? (.name "message")).on w' =
      (.ok (some ((lastPut (.name "message") history).getD (.string e.message))), w') ∧
    (id.ids).on w' = (.ok listed, w') ∧ listed.Nodup ∧
    (∀ key value, ((id.put key value).on w').1 = .ok ()) ∧
    w'.heap.carried? (.object id) = some e ∧ w'.view.render (.object id) = e.render := by
  intro history listed
  have hkind := Heap.hostError?_eq_some.1 he
  have htold := h.tells_of_kind hw.sound hkind (fun _ => nofun)
    (P := fun history s => s.Collects history) (hnew ▸ .nil) ?step
  case step =>
    intro history s e' s' hprior hedits hdirect
    refine hprior.edits hedits fun hisDirect => ?_
    obtain ⟨className, hordinary⟩ := hdirect hisDirect
    cases hordinary
  obtain ⟨hkind', hown⟩ := htold
  have hw' := hw.trans h.reaches
  have he' := Heap.hostError?_eq_some.2 hkind'
  refine ⟨fun key => on_has_of_hostError he', ?_, ?_, ?_, ?_, fun key value => ?_, he', ?_⟩
  · have hname : e.intrinsic? (.name "name") = some (.string e.className) := rfl
    rw [on_get?_of_hostError he' hname, hown.value]
  · have hmessage : e.intrinsic? (.name "message") = some (.string e.message) := rfl
    rw [on_get?_of_hostError he' hmessage, hown.value]
  · rw [on_ids_of_hostError hkind', hown.keys, e.errorKeys_append]
  · have hnodup : (putKeys history).Nodup := hown.keys ▸ hw'.distinct id
    have hids := e.nodup_ids hnodup
    rw [e.errorKeys_append] at hids
    exact hids
  · rw [on_put_of_not_wrapper (Heap.wrapper?_of_hostError? he'), hown.extensible, Bool.or_true]
    rfl
  · rw [View.render, View.objectText, World.view, hkind']

end Courses

namespace Catalog

/-- An object with a message, and the wrapped error of a failure. -/
def withError : World Catalog :=
  (((World.initial ⟨0, {}⟩ .standard).after (.ordinary "Object")).after
    (.define ⟨0⟩ (.name "message") (.string "inherited"))).after (.wrapError (.runtime "disk full"))

/-- The error inherits from the object, and gets a code, another name and another code. -/
def rewritten : List (Move Catalog) :=
  [.setPrototype ⟨1⟩ (some ⟨0⟩), .put ⟨1⟩ (.name "code") (.boolean false),
    .put ⟨1⟩ (.name "name") (.string "DiskError"), .put ⟨1⟩ (.name "code") (.boolean true)]

/-- The name is the one that was put, the message is the one of the host error. -/
theorem error_object_rewritten :
    let w' := rewritten.foldl World.after withError
    (ObjectId.get? ⟨1⟩ (.name "name")).on w' = (.ok (some (.string "DiskError")), w') ∧
    (ObjectId.get? ⟨1⟩ (.name "message")).on w' = (.ok (some (.string "disk full")), w') ∧
    (ObjectId.ids ⟨1⟩).on w' = (.ok [.name "name", .name "message", .name "code"], w') ∧
    w'.heap.carried? (.object ⟨1⟩) = some (.runtime "disk full") := by
  have hw : withError.Reachable :=
    (((World.initial_reachable _ _).reachable.after (m := .ordinary _) trivial).after
      (m := .define _ _ _) ⟨_, rfl⟩).after (m := .wrapError _) trivial
  have hheld : ∀ {w : World Catalog} {key value}, w.heap.Holds ⟨1⟩ →
      (Move.put ⟨1⟩ key value : Move Catalog).Allowed w := id
  have hcourse : withError.Course rewritten (rewritten.foldl World.after withError) := by
    have hlinked := World.Course.next (w := withError) .none
      (m := .setPrototype ⟨1⟩ (some ⟨0⟩)) ⟨by decide, fun x hx => Option.some.inj hx ▸ by decide⟩
    have hcode := hlinked.next (m := .put ⟨1⟩ (.name "code") (.boolean false)) (hheld (by decide))
    have hname := hcode.next (m := .put ⟨1⟩ (.name "name") (.string "DiskError"))
      (hheld (by decide))
    exact hname.next (m := .put ⟨1⟩ (.name "code") (.boolean true)) (hheld (by decide))
  have he : withError.heap.hostError? ⟨1⟩ = some (.runtime "disk full") := rfl
  have hnew : withError.heap.store ⟨1⟩ = {} := rfl
  obtain ⟨-, hname, hmessage, hids, -, -, hcarried, -⟩ :=
    hw.error_object he hnew hcourse
  exact ⟨hname, hmessage, hids, hcarried⟩

end Catalog

end Membrane
