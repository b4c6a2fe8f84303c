import Membrane.Proofs.Isolation
import Mathlib.Data.List.Induction

/-!
# Histories of objects

A `Course` is a run of moves, with the moves in their order. What it does to the own part of one
object that is no wrapper is told by the edits of that object alone (`editsOf`): a move on the object
makes of the own part what its edit may make of it (`Store.Edits`), and any other move leaves it as
it is. So a fact about the own part over a course is proved by induction on a history of edits
(`World.Course.tells_of_kind`), whatever else happened in between. Ordinary objects can be edited in
every way, wrapped errors only by puts and links.
-/

namespace Membrane

variable {σ : Type}

/-! ## Edits -/

/-- What can be asked for on the own part of an object. -/
inductive Edit where
  | put (key : PropertyKey) (value : ScriptValue)
  | define (key : PropertyKey) (value : ScriptValue)
  | erase (key : PropertyKey)
  | preventExtensions
  | link (prototype : Option ObjectId)
deriving DecidableEq, Repr

/-- The edit goes past every strategy. Only an ordinary object is open to it. -/
def Edit.IsDirect : Edit → Prop
  | define .. | erase _ | preventExtensions => True
  | put .. | link _ => False

/-- What an edit makes of an own part. Whether an extensible object takes a link depends on the
other objects. -/
inductive Store.Edits (s : Store) : Edit → Store → Prop where
  | taken {key : PropertyKey} {value : ScriptValue}
      (takes : s.contains key = true ∨ s.extensible = true) :
      Edits s (.put key value) (s.define key value)
  | refused {key : PropertyKey} {value : ScriptValue} (new : s.contains key = false)
      (closed : s.extensible = false) : Edits s (.put key value) s
  | defined {key : PropertyKey} {value : ScriptValue} :
      Edits s (.define key value) (s.define key value)
  | erased {key : PropertyKey} : Edits s (.erase key) (s.erase key)
  | closed : Edits s .preventExtensions s.preventExtensions
  | unlinked : Edits s (.link none) { s with prototype := none }
  | linked {x : ObjectId} (extensible : s.extensible = true) :
      Edits s (.link (some x)) { s with prototype := some x }
  | unmoved {x : ObjectId} : Edits s (.link (some x)) s

/-- What a move edits, and how. -/
def Move.request? : Move σ → Option (ObjectId × Edit)
  | .put id key value => some (id, .put key value)
  | .define id key value => some (id, .define key value)
  | .erase id key => some (id, .erase key)
  | .preventExtensions id => some (id, .preventExtensions)
  | .setPrototype id link => some (id, .link link)
  | _ => none

/-- The edit of an object that a move asks for. -/
def Move.edit? (id : ObjectId) (m : Move σ) : Option Edit :=
  (m.request?.filter fun request => request.1 = id).map (·.2)

theorem Move.edit?_eq_some {id : ObjectId} {m : Move σ} {e : Edit} :
    m.edit? id = some e ↔ m.request? = some (id, e) := by
  simp only [Move.edit?, Option.map_eq_some_iff, Option.filter_eq_some_iff, decide_eq_true_eq]
  constructor
  · rintro ⟨⟨x, e'⟩, ⟨hrequest, rfl⟩, rfl⟩
    exact hrequest
  · intro hrequest
    exact ⟨(id, e), ⟨hrequest, rfl⟩, rfl⟩

/-- A move edits the object whose own part it may change. -/
theorem Move.object?_eq (m : Move σ) : m.object? = m.request?.map (·.1) := by
  cases m <;> rfl

/-- The edits of an object that moves ask for. -/
def editsOf (id : ObjectId) (moves : List (Move σ)) : List Edit := moves.filterMap (·.edit? id)

theorem editsOf_concat (id : ObjectId) (moves : List (Move σ)) (m : Move σ) :
    editsOf id (moves ++ [m]) = editsOf id moves ++ (m.edit? id).toList := by
  rw [editsOf, List.filterMap_append, ← editsOf, List.filterMap_cons]
  cases m.edit? id <;> rfl

/-! ## Ordinary objects -/

section One

variable [Host σ] {w : World σ} {id : ObjectId}

/-- An ordinary object answers with its own part. -/
theorem on_ids_of_isOrdinary (ho : w.heap.IsOrdinary id) :
    (id.ids).on w = (.ok (w.heap.store id).keys, w) := by
  obtain ⟨className, hkind⟩ := ho
  rw [ObjectId.ids, ScriptM.on_get_bind, hkind]
  rfl

theorem on_getOwn_of_isOrdinary (ho : w.heap.IsOrdinary id) (key : PropertyKey) :
    (id.getOwn key).on w = (.ok ((w.heap.store id).get? key), w) := by
  obtain ⟨className, hkind⟩ := ho
  rw [ObjectId.getOwn, ScriptM.on_get_bind, hkind]
  rfl

/-- Writing to an object that is no wrapper gives it an own property, unless the property would be
new and the object takes no new ones. -/
theorem on_put_of_not_wrapper (hv : w.heap.wrapper? id = none) (key : PropertyKey)
    (value : ScriptValue) :
    (id.put key value).on w =
      if (w.heap.store id).contains key || (w.heap.store id).extensible then
        (.ok (), w.setStore id ((w.heap.store id).define key value))
      else (.error (.fault (.notExtensible key)), w) := by
  rw [ObjectId.put, ScriptM.on_get_bind, hv]
  exact on_putOwn id key value w

theorem on_put_of_isOrdinary (ho : w.heap.IsOrdinary id) (key : PropertyKey) (value : ScriptValue) :
    (id.put key value).on w =
      if (w.heap.store id).contains key || (w.heap.store id).extensible then
        (.ok (), w.setStore id ((w.heap.store id).define key value))
      else (.error (.fault (.notExtensible key)), w) :=
  on_put_of_not_wrapper ho.wrapper? key value

/-! ## One move -/

omit [Host σ] in
theorem Heap.IsOrdinary.holds {h : Heap} (ho : h.IsOrdinary id) : h.Holds id := by
  obtain ⟨className, hkind⟩ := ho
  exact holds_of_kind? hkind

omit [Host σ] in
theorem store_after_setStore (hid : w.heap.Holds id) (s : Store) :
    (w.setStore id s).heap.store id = s :=
  Heap.store_setStore_self hid s

/-- What a move that asks for an edit does. -/
theorem Move.edits (hid : w.heap.Holds id) (hv : w.heap.wrapper? id = none) {m : Move σ} {e : Edit}
    (he : m.edit? id = some e) : (w.heap.store id).Edits e ((w.after m).heap.store id) := by
  rw [Move.edit?_eq_some] at he
  cases m with
  | put x key value =>
    cases he
    show Store.Edits _ _ (((id.put key value).on w).2.heap.store id)
    rw [on_put_of_not_wrapper hv]
    split
    case isTrue htakes =>
      rw [store_after_setStore hid]
      exact .taken (Bool.or_eq_true_iff.1 htakes)
    case isFalse hrefuses =>
      simp only [Bool.or_eq_true, not_or, Bool.not_eq_true] at hrefuses
      exact .refused hrefuses.1 hrefuses.2
  | define x key value =>
    cases he
    show Store.Edits _ _ ((w.setStore id _).heap.store id)
    rw [store_after_setStore hid]
    exact .defined
  | erase x key =>
    cases he
    show Store.Edits _ _ ((w.setStore id _).heap.store id)
    rw [store_after_setStore hid]
    exact .erased
  | preventExtensions x =>
    cases he
    show Store.Edits _ _ ((w.setStore id _).heap.store id)
    rw [store_after_setStore hid]
    exact .closed
  | setPrototype x link =>
    cases he
    show Store.Edits _ _ (((discard (id.setPrototype link)).on w).2.heap.store id)
    rw [ScriptM.on_discard, on_setPrototype]
    cases link with
    | none =>
      dsimp only
      rw [store_after_setStore hid]
      exact .unlinked
    | some x =>
      dsimp only
      split
      · exact .unmoved
      · split
        · exact .unmoved
        case isFalse hlink =>
          simp only [Bool.or_eq_true, not_or, Bool.not_eq_true, Bool.not_eq_false'] at hlink
          rw [store_after_setStore hid]
          exact .linked hlink.1
  | _ => cases he

omit [Host σ] in
/-- An edit that links an ordinary object to no other one may be asked for at any time. -/
theorem Move.allowed_of_request? (ho : w.heap.IsOrdinary id) {m : Move σ} {e : Edit}
    (hm : m.request? = some (id, e)) (hlink : ∀ x, e ≠ .link (some x)) : m.Allowed w := by
  cases m with
  | put x key value =>
    cases hm
    exact ho.holds
  | define x key value =>
    cases hm
    exact ho
  | erase x key =>
    cases hm
    exact ho
  | preventExtensions x =>
    cases hm
    exact ho
  | setPrototype x link =>
    cases hm
    exact ⟨ho.holds, fun x hx => absurd (congrArg Edit.link hx) (hlink x)⟩
  | _ => cases hm

/-- A move that asks for no edit leaves the own part as it is. -/
theorem Move.store_eq (hs : w.Sound) (hid : w.heap.Holds id) {m : Move σ} (hm : m.Allowed w)
    (hnone : m.edit? id = none) : (w.after m).heap.store id = w.heap.store id := by
  refine (m.isLocal hs hm).store id hid fun hobject => ?_
  rw [Move.object?_eq, Option.map_eq_some_iff] at hobject
  obtain ⟨⟨x, e⟩, hrequest, rfl⟩ := hobject
  rw [Move.edit?_eq_some.2 hrequest] at hnone
  cases hnone

omit [Host σ] in
/-- A direct edit is made on ordinary objects only. -/
theorem Move.isOrdinary_of_isDirect {m : Move σ} (hm : m.Allowed w) {e : Edit}
    (he : m.edit? id = some e) (hdirect : e.IsDirect) : w.heap.IsOrdinary id := by
  rw [Move.edit?_eq_some] at he
  cases m with
  | define x key value =>
    cases he
    exact hm
  | erase x key =>
    cases he
    exact hm
  | preventExtensions x =>
    cases he
    exact hm
  | put x key value =>
    cases he
    exact hdirect.elim
  | setPrototype x link =>
    cases he
    exact hdirect.elim
  | _ => cases he

end One

/-! ## Courses -/

section Courses

variable [Host σ]

/-- The moves lead, one after the other, from a world to another. -/
inductive World.Course (w : World σ) : List (Move σ) → World σ → Prop where
  | none : Course w [] w
  | next {moves : List (Move σ)} {u : World σ} (prior : Course w moves u) {m : Move σ}
      (allowed : m.Allowed u) : Course w (moves ++ [m]) (u.after m)

variable {w w' : World σ} {moves : List (Move σ)} {id : ObjectId}

theorem World.Course.reaches (h : w.Course moves w') : w.Reaches w' := by
  induction h with
  | none => exact .refl
  | next _ allowed ih => exact ih.tail (leads_after allowed trivial)

/-- **A course is told by the edits of an object.** What holds of the own part of an object that is
no wrapper at the start and is kept by every edit that the object is open to, holds of it at the end,
with all edits of the course. -/
theorem World.Course.tells_of_kind (h : w.Course moves w') (hs : w.Sound) {kind : ObjectKind}
    (hkind : w.heap.kind? id = some kind) (hwrapper : ∀ v, kind ≠ .wrapper v)
    {P : List Edit → Store → Prop} (hstart : P [] (w.heap.store id))
    (hstep : ∀ history s e s', P history s → s.Edits e s' →
      (e.IsDirect → ∃ className, kind = .ordinary className) → P (history ++ [e]) s') :
    w'.heap.kind? id = some kind ∧ P (editsOf id moves) (w'.heap.store id) := by
  induction h with
  | none => exact ⟨hkind, hstart⟩
  | @next moves u prior m allowed ih =>
    obtain ⟨hkind, hprior⟩ := ih
    have hu := (prior.reaches.changes hs).2
    have hid := Heap.holds_of_kind? hkind
    refine ⟨((m.isLocal hu allowed).kind id hid).trans hkind, ?_⟩
    rw [editsOf_concat]
    -- a move that asks for no edit of this object adds nothing to the history
    cases he : m.edit? id with
    | none =>
      rw [Option.toList_none, List.append_nil, m.store_eq hu hid allowed he]
      exact hprior
    | some e =>
      have hplain : ∀ v, u.heap.wrapper? id ≠ some v := fun v hv =>
        hwrapper v (Option.some.inj (hkind.symm.trans (Heap.wrapper?_eq_some.1 hv)))
      have hedits := m.edits hid (Option.eq_none_iff_forall_ne_some.2 hplain) he
      refine hstep _ _ _ _ hprior hedits fun hdirect => ?_
      obtain ⟨className, hordinary⟩ := m.isOrdinary_of_isDirect allowed he hdirect
      exact ⟨className, Option.some.inj (hkind.symm.trans hordinary)⟩

/-- An ordinary object is open to all edits. -/
theorem World.Course.tells (h : w.Course moves w') (hs : w.Sound) (ho : w.heap.IsOrdinary id)
    {P : List Edit → Store → Prop} (hstart : P [] (w.heap.store id))
    (hstep : ∀ history s e s', P history s → s.Edits e s' → P (history ++ [e]) s') :
    w'.heap.IsOrdinary id ∧ P (editsOf id moves) (w'.heap.store id) := by
  obtain ⟨className, hkind⟩ := ho
  have htold := h.tells_of_kind hs hkind (fun _ => nofun) hstart fun history s e s' hprior he _ =>
    hstep history s e s' hprior he
  exact ⟨⟨className, htold.1⟩, htold.2⟩

/-- Edits of an ordinary object that link it to no other one make a course. -/
theorem World.course_foldl (hs : w.Sound) (ho : w.heap.IsOrdinary id)
    (hmoves : ∀ m ∈ moves, ∃ e, m.request? = some (id, e) ∧ ∀ x, e ≠ .link (some x)) :
    w.Course moves (moves.foldl World.after w) := by
  induction moves using List.reverseRecOn with
  | nil => exact .none
  | append_singleton moves m ih =>
    have hprior := ih fun m' hm' => hmoves m' (List.mem_append_left _ hm')
    obtain ⟨e, he, hlink⟩ := hmoves m List.mem_concat_self
    have hordinary := (hprior.tells hs ho (P := fun _ _ => True) trivial
      fun _ _ _ _ _ _ => trivial).1
    rw [List.foldl_append]
    exact hprior.next (Move.allowed_of_request? hordinary he hlink)

end Courses

end Membrane
