import Membrane.Proofs.OrderedMap

/-!
# Objects that take no new properties

Once an ordinary object takes no new properties, puts and links that would change its shape are
refused, and it is never opened again. Its keys are those that it had, less the erased ones, in the
order that they had (`Store.Sealed`). Only the refusal of links stops short: no link at all is always
taken, before it is asked whether the object is extensible. So the link of such an object can be
taken away, and once it is gone it cannot be had again.
-/

namespace Membrane

/-! ## Own parts -/

/-- What becomes of a closed own part over a history of edits. -/
structure Store.Sealed (start : Store) (history : List Edit) (s : Store) : Prop where
  extensible : s.extensible = false
  keys : s.keys = start.keys.filter fun key => .erase key ∉ history
  prototype : s.prototype = if .link none ∈ history then none else start.prototype

namespace Store.Sealed

variable {start s s' : Store} {history : List Edit} {e : Edit}

/-- At the start nothing was erased or unlinked. -/
theorem refl (hclosed : start.extensible = false) : start.Sealed [] start where
  extensible := hclosed
  keys := by simp
  prototype := by simp

/-- An edit that erases nothing and is not the one that unlinks, and leaves the shape. -/
theorem keep (h : start.Sealed history s) (herase : ∀ key, e ≠ .erase key) (hunlink : e ≠ .link none)
    (hext : s'.extensible = s.extensible) (hkeys : s'.keys = s.keys)
    (hprototype : s'.prototype = s.prototype) : start.Sealed (history ++ [e]) s' where
  extensible := hext.trans h.extensible
  keys := by
    rw [hkeys, h.keys]
    refine List.filter_congr fun key _ => ?_
    simp [Ne.symm (herase key)]
  prototype := by
    rw [hprototype, h.prototype]
    simp [Ne.symm hunlink]

/-- An edit keeps a closed own part closed; only `define` adds a key to it. -/
theorem edits (h : start.Sealed history s) (he : s.Edits e s')
    (hdefine : ∀ key value, e ≠ .define key value) : start.Sealed (history ++ [e]) s' := by
  cases he with
  | @taken key value takes =>
    -- a closed object takes a put only for a key that it has
    have hcontains : s.contains key = true := by
      rcases takes with hcontains | hopen
      · exact hcontains
      · rw [h.extensible] at hopen
        cases hopen
    refine h.keep nofun nofun (extensible_define ..) ?_ (prototype_define ..)
    rw [keys_define, if_pos hcontains]
  | refused new closed => exact h.keep nofun nofun rfl rfl rfl
  | @defined key value => exact absurd rfl (hdefine key value)
  | @erased key =>
    constructor
    · exact h.extensible
    · rw [keys_erase, h.keys, List.filter_filter]
      refine List.filter_congr fun k _ => ?_
      simp [bne, beq_eq_decide, Bool.and_comm]
    · have hsame : (.link none ∈ history ++ [Edit.erase key]) ↔ .link none ∈ history := by simp
      simp only [hsame]
      exact h.prototype
  | closed => exact h.keep nofun nofun h.extensible.symm rfl rfl
  | unlinked =>
    constructor
    · exact h.extensible
    · exact h.keys.trans (List.filter_congr fun k _ => by simp)
    · simp
  | linked extensible =>
    rw [h.extensible] at extensible
    cases extensible
  | unmoved => exact h.keep nofun nofun rfl rfl rfl

end Store.Sealed

/-! ## Objects -/

section Objects

variable {σ : Type} [Host σ] {w w' : World σ} {id : ObjectId}

/-- **A closed object keeps its shape, but for its link being taken away.** Take an ordinary object
that takes no new properties, and any course of moves that do not write past this (`define`). In the
end the object still takes no new properties and has those of its keys, in their order, that were
not erased. Its link is what it was, unless a move asked for none. Every other link is refused, with
nothing changed. -/
theorem World.Reachable.shape (hw : w.Reachable) (ho : w.heap.IsOrdinary id)
    (hclosed : (w.heap.store id).extensible = false) {moves : List (Move σ)}
    (h : w.Course moves w') (hdefine : ∀ key value, .define key value ∉ editsOf id moves) :
    let start := w.heap.store id
    let now := w'.heap.store id
    now.extensible = false ∧
    now.keys.Sublist start.keys ∧
    (∀ key, key ∈ now.keys ↔ key ∈ start.keys ∧ .erase key ∉ editsOf id moves) ∧
    (.link none ∉ editsOf id moves → now.prototype = start.prototype) ∧
    ∀ x, now.prototype ≠ some x → (id.setPrototype (some x)).on w' = (.ok false, w') := by
  intro start now
  have htold := (h.tells hw.sound ho
    (P := fun history s => (∀ key value, .define key value ∉ history) → start.Sealed history s)
    (fun _ => .refl hclosed) ?step).2 hdefine
  case step =>
    intro history s e s' hprior he hnone
    refine (hprior fun key value hmem => ?_).edits he fun key value hlast => ?_
    · exact hnone key value (List.mem_append_left _ hmem)
    · exact hnone key value (hlast ▸ List.mem_concat_self)
  refine ⟨htold.extensible, ?_, ?_, ?_, ?_⟩
  · rw [htold.keys]
    exact List.filter_sublist
  · intro key
    rw [htold.keys, List.mem_filter, decide_eq_true_eq]
  · intro hlink
    rw [htold.prototype, if_neg hlink]
  · intro x hx
    have hnow : (w'.heap.store id).extensible = false := htold.extensible
    rw [on_setPrototype]
    dsimp only
    rw [if_neg (show w'.heap.prototype id ≠ some x from hx), hnow]
    rfl

end Objects

namespace Catalog

/-- An object linked to another one, with two keys, that takes no new ones. -/
def statue : World Catalog :=
  ((((((World.initial ⟨0, {}⟩ .standard).after (.ordinary "Object")).after
    (.ordinary "Object")).after (.setPrototype ⟨1⟩ (some ⟨0⟩))).after
    (.put ⟨1⟩ (.name "x") .null)).after (.put ⟨1⟩ (.name "y") .null)).after (.preventExtensions ⟨1⟩)

theorem statue_reachable : statue.Reachable := by
  refine ((((((World.initial_reachable _ _).reachable.after (m := .ordinary _) trivial).after
    (m := .ordinary _) trivial).after (m := .setPrototype ..) ?linked).after
    (m := .put ..) ?first).after (m := .put ..) ?second).after (m := .preventExtensions _) ?closed
  case linked => exact ⟨by decide, fun x hx => Option.some.inj hx ▸ by decide⟩
  case first => exact Heap.IsOrdinary.holds ⟨_, rfl⟩
  case second => exact Heap.IsOrdinary.holds ⟨_, rfl⟩
  case closed => exact ⟨_, rfl⟩

/-- A key is erased and put again, and a new one is put. -/
def chiseling : List (Move Catalog) :=
  [.erase ⟨1⟩ (.name "x"), .put ⟨1⟩ (.name "x") .null, .put ⟨1⟩ (.name "z") .null]

/-- The key that was left stays, the erased one does not come back, and the link is kept. -/
theorem shape_statue :
    let w := chiseling.foldl World.after statue
    (w.heap.store ⟨1⟩).keys.Sublist [.name "x", .name "y"] ∧
      .name "x" ∉ (w.heap.store ⟨1⟩).keys ∧
      (w.heap.store ⟨1⟩).prototype = some ⟨0⟩ ∧
      (ObjectId.setPrototype ⟨1⟩ (some ⟨1⟩)).on w = (.ok false, w) := by
  have hedits : ∀ m ∈ chiseling, ∃ e, m.request? = some (⟨1⟩, e) ∧ ∀ x, e ≠ .link (some x) := by
    simp [chiseling, Move.request?]
  have ho : statue.heap.IsOrdinary ⟨1⟩ := ⟨_, rfl⟩
  have hcourse := World.course_foldl statue_reachable.sound ho hedits
  have hdefine : ∀ key value, .define key value ∉ editsOf ⟨1⟩ chiseling := by
    simp [chiseling, editsOf, Move.edit?, Move.request?]
  obtain ⟨-, hkeys, hmem, hlink, hrefused⟩ :=
    statue_reachable.shape ho rfl hcourse hdefine
  have hkept := hlink (by decide)
  refine ⟨hkeys, fun hx => ?_, hkept, hrefused ⟨1⟩ ?_⟩
  · exact ((hmem _).1 hx).2 (by decide)
  · rw [hkept]
    decide

/-- The object can be asked for no link at all: the answer is that this was done, and the link is
gone. -/
theorem statue_unlinked : statue.Reachable ∧
    (statue.heap.store ⟨1⟩).extensible = false ∧
    (statue.heap.store ⟨1⟩).prototype = some ⟨0⟩ ∧
    ((ObjectId.setPrototype ⟨1⟩ none).on statue).1 = .ok true ∧
    ((statue.after (.setPrototype ⟨1⟩ none)).heap.store ⟨1⟩).prototype = none :=
  ⟨statue_reachable, rfl, rfl, rfl, rfl⟩

end Catalog

end Membrane
