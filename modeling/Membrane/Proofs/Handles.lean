import Membrane.Proofs.Confinement
import Membrane.Session.State
import Mathlib.Data.Finset.Card

/-!
# Who holds a context

In a session the registers of contexts and the stack hold contexts, and nothing else does. `Turn`
says all that a session can do to registers, stack and handles; each command comes down to a sequence
of turns, so that a fact about who holds a context needs one case for each turn and none for the
commands.
-/

namespace Membrane

/-! ## Handles of a context -/

namespace World

variable {σ : Type} {w : World σ} {c : ContextId}

/-- The number of handles of a context; none if there is no such context. -/
def handles (w : World σ) (c : ContextId) : Nat := ((w.context? c).map (·.handles)).getD 0

theorem isAlive_iff : w.isAlive c = true ↔ 0 < w.handles c := by
  rw [isAlive, handles]
  cases w.context? c with
  | none => exact ⟨fun h => absurd h Bool.false_ne_true, fun h => absurd h (Nat.lt_irrefl 0)⟩
  | some k => exact decide_eq_true_iff

theorem handles_eq_of_standing {w' : World σ}
    (h : (w'.context? c).map Context.standing = (w.context? c).map Context.standing) :
    w'.handles c = w.handles c := by
  have hstanding : ∀ u : World σ,
      u.handles c = (((u.context? c).map Context.standing).map (·.2)).getD 0 := by
    intro u
    rw [handles, Option.map_map]
    rfl
  rw [hstanding, h, ← hstanding]

theorem handles_release (w : World σ) (place c : ContextId) :
    (w.release place).handles c = if c = place then w.handles c - 1 else w.handles c := by
  rw [handles, World.release, context?_modifyContext, handles]
  split
  · cases w.context? c with
    | none => rfl
    | some k =>
      by_cases hlast : k.handles ≤ 1
      · simp only [Option.map_some, if_pos hlast, Option.getD_some]
        omega
      · simp only [Option.map_some, if_neg hlast, Option.getD_some]
  · rfl

theorem handles_retain (w : World σ) (place c : ContextId) :
    (w.retain place).handles c =
      if c = place ∧ 0 < w.handles c then w.handles c + 1 else w.handles c := by
  rw [handles, World.retain, context?_modifyContext, handles]
  by_cases hc : c = place
  · rw [if_pos hc]
    cases w.context? c with
    | none => simp
    | some k =>
      by_cases halive : 0 < k.handles
      · simp [Context.isAlive, hc, halive]
      · simp [Context.isAlive, halive]
  · rw [if_neg hc, if_neg fun h => hc h.1]

theorem handles_openContext (w : World σ) (policy : Policy) (c : ContextId) :
    (w.openContext policy).2.handles c =
      if c = (w.openContext policy).1 then 1 else w.handles c := by
  have hcontext : (w.openContext policy).2.context? c =
      if c.index = w.contexts.size then some { policy } else w.context? c :=
    Array.getElem?_push
  have hplace : c = (w.openContext policy).1 ↔ c.index = w.contexts.size := by
    cases c
    exact ContextId.mk.injEq .. ▸ Iff.rfl
  rw [handles, hcontext, handles, if_congr hplace rfl rfl]
  split <;> rfl

/-- A context has no handles before it is opened. -/
theorem handles_of_new {policy : Policy} (h : c = (w.openContext policy).1) : w.handles c = 0 := by
  have hnone : w.context? c = none := by
    subst h
    exact Array.getElem?_eq_none (Nat.le_refl _)
  rw [handles, hnone]
  rfl

end World

/-! ## Registers and stack -/

/-- The register of a name holds a context. -/
def Registers.Holds (registers : Registers ContextRegister) (c : ContextId) (name : String) : Prop :=
  registers.lookup name = some ⟨c, true⟩

instance (registers : Registers ContextRegister) (c : ContextId) (name : String) :
    Decidable (registers.Holds c name) :=
  decidable_of_iff ((registers.lookup name).any (fun r => r.held && r.id = c) = true) <| by
    rw [Registers.Holds]
    cases registers.lookup name with
    | none => simp
    | some r =>
      cases r
      simp [and_comm]

/-- The names of the registers that hold a context. -/
def Registers.holders (registers : Registers ContextRegister) (c : ContextId) : Finset String :=
  (registers.map (·.1)).toFinset.filter (registers.Holds c)

/-- How often registers and stack hold a context. -/
def Session.holders (s : Session) (c : ContextId) : Nat :=
  (Registers.holders s.contexts c).card + s.stack.count c

namespace Registers

variable {registers : Registers ContextRegister} {c : ContextId} {name : String}

theorem mem_holders : name ∈ registers.holders c ↔ registers.Holds c name := by
  rw [holders, Finset.mem_filter, List.mem_toFinset, and_iff_right_iff_imp]
  intro h
  have hsome := List.lookup_isSome_iff.1 (Option.isSome_of_eq_some h)
  obtain ⟨entry, hentry, hname⟩ := hsome
  exact List.mem_map.2 ⟨entry, hentry, (eq_of_beq hname).symm⟩

theorem holds_cons {r : ContextRegister} {x : String} :
    Holds ((name, r) :: registers) c x ↔ if x = name then r = ⟨c, true⟩ else registers.Holds c x := by
  rw [Holds, List.lookup_cons]
  by_cases hx : x = name
  · simp [hx]
  · rw [beq_false_of_ne hx, if_neg hx]
    rfl

/-- A register that is filled with a context that it holds is one more that holds it. -/
theorem holders_cons_held (id : ContextId) (hfree : ∀ c, ¬ registers.Holds c name) :
    (holders ((name, ⟨id, true⟩) :: registers) c).card =
      (registers.holders c).card + if c = id then 1 else 0 := by
  have hnew : name ∉ registers.holders c := fun h => hfree c (mem_holders.1 h)
  by_cases hc : c = id
  · have hset : holders ((name, ⟨id, true⟩) :: registers) c = insert name (registers.holders c) := by
      ext x
      rw [mem_holders, holds_cons, Finset.mem_insert, mem_holders]
      by_cases hx : x = name <;> simp [hx, hc]
    rw [hset, Finset.card_insert_of_notMem hnew, if_pos hc]
  · have hset : holders ((name, ⟨id, true⟩) :: registers) c = registers.holders c := by
      ext x
      rw [mem_holders, holds_cons, mem_holders]
      by_cases hx : x = name
      · simp [hx, Ne.symm hc, hfree]
      · simp [hx]
    rw [hset, if_neg hc, Nat.add_zero]

/-- A register that lets its context go is one less that holds it. -/
theorem holders_cons_free {id : ContextId} (hheld : registers.Holds id name) :
    (registers.holders c).card =
      (holders ((name, ⟨id, false⟩) :: registers) c).card + if c = id then 1 else 0 := by
  have hset : holders ((name, ⟨id, false⟩) :: registers) c = (registers.holders c).erase name := by
    ext x
    rw [mem_holders, holds_cons, Finset.mem_erase, mem_holders]
    by_cases hx : x = name <;> simp [hx]
  rw [hset]
  by_cases hc : c = id
  · have hmem : name ∈ registers.holders c := mem_holders.2 (hc ▸ hheld)
    rw [if_pos hc, Finset.card_erase_add_one hmem]
  · have hmem : name ∉ registers.holders c := by
      rw [mem_holders, Holds, hheld]
      simp [Ne.symm hc]
    rw [if_neg hc, Finset.erase_eq_of_notMem hmem, Nat.add_zero]

end Registers

/-! ## Turns -/

/-- Everything that a session may do to the registers of contexts, to the stack and to handles. -/
inductive Session.Turn (s : Session) : Session → Prop where
  | steady {s' : Session} (contexts : s'.contexts = s.contexts) (stack : s'.stack = s.stack)
      (standing : ∀ c, (s'.world.context? c).map Context.standing =
        (s.world.context? c).map Context.standing) : Turn s s'
  | dropped (name : String) (id : ContextId) (held : Registers.Holds s.contexts id name) :
      Turn s { s with
        world := s.world.release id
        contexts := (name, ⟨id, false⟩) :: s.contexts }
  | opened (name : String) (policy : Policy) (free : ∀ c, ¬ Registers.Holds s.contexts c name) :
      Turn s { s with
        world := (s.world.openContext policy).2
        contexts := (name, ⟨(s.world.openContext policy).1, true⟩) :: s.contexts
        names := ((s.world.openContext policy).1, name) :: s.names }
  | revived (name : String) (id : ContextId) (alive : s.world.isAlive id = true)
      (free : ∀ c, ¬ Registers.Holds s.contexts c name) :
      Turn s { s with
        world := s.world.retain id
        contexts := (name, ⟨id, true⟩) :: s.contexts }
  | pushed (name : String) (id : ContextId) (held : Registers.Holds s.contexts id name) :
      Turn s { s with world := s.world.retain id, stack := id :: s.stack }
  | popped (id : ContextId) (rest : List ContextId) (running : s.stack = id :: rest) :
      Turn s { s with world := s.world.release id, stack := rest }

/-- In a session every handle of a context belongs to a register or to the stack. -/
def Session.Accounts (s : Session) : Prop := ∀ c, s.world.handles c = s.holders c

/-- Each turn takes a handle for what comes to hold a context, and lets one go for what ceases to. -/
theorem Session.Turn.accounts {s s' : Session} (h : s.Turn s') (hs : s.Accounts) : s'.Accounts := by
  intro c
  have hc : s.world.handles c = (Registers.holders s.contexts c).card + s.stack.count c := hs c
  cases h with
  | steady contexts stack standing =>
    rw [World.handles_eq_of_standing (standing c), hs, holders, holders, contexts, stack]
  | dropped name id held =>
    dsimp only [holders]
    rw [World.handles_release, hc, Registers.holders_cons_free held]
    split <;> omega
  | opened name policy free =>
    dsimp only [holders]
    rw [World.handles_openContext, Registers.holders_cons_held _ free]
    split
    case isTrue hnew =>
      have hnone := s.world.handles_of_new hnew
      omega
    case isFalse => omega
  | revived name id alive free =>
    rw [World.isAlive_iff] at alive
    dsimp only [holders]
    rw [World.handles_retain, Registers.holders_cons_held _ free]
    by_cases hid : c = id
    · subst hid
      rw [if_pos ⟨rfl, alive⟩, if_pos rfl]
      omega
    · rw [if_neg fun h => hid h.1, if_neg hid]
      exact hc
  | pushed name id held =>
    dsimp only [holders]
    rw [World.handles_retain, List.count_cons]
    by_cases hid : c = id
    · subst hid
      have hcard : 0 < (Registers.holders s.contexts c).card :=
        Finset.card_pos.2 ⟨name, Registers.mem_holders.2 held⟩
      rw [if_pos ⟨rfl, by omega⟩, beq_self_eq_true, if_pos rfl]
      omega
    · rw [if_neg fun h => hid h.1, beq_false_of_ne (Ne.symm hid), if_neg Bool.false_ne_true]
      exact hc
  | popped id rest running =>
    dsimp only [holders]
    rw [running, List.count_cons] at hc
    rw [World.handles_release]
    by_cases hid : c = id
    · rw [hid, beq_self_eq_true, if_pos rfl] at hc
      rw [if_pos hid, hid]
      omega
    · rw [beq_false_of_ne (Ne.symm hid), if_neg Bool.false_ne_true] at hc
      rw [if_neg hid]
      exact hc

/-- In a session a context is held exactly if a register or the stack holds it. -/
theorem Session.Accounts.isAlive_iff {s : Session} (hs : s.Accounts) (c : ContextId) :
    s.world.isAlive c = true ↔
      (∃ name, Registers.Holds s.contexts c name) ∨ c ∈ s.stack := by
  rw [World.isAlive_iff, hs, holders, Nat.add_pos_iff_pos_or_pos, List.count_pos_iff,
    Finset.card_pos]
  exact or_congr_left (exists_congr fun _ => Registers.mem_holders)

/-- A context was opened, and nobody holds it any more. -/
def World.IsGone {σ : Type} (w : World σ) (c : ContextId) : Prop :=
  ∃ policy, (w.context? c).map Context.standing = some (policy, 0)

section Gone

variable {σ : Type} {w : World σ} {c : ContextId}

theorem World.IsGone.context? (h : w.IsGone c) : ∃ k, w.context? c = some k ∧ k.handles = 0 := by
  obtain ⟨policy, hstanding⟩ := h
  obtain ⟨k, hk, heq⟩ := Option.map_eq_some_iff.1 hstanding
  exact ⟨k, hk, congrArg Prod.snd heq⟩

theorem World.isGone_iff : w.IsGone c ↔ c.index < w.contexts.size ∧ w.isAlive c = false := by
  rw [IsGone, isAlive, World.context?]
  cases hk : w.contexts[c.index]? with
  | none =>
    have hle := Array.getElem?_eq_none_iff.1 hk
    refine ⟨?_, fun h => absurd h.1 (Nat.not_lt.2 hle)⟩
    rintro ⟨policy, ⟨⟩⟩
  | some k =>
    have hlt := (Array.getElem?_eq_some_iff.1 hk).1
    simp [Context.standing, Context.isAlive, hlt]

/-- A change of one context that leaves it without handles if it has none. -/
theorem World.IsGone.modifyContext (h : w.IsGone c) (place : ContextId) {f : Context → Context}
    (hf : ∀ k, k.handles = 0 → (f k).handles = 0) : (w.modifyContext place f).IsGone c := by
  obtain ⟨k, hk, hhandles⟩ := h.context?
  rw [IsGone, context?_modifyContext, hk]
  split
  · exact ⟨(f k).policy, congrArg some (Prod.ext rfl (hf k hhandles))⟩
  · exact ⟨k.policy, congrArg some (Prod.ext rfl hhandles)⟩

theorem World.IsGone.retain (h : w.IsGone c) (place : ContextId) : (w.retain place).IsGone c := by
  refine h.modifyContext place fun k hk => ?_
  rw [if_neg (by simp [Context.isAlive, hk])]
  exact hk

theorem World.IsGone.release (h : w.IsGone c) (place : ContextId) :
    (w.release place).IsGone c := by
  refine h.modifyContext place fun k hk => ?_
  rw [if_pos (by omega)]

theorem World.IsGone.openContext (h : w.IsGone c) (policy : Policy) :
    (w.openContext policy).2.IsGone c := by
  obtain ⟨k, hk, hhandles⟩ := h.context?
  have hlt : c.index < w.contexts.size := (Array.getElem?_eq_some_iff.1 hk).1
  refine ⟨k.policy, ?_⟩
  have hsame : (w.openContext policy).2.context? c = some k :=
    (Array.getElem?_push_lt hlt).trans (Array.getElem?_eq_getElem hlt ▸ hk)
  rw [hsame]
  exact congrArg some (Prod.ext rfl hhandles)

end Gone

/-- A context that is gone never comes back. -/
theorem Session.Turn.gone {s s' : Session} (h : s.Turn s') {c : ContextId}
    (hc : s.world.IsGone c) : s'.world.IsGone c := by
  cases h with
  | steady contexts stack standing =>
    obtain ⟨policy, hstanding⟩ := hc
    exact ⟨policy, (standing c).trans hstanding⟩
  | dropped name id held => exact hc.release id
  | opened name policy free => exact hc.openContext policy
  | revived name id alive free => exact hc.retain id
  | pushed name id held => exact hc.retain id
  | popped id rest running => exact hc.release id

end Membrane
