import Membrane.Context
import Membrane.Proofs.Border
import Membrane.Proofs.Store
import Mathlib.Data.List.Nodup

/-!
# Caches and requests

A cache holds one entry for each of its keys. The key of a host value decides of what kind its
wrapper is. What was asked for in a context is in the journal (`World.requests`); what the context
holds is in its cache (`World.cache`), which is empty once the context is gone. The lemmas say what
becomes of the cache when something is remembered and when contexts are opened and released.
-/

namespace Membrane

variable {σ : Type}

/-! ## Keys and kinds -/

/-- The host values that have a key: the one object or class, or the callables written that way. -/
def Identity.Names : Identity → Subject → Prop
  | .object o, subject => subject = .object o
  | .hostClass k, subject => subject = .constructor k
  | .callable rendering, subject => ∃ f, subject = .function f ∧ f.render = rendering

theorem Identity.names_iff {key : Identity} {subject : Subject} :
    key.Names subject ↔ subject.identity = key := by
  cases key <;> cases subject <;> simp [Names, Subject.identity, ofCallable, eq_comm]

/-- Host values of one key get wrappers of one kind. -/
theorem Subject.kind_eq {a b : Subject} (h : a.identity = b.identity) : a.kind = b.kind := by
  cases a <;> cases b <;> first | rfl | cases h

theorem Subject.exists_function {subject : Subject} (h : subject.kind = .function) :
    ∃ f, subject = .function f := by
  cases subject with
  | function f => exact ⟨f, rfl⟩
  | object o => cases h
  | constructor k => cases h

theorem Subject.entry_eq {a b : Subject} (h : a.identity = b.identity) (id : ObjectId) :
    a.entry id = b.entry id := by
  rw [entry, entry, kind_eq h]

theorem Subject.entry_inj {a : Subject} {id id' : ObjectId} (h : a.entry id = a.entry id') :
    id = id' :=
  eq_of_heq (Entry.mk.inj h).2

theorem Entry.as?_eq_some {entry : Entry} {kind : EntryKind} {content : kind.Content} :
    entry.as? kind = some content ↔ entry = ⟨kind, content⟩ := by
  cases entry with
  | mk kind' content' =>
    simp only [as?]
    split
    case isTrue h =>
      cases h
      simp
    case isFalse h =>
      simp only [reduceCtorEq, Entry.mk.injEq, false_iff]
      exact fun heq => h heq.1

/-! ## What a cache holds -/

namespace Cache

variable {c : Cache} {key : Identity}

/-- The keys that something is remembered under. -/
def keys (c : Cache) : List Identity := c.entries.map (·.1)

theorem mem_keys : key ∈ c.keys ↔ ∃ entry, c.get? key = some entry := by
  rw [← Option.isSome_iff_exists, get?, List.lookup_isSome_iff, keys, List.mem_map]
  simp only [beq_iff_eq, @eq_comm _ key]

theorem insert_of_none (h : c.get? key = none) (entry : Entry) :
    c.insert key entry = ⟨c.entries ++ [(key, entry)]⟩ := by
  rw [insert, h]
  rfl

theorem get?_insert (c : Cache) (key : Identity) (entry : Entry) (key' : Identity) :
    (c.insert key entry).get? key' = if key' = key then some entry else c.get? key' := by
  cases hold : c.get? key with
  | none =>
    rw [insert_of_none hold, get?, List.lookup_append, ← get?, List.lookup_cons]
    by_cases hk : key' = key
    · subst hk
      rw [hold, beq_self_eq_true, if_pos rfl]
      rfl
    · rw [beq_false_of_ne hk, if_neg hk]
      exact Option.or_none
  | some old =>
    rw [insert, hold, Option.isSome_some, if_pos rfl, get?, lookup_replace, ← get?, hold]
    rfl

theorem nodup_keys_insert (h : c.get? key = none) (hc : c.keys.Nodup) (entry : Entry) :
    (c.insert key entry).keys.Nodup := by
  have hkey : key ∉ c.keys := fun hmem => by
    obtain ⟨e, he⟩ := mem_keys.1 hmem
    rw [h] at he
    cases he
  rw [insert_of_none h, keys, List.map_append]
  exact List.nodup_append.2 ⟨hc, List.nodup_singleton _, by
    rintro k hk _ hk'
    rw [List.mem_singleton.1 hk']
    rintro rfl
    exact hkey hk⟩

end Cache

/-! ## Requests -/

/-- What was asked for in a context and the answer, if an event is such a request. -/
def Event.request? (c : ContextId) : Event → Option (Identity × Entry)
  | .asked context key answer _ => if context = some c then some (key, answer) else none
  | _ => none

namespace World

/-- All requests in a context so far, with their answers. -/
def requests (w : World σ) (c : ContextId) : List (Identity × Entry) :=
  w.journal.filterMap (·.request? c)

/-- What a context remembers; nothing if there is no such context. -/
def cache (w : World σ) (c : ContextId) : Cache := ((w.context? c).map (·.cache)).getD {}

variable {w w' : World σ} {c : ContextId}

theorem context?_congr (h : w'.contexts = w.contexts) (c : ContextId) :
    w'.context? c = w.context? c := by
  rw [context?, h, context?]

theorem isAlive_congr (h : w'.contexts = w.contexts) (c : ContextId) :
    w'.isAlive c = w.isAlive c := by
  rw [isAlive, context?_congr h, isAlive]

theorem cache_congr (h : w'.contexts = w.contexts) (c : ContextId) : w'.cache c = w.cache c := by
  rw [cache, context?_congr h, cache]

theorem remembered_eq (w : World σ) (c : ContextId) : w.remembered c = (w.cache c).size := by
  rw [remembered, cache]
  cases w.context? c <;> rfl

theorem requests_of_silent {event : Event} (h : w'.journal = w.journal ++ [event])
    (hsilent : event.request? c = none) : w'.requests c = w.requests c := by
  rw [requests, h, List.filterMap_append, List.filterMap_cons_none hsilent]
  exact List.append_nil _

theorem requests_of_asked {context : Option ContextId} {key : Identity} {answer : Entry}
    {built : Bool} (h : w'.journal = w.journal ++ [.asked context key answer built])
    (hc : context = some c) : w'.requests c = w.requests c ++ [(key, answer)] := by
  have hrequest : Event.request? c (.asked context key answer built) = some (key, answer) :=
    if_pos hc
  rw [requests, h, List.filterMap_append, List.filterMap_cons_some hrequest]
  rfl

theorem known?_eq (w : World σ) (context : Option ContextId) (key : Identity) (kind : EntryKind) :
    w.known? context key kind =
      context.bind fun c => ((w.cache c).get? key).bind (·.as? kind) := by
  cases context with
  | none => rfl
  | some c =>
    simp only [known?, cache, Option.bind_some]
    cases w.context? c <;> rfl

theorem cache_keep_self (hc : w.isAlive c) (key : Identity) (entry : Entry) :
    (w.keep (some c) key entry).cache c = (w.cache c).insert key entry := by
  rw [cache, context?_keep, if_pos rfl, cache]
  rw [isAlive] at hc
  cases hk : w.context? c with
  | none =>
    rw [hk] at hc
    cases hc
  | some k => rfl

/-- Remembering something changes a cache by that, or not at all. -/
theorem cache_keep_cases (w : World σ) (context : Option ContextId) (key : Identity) (entry : Entry)
    (c : ContextId) : (w.keep context key entry).cache c = w.cache c ∨
      (w.keep context key entry).cache c = (w.cache c).insert key entry := by
  rw [cache, context?_keep, cache]
  split
  · cases w.context? c with
    | none => exact .inl rfl
    | some k => exact .inr rfl
  · exact .inl rfl

theorem cache_keep_of_ne {context : Option ContextId} (h : context ≠ some c) (key : Identity)
    (entry : Entry) : (w.keep context key entry).cache c = w.cache c := by
  rw [cache, context?_keep, if_neg h, cache]

/-- Opening a context leaves the others as they are. -/
theorem openContext_cases (w : World σ) (policy : Policy) (c : ContextId) :
    (w.openContext policy).2.isAlive c = w.isAlive c ∧
        (w.openContext policy).2.cache c = w.cache c ∨
      c.index = w.contexts.size ∧ (w.openContext policy).2.isAlive c = true ∧
        (w.openContext policy).2.cache c = {} := by
  have hcontext : (w.openContext policy).2.context? c =
      if c.index = w.contexts.size then some { policy } else w.context? c :=
    Array.getElem?_push
  rw [isAlive, cache, hcontext]
  by_cases hnew : c.index = w.contexts.size
  · rw [if_pos hnew]
    exact .inr ⟨hnew, rfl, rfl⟩
  · rw [if_neg hnew]
    exact .inl ⟨rfl, rfl⟩

theorem retain_same (w : World σ) (place c : ContextId) :
    (w.retain place).isAlive c = w.isAlive c ∧ (w.retain place).cache c = w.cache c := by
  rw [isAlive, cache, World.retain, context?_modifyContext, isAlive, cache]
  split
  case isTrue =>
    cases w.context? c with
    | none => exact ⟨rfl, rfl⟩
    | some k =>
      by_cases halive : k.isAlive = true
      · -- one handle more of a context that is held
        simp only [Option.map_some, Option.any_some, halive]
        exact ⟨decide_eq_true (Nat.succ_pos _), rfl⟩
      · simp only [Option.map_some, if_neg halive, true_and]
  case isFalse => exact ⟨rfl, rfl⟩

/-- With its last handle a context is forgotten. -/
theorem release_cases (w : World σ) (place c : ContextId) :
    (w.release place).isAlive c = w.isAlive c ∧ (w.release place).cache c = w.cache c ∨
      (w.release place).isAlive c = false ∧ (w.release place).cache c = {} := by
  rw [isAlive, cache, World.release, context?_modifyContext, isAlive, cache]
  split
  case isTrue =>
    cases w.context? c with
    | none => exact .inl ⟨rfl, rfl⟩
    | some k =>
      by_cases hlast : k.handles ≤ 1
      · simp only [Option.map_some, if_pos hlast, Option.any_some]
        exact .inr ⟨rfl, rfl⟩
      · simp only [Option.map_some, if_neg hlast, Option.any_some, Context.isAlive,
          Option.getD_some, decide_eq_decide]
        exact .inl ⟨by omega, trivial⟩
  case isFalse => exact .inl ⟨rfl, rfl⟩

end World

end Membrane
