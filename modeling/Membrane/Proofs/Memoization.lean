import Membrane.Catalog.Running
import Membrane.Proofs.Reach
import Membrane.Proofs.Cache
import Mathlib.Data.List.Dedup
import Mathlib.Data.List.Induction

/-!
# Requests with constructors

A request asks a context for what it remembers under a key, and brings the constructor of what is
not there. An entry of another kind counts as not there, and is replaced. So whether a constructor is
run depends on the whole row of requests before: on the last one that was made in the same context
under the same key. `World.Memoizes` says of every key what a row of requests has left there, and one
more request keeps it.
-/

namespace Membrane

variable {σ : Type}

/-! ## One request -/

/-- A request for what is remembered under a key, with the constructor of what is not. -/
structure Request (σ : Type) where
  context : Option ContextId
  key : Identity
  kind : EntryKind
  construct : ScriptM σ kind.Content

namespace Request

/-- Asks, and gives the answer with its kind. -/
def ask (r : Request σ) : ScriptM σ Entry :=
  return ⟨r.kind, ← remember r.context r.key r.kind r.construct⟩

/-- Remembers what a constructor has yielded, and answers with it. -/
def enter (r : Request σ) (content : r.kind.Content) : ScriptM σ Entry := do
  modify (·.keep r.context r.key ⟨r.kind, content⟩)
  ScriptM.note (.asked r.context r.key ⟨r.kind, content⟩ true)
  return ⟨r.kind, content⟩

/-- Whatever the constructor is, the request comes to a run of it, and what it yields is remembered.
-/
def Constructs (r : Request σ) (w : World σ) : Prop :=
  ∀ construct, ({ r with construct } : Request σ).ask.on w = (construct >>= r.enter).on w

/-- Whatever the constructor is, it is not run: the answer is there already. -/
def Recalls (r : Request σ) (w : World σ) (content : r.kind.Content) : Prop :=
  ∀ construct, ({ r with construct } : Request σ).ask.on w =
    (.ok ⟨r.kind, content⟩, w.note (.asked r.context r.key ⟨r.kind, content⟩ false))

/-- The request is made in a context under a key. -/
def IsOn (c : ContextId) (key : Identity) (r : Request σ) : Prop :=
  r.context = some c ∧ r.key = key

instance (c : ContextId) (key : Identity) (r : Request σ) : Decidable (r.IsOn c key) := by
  unfold IsOn
  infer_instance

/-- The constructor yields something, and leaves alone what a context remembers. -/
def KeepsOut (c : ContextId) (w : World σ) (r : Request σ) : Prop :=
  ∃ content w', r.construct.on w = (.ok content, w') ∧ w'.isAlive c = w.isAlive c ∧
    w'.cache c = w.cache c

variable {r : Request σ} {w : World σ} {c : ContextId}

theorem on_ask (r : Request σ) (w : World σ) :
    r.ask.on w = match w.known? r.context r.key r.kind with
      | some content =>
        (.ok ⟨r.kind, content⟩, w.note (.asked r.context r.key ⟨r.kind, content⟩ false))
      | none => (r.construct >>= r.enter).on w := by
  simp only [ask, remember, bind_assoc, ScriptM.on_get_bind]
  cases w.known? r.context r.key r.kind with
  | some content => rfl
  | none =>
    rw [bind_assoc]
    rfl

/-- A constructor that fails would make the request fail, if it were run. -/
theorem constructs_iff : r.Constructs w ↔ w.known? r.context r.key r.kind = none := by
  constructor
  · intro h
    cases hknown : w.known? r.context r.key r.kind with
    | none => rfl
    | some content =>
      have hfails := h (throw (.thrown .null))
      rw [on_ask] at hfails
      dsimp only at hfails
      rw [hknown] at hfails
      cases hfails
  · intro h construct
    rw [on_ask]
    dsimp only
    rw [h]
    rfl

theorem recalls_of_known {content : r.kind.Content}
    (h : w.known? r.context r.key r.kind = some content) : r.Recalls w content := by
  intro construct
  rw [on_ask]
  dsimp only
  rw [h]

theorem constructs_of_no_context (h : r.context = none) : r.Constructs w := by
  rw [constructs_iff, h]
  rfl

/-- What a context remembers under the key decides. -/
theorem known?_of_context (h : r.context = some c) :
    w.known? r.context r.key r.kind = ((w.cache c).get? r.key).bind (·.as? r.kind) := by
  rw [World.known?_eq, h, Option.bind_some]

/-- A request that constructs leaves its answer in its own context, and other contexts alone. -/
theorem Constructs.on_ask_eq (h : r.Constructs w) (hc : w.isAlive c = true)
    (hout : r.KeepsOut c w) :
    ∃ entry w', r.ask.on w = (.ok entry, w') ∧ entry.kind = r.kind ∧ w'.isAlive c = true ∧
      w'.cache c = if r.context = some c then (w.cache c).insert r.key entry else w.cache c := by
  obtain ⟨content, w', hrun, halive, hcache⟩ := hout
  have hask : r.ask.on w = (.ok ⟨r.kind, content⟩,
      (w'.keep r.context r.key ⟨r.kind, content⟩).note
        (.asked r.context r.key ⟨r.kind, content⟩ true)) := by
    rw [h r.construct, ScriptM.on_bind_of_ok hrun]
    rfl
  refine ⟨_, _, hask, rfl, ?_, ?_⟩
  · show (w'.keep r.context r.key _).isAlive c = true
    rw [World.isAlive_keep, halive, hc]
  · show (w'.keep r.context r.key _).cache c = _
    split
    case isTrue hown =>
      rw [hown, World.cache_keep_self (halive.trans hc), hcache]
    case isFalse hother => rw [World.cache_keep_of_ne hother, hcache]

end Request

/-! ## Requests in a row -/

/-- The requests that are made in a context under a key, in their order. -/
def requestsOn (c : ContextId) (key : Identity) (requests : List (Request σ)) : List (Request σ) :=
  requests.filter fun r => decide (r.IsOn c key)

namespace World

/-- The world after requests, one after the other. -/
def afterAsking (w : World σ) (requests : List (Request σ)) : World σ :=
  requests.foldl (fun u r => (r.ask.on u).2) w

/-- The constructors of the requests yield something, and leave alone what a context remembers. -/
def KeptOut (w : World σ) (c : ContextId) (requests : List (Request σ)) : Prop :=
  ∀ before r, before ++ [r] <+: requests → r.KeepsOut c (w.afterAsking before)

/-- One of the requests made in a context under a key has built the entry, and none of those after
it has run its constructor. -/
def BuiltBy (w : World σ) (c : ContextId) (key : Identity) (requests : List (Request σ))
    (entry : Entry) : Prop :=
  ∃ before r after, requests = before ++ r :: after ∧ r.IsOn c key ∧
    r.Constructs (w.afterAsking before) ∧ (r.ask.on (w.afterAsking before)).1 = .ok entry ∧
    ∀ between later rest, after = between ++ later :: rest → later.IsOn c key →
      ¬ later.Constructs (w.afterAsking (before ++ r :: between))

/-- What a context remembers after requests: nothing under a key that was not asked for, and else
what was built last, which is of the kind that was asked for last. -/
structure Memoizes (w : World σ) (c : ContextId) (requests : List (Request σ)) : Prop where
  alive : (w.afterAsking requests).isAlive c = true
  nodup : ((w.afterAsking requests).cache c).keys.Nodup
  absent : ∀ key, requestsOn c key requests = [] →
    ((w.afterAsking requests).cache c).get? key = none
  present : ∀ key last, (requestsOn c key requests).getLast? = some last →
    ∃ entry, ((w.afterAsking requests).cache c).get? key = some entry ∧ entry.kind = last.kind ∧
      w.BuiltBy c key requests entry

variable {w : World σ} {c : ContextId} {key : Identity} {requests : List (Request σ)}
  {r : Request σ} {entry : Entry}

theorem afterAsking_concat (w : World σ) (requests : List (Request σ)) (r : Request σ) :
    w.afterAsking (requests ++ [r]) = (r.ask.on (w.afterAsking requests)).2 :=
  List.foldl_append

theorem requestsOn_concat (c : ContextId) (key : Identity) (requests : List (Request σ))
    (r : Request σ) : requestsOn c key (requests ++ [r]) =
      requestsOn c key requests ++ if r.IsOn c key then [r] else [] := by
  rw [requestsOn, List.filter_append, ← requestsOn]
  by_cases hon : r.IsOn c key
  · simp only [List.filter_cons, List.filter_nil, decide_eq_true hon, if_pos hon, if_true]
  · simp only [List.filter_cons, List.filter_nil, decide_eq_false hon, if_neg hon,
      Bool.false_eq_true, if_false]

/-- One more request builds nothing in the place of an entry, if it is made elsewhere or runs no
constructor. -/
theorem BuiltBy.concat (h : w.BuiltBy c key requests entry)
    (hr : r.IsOn c key → ¬ r.Constructs (w.afterAsking requests)) :
    w.BuiltBy c key (requests ++ [r]) entry := by
  obtain ⟨before, q, after, rfl, hon, hconstructs, hask, hlater⟩ := h
  refine ⟨before, q, after ++ [r], by rw [List.append_assoc, List.cons_append], hon, hconstructs,
    hask, fun between later rest hsplit hlateron => ?_⟩
  rcases List.eq_nil_or_concat rest with rfl | ⟨rest, last, rfl⟩
  · obtain ⟨rfl, rfl⟩ := List.append_inj' hsplit rfl |>.imp_right List.singleton_inj.1
    exact hr hlateron
  · rw [List.concat_eq_append, ← List.cons_append, ← List.append_assoc] at hsplit
    obtain ⟨rfl, -⟩ := List.append_inj' hsplit rfl
    exact hlater between later rest rfl hlateron

/-- A request that constructs has built its own answer. -/
theorem builtBy_concat (hon : r.IsOn c key) (hconstructs : r.Constructs (w.afterAsking requests))
    (hask : (r.ask.on (w.afterAsking requests)).1 = .ok entry) :
    w.BuiltBy c key (requests ++ [r]) entry :=
  ⟨requests, r, [], rfl, hon, hconstructs, hask, fun between later rest hsplit =>
    absurd hsplit (List.append_ne_nil_of_right_ne_nil between (List.cons_ne_nil later rest)).symm⟩

theorem KeptOut.of_concat (h : w.KeptOut c (requests ++ [r])) : w.KeptOut c requests :=
  fun before q hbegins => h before q (hbegins.trans (List.prefix_append ..))

end World

namespace Cache

/-- Replacing an entry leaves the keys, and a new one adds its own. -/
theorem nodup_insert {cache : Cache} (hc : cache.keys.Nodup) (key : Identity) (entry : Entry) :
    (cache.insert key entry).keys.Nodup := by
  cases hold : cache.get? key with
  | none => exact nodup_keys_insert hold hc entry
  | some old =>
    have hsame : (cache.insert key entry).keys = cache.keys := by
      rw [insert, hold, Option.isSome_some, if_pos rfl, keys, keys, List.map_map]
      refine List.map_congr_left fun e _ => ?_
      by_cases hk : e.1 = key
      · rw [Function.comp_apply, if_pos hk, hk]
      · rw [Function.comp_apply, if_neg hk]
    rwa [hsame]

end Cache

namespace World.Memoizes

variable {w : World σ} {c : ContextId} {requests : List (Request σ)} {r : Request σ}

/-- Nothing was asked for in a new context. -/
theorem nil (hc : w.isAlive c = true) (hnew : w.cache c = {}) : w.Memoizes c [] where
  alive := hc
  nodup := by
    show (w.cache c).keys.Nodup
    rw [hnew]
    exact List.nodup_nil
  absent key _ := by
    show (w.cache c).get? key = none
    rw [hnew]
    rfl
  present key last hlast := by cases hlast

/-- A request that leaves the context as it is: it is made elsewhere, or is answered with what is
there. -/
theorem unchanged (h : w.Memoizes c requests)
    (halive : (r.ask.on (w.afterAsking requests)).2.isAlive c = true)
    (hcache : (r.ask.on (w.afterAsking requests)).2.cache c = (w.afterAsking requests).cache c)
    (hr : r.context = some c → ∃ content, (w.afterAsking requests).known? r.context r.key r.kind =
      some content) : w.Memoizes c (requests ++ [r]) := by
  have hrecalls : ∀ key, r.IsOn c key → ¬ r.Constructs (w.afterAsking requests) := by
    intro key hon hconstructs
    obtain ⟨content, hknown⟩ := hr hon.1
    rw [Request.constructs_iff.1 hconstructs] at hknown
    cases hknown
  constructor
  · rwa [afterAsking_concat]
  · rw [afterAsking_concat, hcache]
    exact h.nodup
  · intro key hnone
    rw [requestsOn_concat, List.append_eq_nil_iff] at hnone
    rw [afterAsking_concat, hcache, h.absent key hnone.1]
  · intro key last hlast
    rw [afterAsking_concat, hcache]
    rw [requestsOn_concat] at hlast
    by_cases hon : r.IsOn c key
    · -- the entry that answers the request is of its kind, and stays
      rw [if_pos hon, List.getLast?_concat] at hlast
      obtain rfl := Option.some.inj hlast
      obtain ⟨content, hknown⟩ := hr hon.1
      rw [Request.known?_of_context hon.1, hon.2] at hknown
      obtain ⟨entry, hentry, hcontent⟩ := Option.bind_eq_some_iff.1 hknown
      cases hprior : (requestsOn c key requests).getLast? with
      | none =>
        rw [h.absent key (List.getLast?_eq_none_iff.1 hprior)] at hentry
        cases hentry
      | some prior =>
        obtain ⟨entry', hentry', -, hbuilt⟩ := h.present key prior hprior
        obtain rfl := Option.some.inj (hentry.symm.trans hentry')
        refine ⟨entry, hentry, ?_, hbuilt.concat (hrecalls key)⟩
        rw [Entry.as?_eq_some.1 hcontent]
    · rw [if_neg hon, List.append_nil] at hlast
      obtain ⟨entry, hentry, hkind, hbuilt⟩ := h.present key last hlast
      exact ⟨entry, hentry, hkind, hbuilt.concat (hrecalls key)⟩

/-- A request in the context that runs its constructor. -/
theorem constructed (h : w.Memoizes c requests) (hcontext : r.context = some c)
    (hconstructs : r.Constructs (w.afterAsking requests)) {entry : Entry} {u : World σ}
    (hask : r.ask.on (w.afterAsking requests) = (.ok entry, u)) (hkind : entry.kind = r.kind)
    (halive : u.isAlive c = true)
    (hcache : u.cache c = ((w.afterAsking requests).cache c).insert r.key entry) :
    w.Memoizes c (requests ++ [r]) := by
  have hafter : w.afterAsking (requests ++ [r]) = u := by rw [afterAsking_concat, hask]
  constructor
  · rwa [hafter]
  · rw [hafter, hcache]
    exact Cache.nodup_insert h.nodup ..
  · intro key hnone
    rw [requestsOn_concat, List.append_eq_nil_iff] at hnone
    have hother : key ≠ r.key := by
      rintro rfl
      have hnot := hnone.2
      rw [if_pos ⟨hcontext, rfl⟩] at hnot
      cases hnot
    rw [hafter, hcache, Cache.get?_insert, if_neg hother, h.absent key hnone.1]
  · intro key last hlast
    rw [hafter, hcache, Cache.get?_insert]
    rw [requestsOn_concat] at hlast
    by_cases hkey : key = r.key
    · subst hkey
      rw [if_pos ⟨hcontext, rfl⟩, List.getLast?_concat] at hlast
      obtain rfl := Option.some.inj hlast
      exact ⟨entry, if_pos rfl, hkind,
        builtBy_concat ⟨hcontext, rfl⟩ hconstructs (congrArg Prod.fst hask)⟩
    · have hoff : ¬ r.IsOn c key := fun hon => hkey hon.2.symm
      rw [if_neg hoff, List.append_nil] at hlast
      obtain ⟨entry', hentry', hkind', hbuilt⟩ := h.present key last hlast
      rw [if_neg hkey]
      exact ⟨entry', hentry', hkind', hbuilt.concat fun hon => absurd hon hoff⟩

/-- One more request keeps it. -/
theorem concat (h : w.Memoizes c requests) (hout : r.KeepsOut c (w.afterAsking requests)) :
    w.Memoizes c (requests ++ [r]) := by
  cases hknown : (w.afterAsking requests).known? r.context r.key r.kind with
  | some content =>
    have hask := Request.recalls_of_known hknown r.construct
    exact h.unchanged (by rw [hask]; exact h.alive) (by rw [hask]; rfl) fun _ => ⟨content, hknown⟩
  | none =>
    have hconstructs := Request.constructs_iff.2 hknown
    obtain ⟨entry, u, hask, hkind, halive, hcache⟩ := hconstructs.on_ask_eq h.alive hout
    by_cases hcontext : r.context = some c
    · rw [if_pos hcontext] at hcache
      exact h.constructed hcontext hconstructs hask hkind halive hcache
    · rw [if_neg hcontext] at hcache
      refine h.unchanged ?_ ?_ fun hown => absurd hown hcontext
      · rw [hask]
        exact halive
      · rw [hask]
        exact hcache

/-- **Every row of requests in a new context leads to it.** -/
theorem of_keptOut (hc : w.isAlive c = true) (hnew : w.cache c = {})
    (hout : w.KeptOut c requests) : w.Memoizes c requests := by
  induction requests using List.reverseRecOn with
  | nil => exact nil hc hnew
  | append_singleton requests r ih =>
    exact (ih hout.of_concat).concat (hout requests r List.prefix_rfl)

/-! ## What the next request comes to -/

theorem constructs_iff (h : w.Memoizes c requests) (hcontext : r.context = some c) :
    r.Constructs (w.afterAsking requests) ↔
      ∀ last, (requestsOn c r.key requests).getLast? = some last → last.kind ≠ r.kind := by
  rw [Request.constructs_iff, Request.known?_of_context hcontext]
  cases hlast : (requestsOn c r.key requests).getLast? with
  | none =>
    rw [h.absent r.key (List.getLast?_eq_none_iff.1 hlast)]
    exact ⟨fun _ => nofun, fun _ => rfl⟩
  | some last =>
    obtain ⟨entry, hentry, hkind, -⟩ := h.present r.key last hlast
    rw [hentry, Option.bind_some]
    constructor
    · rintro hnone _ ⟨⟩ hsame
      obtain ⟨kind, content⟩ := entry
      obtain rfl : kind = r.kind := hkind.trans hsame
      cases hnone.symm.trans (Entry.as?_eq_some.2 rfl)
    · intro hother
      cases hcontent : entry.as? r.kind with
      | none => rfl
      | some content =>
        rw [Entry.as?_eq_some.1 hcontent] at hkind
        exact absurd hkind.symm (hother last rfl)

theorem recalls (h : w.Memoizes c requests) (hcontext : r.context = some c)
    (hnot : ¬ r.Constructs (w.afterAsking requests)) :
    ∃ content, r.Recalls (w.afterAsking requests) content ∧
      w.BuiltBy c r.key requests ⟨r.kind, content⟩ := by
  rw [Request.constructs_iff] at hnot
  obtain ⟨content, hknown⟩ := Option.ne_none_iff_exists'.1 hnot
  refine ⟨content, Request.recalls_of_known hknown, ?_⟩
  rw [Request.known?_of_context hcontext] at hknown
  obtain ⟨entry, hentry, hcontent⟩ := Option.bind_eq_some_iff.1 hknown
  cases hlast : (requestsOn c r.key requests).getLast? with
  | none =>
    rw [h.absent r.key (List.getLast?_eq_none_iff.1 hlast)] at hentry
    cases hentry
  | some last =>
    obtain ⟨entry', hentry', -, hbuilt⟩ := h.present r.key last hlast
    obtain rfl := Option.some.inj (hentry.symm.trans hentry')
    rwa [Entry.as?_eq_some.1 hcontent] at hbuilt

/-- The keys that are remembered are those that were asked for. -/
theorem mem_keys (h : w.Memoizes c requests) {key : Identity} :
    key ∈ ((w.afterAsking requests).cache c).keys ↔ ∃ r ∈ requests, r.IsOn c key := by
  rw [Cache.mem_keys]
  have hsome : (∃ r ∈ requests, r.IsOn c key) ↔ requestsOn c key requests ≠ [] := by
    simp [requestsOn]
  rw [hsome]
  constructor
  · rintro ⟨entry, hentry⟩ hnone
    rw [h.absent key hnone] at hentry
    cases hentry
  · intro hasked
    obtain ⟨last, hlast⟩ := Option.ne_none_iff_exists'.1 (List.getLast?_eq_none_iff.not.2 hasked)
    obtain ⟨entry, hentry, -⟩ := h.present key last hlast
    exact ⟨entry, hentry⟩

theorem remembered_eq (h : w.Memoizes c requests) :
    (w.afterAsking requests).remembered c =
      ((requests.filter (·.context = some c)).map (·.key)).dedup.length := by
  have hmem : ∀ key, key ∈ ((w.afterAsking requests).cache c).keys ↔
      key ∈ ((requests.filter (·.context = some c)).map (·.key)).dedup := by
    intro key
    rw [h.mem_keys, List.mem_dedup, List.mem_map]
    simp only [List.mem_filter, decide_eq_true_eq, and_assoc, Request.IsOn]
  have hperm := (List.perm_ext_iff_of_nodup h.nodup (List.nodup_dedup _)).2 hmem
  rw [World.remembered_eq, ← hperm.length_eq, Cache.keys, List.length_map, Cache.size]

end World.Memoizes

/-! ## What a request comes to -/

section Outcome

variable {w : World σ} {c : ContextId} {requests : List (Request σ)} {r : Request σ}

/-- **A request runs its constructor exactly if the last one before it was of another kind.** Let
requests be made one after the other while a new context is held, by constructors that do not
themselves reach into its memory. The next request in the context runs its constructor exactly if
there was none before it in the context under its key, or the last of those was of another kind.
Otherwise it is answered, without a run, with what was built by the last of those that ran theirs.
Other requests make no difference: after any row with the same ones in the context under the key, it
constructs or not as it does here. Without a context every request constructs. The context remembers
as many keys as there are different ones among the requests in it. -/
theorem World.memoization (hc : w.isAlive c = true) (hnew : w.cache c = {})
    (hout : w.KeptOut c requests) (r : Request σ) :
    let u := w.afterAsking requests
    (r.context = some c →
      (r.Constructs u ↔ ∀ last, (requestsOn c r.key requests).getLast? = some last →
        last.kind ≠ r.kind) ∧
      (¬ r.Constructs u → ∃ content, r.Recalls u content ∧
        w.BuiltBy c r.key requests ⟨r.kind, content⟩) ∧
      ∀ others, w.KeptOut c others → requestsOn c r.key others = requestsOn c r.key requests →
        (r.Constructs (w.afterAsking others) ↔ r.Constructs u)) ∧
    (r.context = none → r.Constructs u) ∧
    u.remembered c = ((requests.filter (·.context = some c)).map (·.key)).dedup.length := by
  intro u
  have hconstructs : r.context = some c → ∀ row, w.KeptOut c row →
      (r.Constructs (w.afterAsking row) ↔ ∀ last, (requestsOn c r.key row).getLast? = some last →
        last.kind ≠ r.kind) := fun hcontext row hrow =>
    (Memoizes.of_keptOut hc hnew hrow).constructs_iff hcontext
  have hmemoizes := Memoizes.of_keptOut hc hnew hout
  refine ⟨fun hcontext => ⟨hconstructs hcontext _ hout, fun hnot => ?_, fun others hothers hsame => ?_⟩,
    Request.constructs_of_no_context, ?_⟩
  · exact hmemoizes.recalls hcontext hnot
  · rw [hconstructs hcontext _ hothers, hsame, ← hconstructs hcontext _ hout]
  · exact hmemoizes.remembered_eq

end Outcome

/-- A request for an entry that is there to be remembered. -/
def Request.offering (context : Option ContextId) (key : Identity) (entry : Entry) : Request σ :=
  ⟨context, key, entry.kind, pure entry.content⟩

theorem Request.keepsOut_offering (c : ContextId) (w : World σ) (context : Option ContextId)
    (key : Identity) (entry : Entry) : (offering context key entry).KeepsOut c w :=
  ⟨entry.content, w, rfl, rfl, rfl⟩

namespace Catalog

/-- A context in which nothing was asked for. -/
def unasked : World Catalog :=
  (World.initial ⟨0, {}⟩ .standard).after (.openContext ⟨{}, .standard, .standard⟩)

/-- A text is asked for under a key, and another one; then a value of a type of the embedding program
in their place, and again without the context. -/
def asking : List (Request Catalog) :=
  [.offering (some ⟨0⟩) (.callable "fn probe") ⟨.text, "first"⟩,
    .offering (some ⟨0⟩) (.callable "fn probe") ⟨.text, "second"⟩,
    .offering (some ⟨0⟩) (.callable "fn probe") ⟨.foreign "Probe", 16⟩,
    .offering none (.callable "fn probe") ⟨.text, "third"⟩]

/-- The value is found again under its type, and the text is not. -/
theorem memoization_asking :
    let u := unasked.afterAsking asking
    let probe : Request Catalog :=
      .offering (some ⟨0⟩) (.callable "fn probe") ⟨.foreign "Probe", 32⟩
    let text : Request Catalog := .offering (some ⟨0⟩) (.callable "fn probe") ⟨.text, "first"⟩
    ¬ probe.Constructs u ∧ probe.Recalls u (16 : Nat) ∧ text.Constructs u ∧ u.remembered ⟨0⟩ = 1 := by
  intro u probe text
  have hout : unasked.KeptOut ⟨0⟩ asking := by
    intro before r hbegins
    have hmem : r ∈ asking := hbegins.subset List.mem_concat_self
    simp only [asking, List.mem_cons, List.not_mem_nil, or_false] at hmem
    rcases hmem with rfl | rfl | rfl | rfl <;> exact Request.keepsOut_offering ..
  have hlast : (requestsOn ⟨0⟩ (.callable "fn probe") asking).getLast? =
      some (.offering (some ⟨0⟩) (.callable "fn probe") ⟨.foreign "Probe", 16⟩) := rfl
  obtain ⟨hprobe, -, hcount⟩ := World.memoization (w := unasked) rfl rfl hout probe
  obtain ⟨htext, -, -⟩ := World.memoization (w := unasked) rfl rfl hout text
  obtain ⟨hprobe, hrecalls, -⟩ := hprobe rfl
  have hnot : ¬ probe.Constructs u := fun h => hprobe.1 h _ hlast rfl
  obtain ⟨content, hcontent, -⟩ := hrecalls hnot
  refine ⟨hnot, ?_, (htext rfl).1.2 fun last h => ?_, hcount.trans (by decide)⟩
  · have hanswer : (probe.ask.on u).1 = .ok ⟨.foreign "Probe", content⟩ :=
      congrArg Prod.fst (hcontent probe.construct)
    cases hanswer
    exact hcontent
  · obtain rfl := Option.some.inj (hlast.symm.trans h)
    decide

end Catalog

end Membrane
