import Membrane.Catalog.Running
import Membrane.Proofs.History
import Membrane.Proofs.Store
import Mathlib.Logic.Function.Basic

/-!
# The own part is an ordered map

What the own part of an ordinary object comes to after a history of edits, said of the history
alone. A key is present if an edit gave it a value and no edit erased it since (`Present`); it is
listed by the place in the history where it was last added after being absent (`AddedAt`); and its
value is the last one written from that place on (`LastWrites`). All three are of the form
"something happened, and nothing of another sort since" (`Since`), and one lemma says what one more
edit does to that.

`PropertyTable` keeps the values and the order of the keys apart, as two structures that each edit
has to update in step. Replaying the history on it gives the same keys, values and extensibility.
-/

namespace Membrane

/-! ## Histories -/

/-- An edit came that is `here` after the edits before it, and none that `undoes` it came since. -/
def Since (here : List Edit → Edit → Prop) (undoes : Edit → Prop) (history : List Edit) : Prop :=
  ∃ before e after, history = before ++ e :: after ∧ here before e ∧ ∀ x ∈ after, ¬ undoes x

/-- Unless it is refused, the edit leaves the key with a value: only writing can be refused, once
extensions are prevented. -/
def Edit.Gives (key : PropertyKey) (before : List Edit) (e : Edit) : Prop :=
  ∃ value, e = .define key value ∨ e = .put key value ∧ .preventExtensions ∉ before

/-- The edit asks for the key to have this value. -/
def Edit.Writes (key : PropertyKey) (value : ScriptValue) (e : Edit) : Prop :=
  e = .put key value ∨ e = .define key value

/-- The history leaves the key present. -/
def Present (key : PropertyKey) (history : List Edit) : Prop :=
  Since (Edit.Gives key) (· = .erase key) history

/-- The key was last added at a place of the history where it was absent, and is present since. -/
def AddedAt (key : PropertyKey) (place : Nat) (history : List Edit) : Prop :=
  Since (fun before e => before.length = place ∧ ¬ Present key before ∧ e.Gives key before)
    (· = .erase key) history

/-- The last value that the history writes under the key. -/
def LastWrites (key : PropertyKey) (value : ScriptValue) (history : List Edit) : Prop :=
  Since (fun _ e => e.Writes key value) (fun e => ∃ other, e.Writes key other) history

/-- The value is the last one written since the key was added. -/
def LeftWith (key : PropertyKey) (value : ScriptValue) (history : List Edit) : Prop :=
  ∃ place, AddedAt key place history ∧ LastWrites key value (history.drop place)

variable {here : List Edit → Edit → Prop} {undoes : Edit → Prop} {history : List Edit} {e : Edit}
  {key k : PropertyKey} {value : ScriptValue} {place : Nat}

theorem not_since_nil : ¬ Since here undoes [] := by
  rintro ⟨before, e, after, hsplit, -⟩
  exact List.append_ne_nil_of_right_ne_nil before (List.cons_ne_nil e after) hsplit.symm

/-- One more edit is `here` itself, or leaves what was there unless it `undoes` that. -/
theorem since_concat :
    Since here undoes (history ++ [e]) ↔ here history e ∨ Since here undoes history ∧ ¬ undoes e := by
  constructor
  · rintro ⟨before, x, after, hsplit, hhere, hkept⟩
    rcases List.eq_nil_or_concat after with rfl | ⟨after, last, rfl⟩
    · obtain ⟨rfl, rfl⟩ := List.append_inj' hsplit rfl |>.imp_right List.singleton_inj.1
      exact .inl hhere
    · rw [List.concat_eq_append, ← List.cons_append, ← List.append_assoc] at hsplit
      obtain ⟨rfl, rfl⟩ := List.append_inj' hsplit rfl |>.imp_right List.singleton_inj.1
      simp only [List.concat_eq_append, List.mem_append, List.mem_singleton] at hkept
      exact .inr ⟨⟨before, x, after, rfl, hhere, fun y hy => hkept y (.inl hy)⟩,
        hkept e (.inr rfl)⟩
  · rintro (hhere | ⟨⟨before, x, after, rfl, hhere, hkept⟩, hlast⟩)
    · exact ⟨history, e, [], rfl, hhere, fun _ hx => absurd hx List.not_mem_nil⟩
    · refine ⟨before, x, after ++ [e], by rw [List.append_assoc, List.cons_append], hhere, ?_⟩
      intro y hy
      rcases List.mem_append.1 hy with hy | hy
      · exact hkept y hy
      · rwa [List.mem_singleton.1 hy]

theorem present_concat :
    Present key (history ++ [e]) ↔ e.Gives key history ∨ Present key history ∧ e ≠ .erase key :=
  since_concat

theorem addedAt_concat :
    AddedAt key place (history ++ [e]) ↔
      (history.length = place ∧ ¬ Present key history ∧ e.Gives key history) ∨
        AddedAt key place history ∧ e ≠ .erase key :=
  since_concat

theorem AddedAt.lt (h : AddedAt key place history) : place < history.length := by
  obtain ⟨before, e, after, rfl, ⟨rfl, -⟩, -⟩ := h
  rw [List.length_append, List.length_cons]
  omega

/-- A key that is present was added somewhere. -/
theorem present_iff_addedAt : Present key history ↔ ∃ place, AddedAt key place history := by
  induction history using List.reverseRecOn with
  | nil => exact ⟨fun h => absurd h not_since_nil, fun ⟨_, h⟩ => absurd h not_since_nil⟩
  | append_singleton history e ih =>
    simp only [present_concat, addedAt_concat, ih]
    constructor
    · rintro (hgives | ⟨⟨place, hadded⟩, herase⟩)
      · by_cases hpresent : Present key history
        · obtain ⟨place, hadded⟩ := ih.1 hpresent
          refine ⟨place, .inr ⟨hadded, ?_⟩⟩
          rintro rfl
          obtain ⟨value, hvalue | ⟨hvalue, -⟩⟩ := hgives <;> cases hvalue
        · exact ⟨_, .inl ⟨rfl, by rwa [← ih], hgives⟩⟩
      · exact ⟨place, .inr ⟨hadded, herase⟩⟩
    · rintro ⟨place, ⟨-, -, hgives⟩ | ⟨hadded, herase⟩⟩
      · exact .inl hgives
      · exact .inr ⟨⟨place, hadded⟩, herase⟩

/-- A key was last added at one place only. -/
theorem AddedAt.unique {place' : Nat} (h : AddedAt key place history)
    (h' : AddedAt key place' history) : place = place' := by
  induction history using List.reverseRecOn with
  | nil => exact absurd h not_since_nil
  | append_singleton history e ih =>
    have hpresent : ∀ {p}, AddedAt key p history → Present key history := fun hp =>
      present_iff_addedAt.2 ⟨_, hp⟩
    rcases addedAt_concat.1 h with ⟨rfl, habsent, -⟩ | ⟨hold, -⟩
    · rcases addedAt_concat.1 h' with ⟨rfl, -⟩ | ⟨hold', -⟩
      · rfl
      · exact absurd (hpresent hold') habsent
    · rcases addedAt_concat.1 h' with ⟨rfl, habsent, -⟩ | ⟨hold', -⟩
      · exact absurd (hpresent hold) habsent
      · exact ih hold hold'

theorem lastWrites_drop_concat (hplace : place ≤ history.length) :
    LastWrites key value ((history ++ [e]).drop place) ↔
      e.Writes key value ∨
        LastWrites key value (history.drop place) ∧ ¬ ∃ other, e.Writes key other := by
  rw [List.drop_append_of_le_length hplace]
  exact since_concat

namespace Edit.Writes

variable (h : e.Writes key value)
include h

theorem iff {v : ScriptValue} : e.Writes k v ↔ k = key ∧ v = value := by
  rcases h with rfl | rfl
  · simp [Edit.Writes, eq_comm]
  · simp [Edit.Writes, eq_comm]

theorem ne_erase : e ≠ .erase k := by
  rcases h with rfl | rfl <;> exact nofun

theorem ne_preventExtensions : e ≠ .preventExtensions := by
  rcases h with rfl | rfl <;> exact nofun

/-- A key that has just been written is left with the value that was written. -/
theorem leftWith (hpresent : Present key (history ++ [e])) {v : ScriptValue} :
    LeftWith key v (history ++ [e]) ↔ v = value := by
  have hwritten : ∀ place, AddedAt key place (history ++ [e]) →
      (LastWrites key v ((history ++ [e]).drop place) ↔ v = value) := by
    intro place hplace
    have hlt := hplace.lt
    rw [List.length_append, List.length_singleton] at hlt
    rw [lastWrites_drop_concat (Nat.le_of_lt_succ hlt), h.iff, or_iff_left, and_iff_right rfl]
    exact fun hno => hno.2 ⟨value, h⟩
  constructor
  · rintro ⟨place, hplace, hlast⟩
    exact (hwritten place hplace).1 hlast
  · intro hv
    obtain ⟨place, hplace⟩ := present_iff_addedAt.1 hpresent
    exact ⟨place, hplace, (hwritten place hplace).2 hv⟩

end Edit.Writes

theorem Edit.Gives.writes (h : e.Gives key history) : ∃ value, e.Writes key value := by
  obtain ⟨value, rfl | ⟨rfl, -⟩⟩ := h
  · exact ⟨value, .inr rfl⟩
  · exact ⟨value, .inl rfl⟩

/-! ## Edits that leave a key alone -/

/-- The edit makes no difference to a key: it neither adds nor erases it, and does not write it
where it is present. -/
structure Edit.Spares (history : List Edit) (key : PropertyKey) (e : Edit) : Prop where
  gives : ¬ e.Gives key history
  erase : e ≠ .erase key
  writes : Present key history → ¬ ∃ value, e.Writes key value

theorem Edit.spares_of_not_writes (hwrites : ∀ value, ¬ e.Writes key value)
    (herase : e ≠ .erase key) : e.Spares history key where
  gives hgives := by
    obtain ⟨value, hvalue⟩ := hgives.writes
    exact hwrites value hvalue
  erase := herase
  writes := by
    rintro - ⟨value, hvalue⟩
    exact hwrites value hvalue

/-- Writing a key leaves all others alone. -/
theorem Edit.Writes.spares (h : e.Writes key value) (hk : k ≠ key) : e.Spares history k :=
  spares_of_not_writes (fun _ hv => hk (h.iff.1 hv).1) h.ne_erase

/-- So does erasing a key. -/
theorem Edit.spares_erase (hk : k ≠ key) : (Edit.erase key).Spares history k :=
  spares_of_not_writes (fun _ hv => hv.ne_erase rfl) fun h => hk (Edit.erase.inj h).symm

theorem Edit.spares_preventExtensions : Edit.preventExtensions.Spares history k :=
  spares_of_not_writes (fun _ hv => hv.ne_preventExtensions rfl) nofun

theorem Edit.spares_link {link : Option ObjectId} : (Edit.link link).Spares history k :=
  spares_of_not_writes (fun _ hv => hv.elim nofun nofun) nofun

namespace Edit.Spares

variable (h : e.Spares history key)
include h

theorem present : Present key (history ++ [e]) ↔ Present key history := by
  rw [present_concat, or_iff_right h.gives, and_iff_left h.erase]

theorem addedAt : AddedAt key place (history ++ [e]) ↔ AddedAt key place history := by
  rw [addedAt_concat, or_iff_right fun hadds => h.gives hadds.2.2, and_iff_left h.erase]

theorem leftWith : LeftWith key value (history ++ [e]) ↔ LeftWith key value history := by
  refine exists_congr fun place => ?_
  rw [h.addedAt]
  refine and_congr_right fun hplace => ?_
  have hnot := h.writes (present_iff_addedAt.2 ⟨place, hplace⟩)
  rw [lastWrites_drop_concat (Nat.le_of_lt hplace.lt), and_iff_left hnot,
    or_iff_right fun hw => hnot ⟨value, hw⟩]

end Edit.Spares

/-! ## The own part after a history -/

/-- The own part is the ordered map that the history makes: no key twice, the keys that are present,
in the order of the places where they were added, each with the last value written since then. -/
structure Store.Recounts (s : Store) (history : List Edit) : Prop where
  nodup : s.keys.Nodup
  present : ∀ key, key ∈ s.keys ↔ Present key history
  order : s.keys.Pairwise fun a b =>
    ∀ i j, AddedAt a i history → AddedAt b j history → i < j
  value : ∀ key value, s.get? key = some value ↔ LeftWith key value history
  extensible : s.extensible = true ↔ .preventExtensions ∉ history

namespace Store

variable {s s' : Store}

theorem keys_erase (s : Store) (key : PropertyKey) :
    (s.erase key).keys = s.keys.filter fun k => k != key := by
  rw [keys, erase, keys, List.filter_map]
  rfl

theorem get?_eq_none : s.get? key = none ↔ key ∉ s.keys := by
  rw [← contains_eq_true, contains, Option.isSome_iff_ne_none, not_not]

theorem get?_erase (s : Store) (key k : PropertyKey) :
    (s.erase key).get? k = if k = key then none else s.get? k := by
  by_cases hk : k = key
  · rw [if_pos hk, get?_eq_none, keys_erase, List.mem_filter, hk]
    simp
  · rw [if_neg hk, get?_erase_of_ne s hk]

theorem mem_keys_define (s : Store) (key : PropertyKey) (value : ScriptValue) (k : PropertyKey) :
    k ∈ (s.define key value).keys ↔ k = key ∨ k ∈ s.keys := by
  rw [← contains_eq_true, contains, get?_define, ← contains_eq_true, contains]
  by_cases hk : k = key
  · simp [hk]
  · simp [hk]

/-- A new own part has no history. -/
theorem recounts_new (link : Option ObjectId) : Store.Recounts { prototype := link } [] where
  nodup := List.nodup_nil
  present key := ⟨fun h => absurd h List.not_mem_nil, fun h => absurd h not_since_nil⟩
  order := List.Pairwise.nil
  value key value := by
    constructor
    · intro h
      cases h
    · rintro ⟨_, h, -⟩
      exact absurd h not_since_nil
  extensible := ⟨fun _ => List.not_mem_nil, fun _ => rfl⟩

namespace Recounts

/-- An edit that leaves all keys alone. -/
theorem spare (h : s.Recounts history) (hspares : ∀ key, e.Spares history key)
    (hsame : s'.properties = s.properties)
    (hext : s'.extensible = true ↔ .preventExtensions ∉ history ++ [e]) :
    s'.Recounts (history ++ [e]) := by
  have hkeys : s'.keys = s.keys := congrArg (List.map Prod.fst) hsame
  have hget : ∀ key, s'.get? key = s.get? key := fun key => congrArg (List.lookup key) hsame
  constructor
  · rw [hkeys]
    exact h.nodup
  · intro key
    rw [hkeys, (hspares key).present]
    exact h.present key
  · rw [hkeys]
    refine h.order.imp fun hij i j hi hj => ?_
    exact hij i j ((hspares _).addedAt.1 hi) ((hspares _).addedAt.1 hj)
  · intro key value
    rw [hget, (hspares key).leftWith]
    exact h.value key value
  · exact hext

/-- An edit that gives a key a value and is not refused. -/
theorem define (h : s.Recounts history) (hwrites : e.Writes key value)
    (htaken : Present key history ∨ e.Gives key history) :
    (s.define key value).Recounts (history ++ [e]) := by
  have hkey : Present key (history ++ [e]) :=
    present_concat.2 (htaken.symm.imp_right fun hpresent => ⟨hpresent, hwrites.ne_erase⟩)
  have hother : ∀ {k}, k ≠ key → e.Spares history k := fun hk => hwrites.spares hk
  constructor
  · exact nodup_define h.nodup
  · intro k
    rw [mem_keys_define, h.present]
    by_cases hk : k = key
    · simp [hk, hkey]
    · rw [(hother hk).present, or_iff_right hk]
  · have hold : ∀ {k place}, k ∈ s.keys → AddedAt k place (history ++ [e]) →
        AddedAt k place history := by
      intro k place hmem hplace
      -- a key that was there already is not added again
      rcases addedAt_concat.1 hplace with ⟨-, habsent, -⟩ | ⟨hplace, -⟩
      · exact absurd ((h.present k).1 hmem) habsent
      · exact hplace
    have horder : s.keys.Pairwise fun a b =>
        ∀ i j, AddedAt a i (history ++ [e]) → AddedAt b j (history ++ [e]) → i < j := by
      refine h.order.imp_of_mem fun ha hb hij i j hi hj => ?_
      exact hij i j (hold ha hi) (hold hb hj)
    rw [keys_define]
    split
    case isTrue => exact horder
    case isFalse hnew =>
      refine List.pairwise_append.2 ⟨horder, List.pairwise_singleton .., ?_⟩
      intro a ha b hb i j hi hj
      -- the new key was added last of all
      obtain rfl := List.mem_singleton.1 hb
      rcases addedAt_concat.1 hj with ⟨rfl, -⟩ | ⟨hj, -⟩
      · exact (hold ha hi).lt
      · have hpresent := present_iff_addedAt.2 ⟨j, hj⟩
        exact absurd (contains_eq_true.2 ((h.present b).2 hpresent)) hnew
  · intro k v
    rw [get?_define]
    by_cases hk : k = key
    · subst hk
      rw [if_pos rfl, Option.some.injEq, hwrites.leftWith hkey, eq_comm]
    · rw [if_neg hk, (hother hk).leftWith]
      exact h.value k v
  · rw [extensible_define, h.extensible, List.mem_append, List.mem_singleton,
      or_iff_left (Ne.symm hwrites.ne_preventExtensions)]

/-- An edit that erases a key. -/
theorem erase (h : s.Recounts history) (key : PropertyKey) :
    (s.erase key).Recounts (history ++ [.erase key]) := by
  have habsent : ¬ Present key (history ++ [.erase key]) := by
    rw [present_concat]
    rintro (hgives | ⟨-, hne⟩)
    · obtain ⟨value, hvalue⟩ := hgives.writes
      exact hvalue.ne_erase rfl
    · exact hne rfl
  constructor
  · exact nodup_erase h.nodup
  · intro k
    rw [keys_erase, List.mem_filter, h.present, bne_iff_ne]
    by_cases hk : k = key
    · simp [hk, habsent]
    · rw [(Edit.spares_erase hk).present, and_iff_left hk]
  · rw [keys_erase]
    refine (h.order.sublist List.filter_sublist).imp_of_mem fun ha hb hij i j hi hj => ?_
    have hother : ∀ {k}, k ∈ s.keys.filter (fun k => k != key) → (Edit.erase key).Spares history k :=
      fun hk => Edit.spares_erase (bne_iff_ne.1 (List.mem_filter.1 hk).2)
    exact hij i j ((hother ha).addedAt.1 hi) ((hother hb).addedAt.1 hj)
  · intro k v
    rw [get?_erase]
    by_cases hk : k = key
    · subst hk
      rw [if_pos rfl]
      constructor
      · exact nofun
      · rintro ⟨place, hplace, -⟩
        exact absurd (present_iff_addedAt.2 ⟨place, hplace⟩) habsent
    · rw [if_neg hk, (Edit.spares_erase hk).leftWith]
      exact h.value k v
  · rw [List.mem_append, List.mem_singleton, or_iff_left nofun]
    exact h.extensible

/-- A put that is refused: the object is closed and the key is not there. -/
theorem spares_refused (h : s.Recounts history) (hnew : s.contains key = false)
    (hclosed : s.extensible = false) : (Edit.put key value).Spares history k where
  gives := by
    rintro ⟨v, hv | ⟨-, hopen⟩⟩
    · cases hv
    · rw [h.extensible.2 hopen] at hclosed
      cases hclosed
  erase := nofun
  writes := by
    rintro hpresent ⟨v, hv | hv⟩
    · cases hv
      rw [contains_eq_true.2 ((h.present _).2 hpresent)] at hnew
      cases hnew
    · cases hv

/-- **Each edit keeps the own part what its history makes of it.** -/
theorem edits (h : s.Recounts history) (he : s.Edits e s') : s'.Recounts (history ++ [e]) := by
  have hlink : ∀ link, s.extensible = true ↔ .preventExtensions ∉ history ++ [.link link] := by
    intro link
    rw [h.extensible, List.mem_append, List.mem_singleton, or_iff_left nofun]
  cases he with
  | @taken key value takes =>
    refine h.define (.inl rfl) ?_
    rcases takes with hcontains | hopen
    · exact .inl ((h.present key).1 (contains_eq_true.1 hcontains))
    · exact .inr ⟨value, .inr ⟨rfl, h.extensible.1 hopen⟩⟩
  | @refused key value new closed =>
    refine h.spare (fun _ => h.spares_refused new closed) rfl ?_
    rw [h.extensible, List.mem_append, List.mem_singleton, or_iff_left nofun]
  | @defined key value => exact h.define (.inr rfl) (.inr ⟨value, .inl rfl⟩)
  | @erased key => exact h.erase key
  | closed =>
    refine h.spare (fun _ => Edit.spares_preventExtensions) rfl ?_
    simp [preventExtensions]
  | unlinked => exact h.spare (fun _ => Edit.spares_link) rfl (hlink none)
  | @linked x extensible => exact h.spare (fun _ => Edit.spares_link) rfl (hlink (some x))
  | @unmoved x => exact h.spare (fun _ => Edit.spares_link) rfl (hlink (some x))

end Recounts

end Store

/-! ## Values and order apart -/

/-- An ordered map as two structures: the value under each key, and the keys in their order. -/
structure PropertyTable where
  values : PropertyKey → Option ScriptValue := fun _ => none
  order : List PropertyKey := []
  extensible : Bool := true

namespace PropertyTable

/-- Replaces the value under a key, or adds the key behind the others; a table that is not
extensible refuses to add one. -/
def put (t : PropertyTable) (key : PropertyKey) (value : ScriptValue) :
    Except Fault PropertyTable :=
  if (t.values key).isSome then .ok { t with values := Function.update t.values key value }
  else if !t.extensible then .error (.notExtensible key)
  else .ok { t with order := t.order ++ [key], values := Function.update t.values key value }

/-- Gives a key a value, and adds the key behind the others if it has none. -/
def define (t : PropertyTable) (key : PropertyKey) (value : ScriptValue) : PropertyTable :=
  { t with
    order := if !(t.values key).isSome then t.order ++ [key] else t.order
    values := Function.update t.values key value }

/-- Takes the value under a key away, and the key out of the order if it had one. -/
def erase (t : PropertyTable) (key : PropertyKey) : PropertyTable :=
  if (t.values key).isSome then
    { t with values := Function.update t.values key none, order := t.order.filter (· != key) }
  else t

/-- What an edit makes of a table. -/
def edit (t : PropertyTable) : Edit → PropertyTable
  | .put key value => match t.put key value with
    | .ok t' => t'
    | .error _ => t
  | .define key value => t.define key value
  | .erase key => t.erase key
  | .preventExtensions => { t with extensible := false }
  | .link _ => t

/-- The table after a history. -/
def replay (history : List Edit) : PropertyTable := history.foldl edit {}

/-- The table has the values, the keys and the extensibility of an own part. -/
structure Agrees (t : PropertyTable) (s : Store) : Prop where
  values : ∀ key, t.values key = s.get? key
  order : t.order = s.keys
  extensible : t.extensible = s.extensible

variable {t : PropertyTable} {s s' : Store}

theorem Agrees.define (h : t.Agrees s) (key : PropertyKey) (value : ScriptValue) :
    (t.define key value).Agrees (s.define key value) where
  values k := by
    rw [Store.get?_define, ← h.values]
    exact Function.update_apply ..
  order := by
    rw [Store.keys_define, PropertyTable.define, h.values, h.order, Store.contains]
    cases (s.get? key).isSome <;> rfl
  extensible := by
    rw [Store.extensible_define]
    exact h.extensible

theorem Agrees.erase (h : t.Agrees s) (key : PropertyKey) :
    (t.erase key).Agrees (s.erase key) := by
  rw [PropertyTable.erase, h.values]
  split
  case isTrue =>
    constructor
    · intro k
      rw [Store.get?_erase, ← h.values]
      exact Function.update_apply ..
    · rw [Store.keys_erase, h.order]
    · exact h.extensible
  case isFalse hnone =>
    rw [Option.isSome_iff_ne_none, not_not] at hnone
    constructor
    · intro k
      rw [Store.get?_erase, h.values]
      by_cases hk : k = key
      · rw [if_pos hk, hk, hnone]
      · rw [if_neg hk]
    · rw [Store.keys_erase, h.order, List.filter_eq_self.2]
      intro k hk
      rw [bne_iff_ne]
      rintro rfl
      exact Store.get?_eq_none.1 hnone hk
    · exact h.extensible

/-- Where a put is taken, it does what `define` does. -/
theorem Agrees.put (h : t.Agrees s) (key : PropertyKey) (value : ScriptValue) :
    t.put key value =
      if s.contains key || s.extensible then .ok (t.define key value)
      else .error (.notExtensible key) := by
  rw [PropertyTable.put, PropertyTable.define, h.values, h.extensible, Store.contains]
  cases (s.get? key).isSome
  · cases s.extensible <;> rfl
  · rfl

theorem Agrees.edits (h : t.Agrees s) {e : Edit} (he : s.Edits e s') : (t.edit e).Agrees s' := by
  cases he with
  | @taken key value takes =>
    rw [edit, h.put, if_pos (Bool.or_eq_true_iff.2 takes)]
    exact h.define key value
  | @refused key value new closed =>
    rw [edit, h.put, new, closed]
    exact h
  | @defined key value => exact h.define key value
  | @erased key => exact h.erase key
  | closed => exact ⟨h.values, h.order, rfl⟩
  | unlinked => exact ⟨h.values, h.order, h.extensible⟩
  | linked extensible => exact ⟨h.values, h.order, h.extensible⟩
  | unmoved => exact h

theorem replay_concat (history : List Edit) (e : Edit) :
    replay (history ++ [e]) = (replay history).edit e :=
  List.foldl_append

end PropertyTable

/-! ## Ordinary objects -/

section Objects

variable {σ : Type} [Host σ] {w w' : World σ} {id : ObjectId}

/-- **The own part of an ordinary object is an ordered map.** Take a new object, and any course of
moves. In the end the object lists each key that is present exactly once, and no other, in the order
in which they were last added after being absent; and it gives each the last value that was written
since it was added. The values and the order of keys, kept apart and updated in step, come to the
same. A put fails exactly if the object takes no new properties and has none of this key; then it
fails with a type error, and nothing at all has changed. -/
theorem World.Reachable.ordered (hw : w.Reachable) (ho : w.heap.IsOrdinary id)
    {link : Option ObjectId} (hnew : w.heap.store id = { prototype := link })
    {moves : List (Move σ)} (h : w.Course moves w') :
    let own := w'.heap.store id
    (id.ids).on w' = (.ok own.keys, w') ∧
    (∀ key, (id.getOwn key).on w' = (.ok (own.get? key), w')) ∧
    own.Recounts (editsOf id moves) ∧
    (∀ key, Present key (editsOf id moves) → ∃! place, AddedAt key place (editsOf id moves)) ∧
    (PropertyTable.replay (editsOf id moves)).Agrees own ∧
    ∀ key value,
      (own.contains key = false ∧ own.extensible = false ∧
        ∃ e, (id.put key value).on w' = (.error e, w') ∧ e.native? =
          some (.type, "Cannot add property " ++ key.render ++ ", object is not extensible")) ∨
      ((own.contains key = true ∨ own.extensible = true) ∧
        (id.put key value).on w' = (.ok (), w'.setStore id (own.define key value))) := by
  intro own
  have htold := h.tells hw.sound ho
    (P := fun history s => s.Recounts history ∧ (PropertyTable.replay history).Agrees s)
    (hnew ▸ ⟨Store.recounts_new link, ⟨fun _ => rfl, rfl, rfl⟩⟩) ?step
  case step =>
    rintro history s e s' ⟨hrecounts, hagrees⟩ he
    refine ⟨hrecounts.edits he, ?_⟩
    rw [PropertyTable.replay_concat]
    exact hagrees.edits he
  obtain ⟨ho', hrecounts, hagrees⟩ := htold
  refine ⟨on_ids_of_isOrdinary ho', on_getOwn_of_isOrdinary ho', hrecounts, ?_, hagrees, ?_⟩
  · intro key hpresent
    obtain ⟨place, hplace⟩ := present_iff_addedAt.1 hpresent
    exact ⟨place, hplace, fun place' hplace' => hplace'.unique hplace⟩
  · intro key value
    rw [on_put_of_isOrdinary ho']
    split
    case isTrue htakes => exact .inr ⟨Bool.or_eq_true_iff.1 htakes, rfl⟩
    case isFalse hrefuses =>
      simp only [Bool.or_eq_true, not_or, Bool.not_eq_true] at hrefuses
      exact .inl ⟨hrefuses.1, hrefuses.2, _, rfl, rfl⟩

end Objects

namespace Catalog

/-- A new ordinary object. -/
def shelf : World Catalog := (World.initial ⟨0, {}⟩ .standard).after (.ordinary "Object")

/-- Three keys are put, the first of them again, then erased and put once more. -/
def shelving : List (Move Catalog) :=
  [.put ⟨0⟩ (.name "b") (.boolean true), .put ⟨0⟩ (.name "7") .null, .put ⟨0⟩ (.index 7) .null,
    .put ⟨0⟩ (.name "b") (.boolean false), .erase ⟨0⟩ (.name "b"),
    .put ⟨0⟩ (.name "b") (.string "last"), .preventExtensions ⟨0⟩]

/-- The key that was erased comes last, the name `7` is not the index `7`, and a fourth key is
refused. -/
theorem ordered_shelf :
    let w := shelving.foldl World.after shelf
    (ObjectId.ids ⟨0⟩).on w = (.ok [.name "7", .index 7, .name "b"], w) ∧
      LeftWith (.name "b") (.string "last") (editsOf ⟨0⟩ shelving) ∧
      ∃ e, (ObjectId.put ⟨0⟩ (.name "a") .null).on w = (.error e, w) := by
  have hw : shelf.Reachable :=
    ((World.initial_reachable _ _).after (m := .ordinary _) trivial trivial).reachable
  have hedits : ∀ m ∈ shelving, ∃ e, m.request? = some (⟨0⟩, e) ∧ ∀ x, e ≠ .link (some x) := by
    simp [shelving, Move.request?]
  have ho : shelf.heap.IsOrdinary ⟨0⟩ := ⟨_, rfl⟩
  have hnew : shelf.heap.store ⟨0⟩ = { prototype := none } := rfl
  have hcourse := World.course_foldl hw.sound ho hedits
  obtain ⟨hids, -, hrecounts, -, -, hput⟩ := hw.ordered ho hnew hcourse
  refine ⟨hids, (hrecounts.value _ _).1 rfl, ?_⟩
  rcases hput (.name "a") .null with ⟨-, -, e, he, -⟩ | ⟨htakes, -⟩
  · exact ⟨e, he⟩
  · exact absurd htakes (by decide)

end Catalog

end Membrane
