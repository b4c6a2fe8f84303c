import Membrane.Toml.Document

/-!
# Tables have a key at most once

A document is malformed where a table is given a key twice, be it by an entry, a dotted key, a
header or inside an inline table. `Item.Distinct` says of a value that no table in it, however deep,
has a key twice. Each way to change a table keeps this (`Entries.Distinct.alterAt` with the changes
at its end), the scanners of values give nothing else (`gives_valueWithin`), and so a whole document
is such a table (`distinct_of_parse?`).
-/

namespace Membrane.Toml

/-- No table in a value has a key twice. -/
inductive Item.Distinct : Item → Prop
  | string (text : String) : Distinct (.string text)
  | integer (value : Int64) : Distinct (.integer value)
  | float (value : Binary64) : Distinct (.float value)
  | boolean (value : Bool) : Distinct (.boolean value)
  | datetime : Distinct .datetime
  | array {items : List Item} (inner : ∀ item ∈ items, item.Distinct) : Distinct (.array items)
  | table {origin : Origin} {entries : Entries} (keys : (entries.map Prod.fst).Nodup)
      (inner : ∀ e ∈ entries, e.2.Distinct) : Distinct (.table origin entries)
  | tables {members : List Entries} (keys : ∀ m ∈ members, (m.map Prod.fst).Nodup)
      (inner : ∀ m ∈ members, ∀ e ∈ m, e.2.Distinct) : Distinct (.tables members)

/-- A table has no key twice, and no table in it has. -/
structure Entries.Distinct (entries : Entries) : Prop where
  keys : (entries.map Prod.fst).Nodup
  inner : ∀ e ∈ entries, e.2.Distinct

theorem Item.distinct_table_iff {origin : Origin} {entries : Entries} :
    (Item.table origin entries).Distinct ↔ Entries.Distinct entries :=
  ⟨fun | .table keys inner => ⟨keys, inner⟩, fun h => .table h.keys h.inner⟩

theorem Item.distinct_tables_iff {members : List Entries} :
    (Item.tables members).Distinct ↔ ∀ m ∈ members, Entries.Distinct m :=
  ⟨fun | .tables keys inner => fun m hm => ⟨keys m hm, inner m hm⟩,
    fun h => .tables (fun m hm => (h m hm).keys) fun m hm => (h m hm).inner⟩

/-! ## Changes of a table -/

namespace Entries.Distinct

variable {entries entries' : Entries} {key : String} {item : Item}

theorem nil : Entries.Distinct [] := ⟨List.nodup_nil, by simp⟩

/-- What stands under a key is itself such a value. -/
theorem of_lookup (h : Entries.Distinct entries) (hl : entries.lookup key = some item) :
    item.Distinct := by
  obtain ⟨before, after, rfl, -⟩ := List.lookup_eq_some_iff.1 hl
  exact h.inner (key, item) (by simp)

theorem replace (h : Entries.Distinct entries) (hi : item.Distinct) :
    Entries.Distinct (Entries.replace entries key item) := by
  have sameKeys : (Entries.replace entries key item).map Prod.fst = entries.map Prod.fst := by
    rw [Entries.replace, List.map_map]
    refine List.map_congr_left fun e _ => ?_
    by_cases he : e.1 = key <;> simp [he]
  refine ⟨sameKeys ▸ h.keys, fun e he => ?_⟩
  obtain ⟨old, hold, rfl⟩ := List.mem_map.1 he
  split
  · exact hi
  · exact h.inner old hold

/-- A new key may be added at the end. -/
theorem append (h : Entries.Distinct entries) (hnew : entries.lookup key = none)
    (hi : item.Distinct) : Entries.Distinct (entries ++ [(key, item)]) := by
  refine ⟨?_, List.forall_mem_append.2 ⟨h.inner, by simpa using hi⟩⟩
  rw [List.map_append, List.nodup_append]
  refine ⟨h.keys, by simp, fun a ha b hb => ?_⟩
  obtain ⟨e, he, rfl⟩ := List.mem_map.1 ha
  obtain rfl : b = key := by simpa using hb
  have := List.lookup_eq_none_iff.1 hnew e he
  exact fun hab => by simp [hab] at this

/-- A key may be moved to the end. -/
theorem moveLast (h : Entries.Distinct entries) (hi : item.Distinct) :
    Entries.Distinct (entries.filter (·.1 != key) ++ [(key, item)]) := by
  refine append ⟨?_, fun e he => h.inner e (List.mem_filter.1 he).1⟩ ?_ hi
  · exact h.keys.sublist (List.filter_sublist.map Prod.fst)
  · refine List.lookup_eq_none_iff.2 fun e he => ?_
    rw [bne_comm]
    exact (List.mem_filter.1 he).2

/-- A change that keeps the keys of a table distinct may be made at the end of any path. -/
theorem alterAt {dotted : Bool} {change : Origin → Entries → Option Entries}
    (hc : ∀ ⦃origin inner inner'⦄, Entries.Distinct inner → change origin inner = some inner' →
      Entries.Distinct inner')
    {path : List String} {origin : Origin} (h : Entries.Distinct entries)
    (ha : Entries.alterAt dotted change path origin entries = some entries') :
    Entries.Distinct entries' := by
  induction path generalizing origin entries entries' with
  | nil => exact hc h ha
  | cons key path ih =>
    rw [Entries.alterAt] at ha
    split at ha
    case h_1 hnone =>
      obtain ⟨inner, hinner, rfl⟩ : ∃ inner, _ = some inner ∧ _ = entries' := by
        simpa [Option.bind_eq_some_iff] using ha
      exact h.append hnone (Item.distinct_table_iff.2 (ih nil hinner))
    case h_2 origin inner hsome =>
      split at ha
      · cases ha
      obtain ⟨changed, hchanged, rfl⟩ : ∃ changed, _ = some changed ∧ _ = entries' := by
        simpa [Option.bind_eq_some_iff] using ha
      have := Item.distinct_table_iff.1 (h.of_lookup hsome)
      exact h.replace (Item.distinct_table_iff.2 (ih this hchanged))
    case h_3 members hsome =>
      obtain ⟨last, hlast, changed, hchanged, rfl⟩ :
          ∃ last, _ = some last ∧ ∃ changed, _ = some changed ∧ _ = entries' := by
        simpa [Option.bind_eq_some_iff] using ha
      have hm := Item.distinct_tables_iff.1 (h.of_lookup hsome)
      refine h.replace (Item.distinct_tables_iff.2 (List.forall_mem_append.2 ⟨?_, ?_⟩))
      · exact fun m hmem => hm m ((List.dropLast_sublist members).subset hmem)
      · simpa using ih (hm last (List.mem_of_getLast? hlast)) hchanged
    case h_4 => cases ha

theorem add {path : List String} {origin : Origin} (h : Entries.Distinct entries)
    (hi : item.Distinct) (ha : Entries.add path key item origin entries = some entries') :
    Entries.Distinct entries' := by
  refine h.alterAt (fun reached inner inner' hinner hchange => ?_) ha
  split at hchange
  · cases hchange
  · split at hchange
    · cases hchange
    · next hnew =>
      obtain rfl := Option.some.inj hchange
      exact hinner.append (Option.not_isSome_iff_eq_none.1 hnew) hi

theorem openTable (h : Entries.Distinct entries)
    (ho : Entries.openTable key entries = some entries') : Entries.Distinct entries' := by
  rw [Entries.openTable] at ho
  split at ho
  case h_1 hnone =>
    obtain rfl := Option.some.inj ho
    exact h.append hnone (Item.distinct_table_iff.2 nil)
  case h_2 inner hsome =>
    obtain rfl := Option.some.inj ho
    have := Item.distinct_table_iff.1 (h.of_lookup hsome)
    exact h.moveLast (Item.distinct_table_iff.2 this)
  case h_3 => cases ho

theorem openMember (h : Entries.Distinct entries)
    (ho : Entries.openMember key entries = some entries') : Entries.Distinct entries' := by
  rw [Entries.openMember] at ho
  split at ho
  case h_1 hnone =>
    obtain rfl := Option.some.inj ho
    exact h.append hnone (Item.distinct_tables_iff.2 (by simpa using nil))
  case h_2 members hsome =>
    obtain rfl := Option.some.inj ho
    have := Item.distinct_tables_iff.1 (h.of_lookup hsome)
    refine h.replace (Item.distinct_tables_iff.2 (List.forall_mem_append.2 ⟨this, ?_⟩))
    simpa using nil
  case h_3 => cases ho

end Entries.Distinct

/-! ## Values as they are read -/

/-- If something is read, it has a property. -/
def Gives {α : Type} (p : α → Prop) (attempt : Option (α × List Char)) : Prop :=
  ∀ ⦃x rest⦄, attempt = some (x, rest) → p x

namespace Gives

variable {α β : Type} {p : α → Prop}

theorem none : Gives p none := nofun

theorem some {x : α} (rest : List Char) (hx : p x) : Gives p (some (x, rest)) := by
  rintro _ _ ⟨⟩
  exact hx

theorem bind {o : Option β} {f : β → Option (α × List Char)}
    (h : ∀ b, o = Option.some b → Gives p (f b)) : Gives p (o >>= f) := by
  intro x rest hx
  obtain ⟨b, hb, hf⟩ := Option.bind_eq_some_iff.1 hx
  exact h b hb hf

theorem map {o : Option β} {f : β → α × List Char} (h : ∀ b, o = Option.some b → p (f b).1) :
    Gives p (o.map f) := by
  intro x rest hx
  obtain ⟨b, hb, hf⟩ := Option.map_eq_some_iff.1 hx
  simpa [hf] using h b hb

theorem or {o o' : Option (α × List Char)} (h : Gives p o) (h' : Gives p o') :
    Gives p (o.or o') := by
  intro x rest hx
  obtain hx | ⟨-, hx⟩ := Option.or_eq_some_iff.1 hx
  · exact h hx
  · exact h' hx

end Gives

theorem distinct_of_fitting {n : Int} {item : Item} (h : fitting n = some item) :
    item.Distinct := by
  rw [fitting] at h
  split at h
  · obtain rfl := Option.some.inj h
    exact .integer _
  · cases h

theorem gives_based (base : Nat) (s : List Char) : Gives Item.Distinct (based base s) :=
  .bind fun _ _ => .bind fun _ hf => .some _ (distinct_of_fitting hf)

theorem gives_integer (s : List Char) : Gives Item.Distinct (integer s) := by
  rw [integer.eq_def]
  split
  · exact gives_based 16 _
  · exact gives_based 8 _
  · exact gives_based 2 _
  · exact .bind fun _ _ => .bind fun _ hf => .some _ (distinct_of_fitting hf)

theorem gives_float (s : List Char) : Gives Item.Distinct (float s) := by
  unfold float
  dsimp only
  split
  · exact .some _ (.float _)
  · refine .bind fun _ _ => ?_
    split
    · exact .none
    · split
      · exact .none
      · exact .some _ (.float _)

theorem gives_datetime (s : List Char) : Gives Item.Distinct (datetime s) := by
  unfold datetime
  split
  · split
    · split
      · split
        · exact .bind fun _ _ => .some _ .datetime
        · exact .some _ .datetime
      · exact .some _ .datetime
    · exact .some _ .datetime
  · exact .map fun _ _ => .datetime

theorem gives_scalar (s : List Char) : Gives Item.Distinct (scalar s) := by
  rw [scalar.eq_def]
  split
  · exact .some _ (.boolean true)
  · exact .some _ (.boolean false)
  · split
    · exact gives_datetime _
    · exact (gives_datetime _).or ((gives_float _).or (gives_integer _))

/-! ## Nested values -/

section Nested

variable {value : Scanner Item} (hv : ∀ s, Gives Item.Distinct (value s))

include hv

theorem gives_itemsWithin (n : Nat) (s : List Char) :
    Gives (fun items => ∀ item ∈ items, item.Distinct) (itemsWithin value n s) := by
  induction n generalizing s with
  | zero => exact .none
  | succ n ih =>
    rw [itemsWithin]
    dsimp only
    split
    · exact .some _ (by simp)
    · refine .bind fun (item, rest) hitem => ?_
      have hd := hv _ hitem
      dsimp only
      split
      · exact .some _ (by simpa using hd)
      · refine .bind fun _ _ => .bind fun (items, rest) hitems => .some _ ?_
        exact List.forall_mem_cons.2 ⟨hd, ih _ hitems⟩

theorem gives_pairsWithin (n : Nat) {entries : Entries} (h : Entries.Distinct entries)
    (s : List Char) : Gives Entries.Distinct (pairsWithin value entries n s) := by
  induction n generalizing entries s with
  | zero => exact .none
  | succ n ih =>
    rw [pairsWithin]
    refine .bind fun _ _ => .bind fun _ _ => .bind fun (item, _) hitem => .bind fun added ha => ?_
    have hadded : Entries.Distinct added := h.add (hv _ hitem) ha
    dsimp only
    split
    · exact .some _ hadded
    · exact .bind fun _ _ => ih hadded _

theorem gives_inlineTable (s : List Char) : Gives Item.Distinct (inlineTable value s) := by
  unfold inlineTable
  split
  · exact .some _ (Item.distinct_table_iff.2 .nil)
  · refine .bind fun (entries, _) he => .some _ ?_
    exact Item.distinct_table_iff.2 (gives_pairsWithin hv _ .nil _ he)

end Nested

theorem gives_valueWithin (depth : Nat) (s : List Char) :
    Gives Item.Distinct (valueWithin depth s) := by
  induction depth generalizing s with
  | zero => exact .none
  | succ depth ih =>
    rw [valueWithin.eq_def]
    dsimp only
    split
    · split
      · exact .none
      · exact .map fun (_, _) hitems => .array (gives_itemsWithin ih _ _ hitems)
    · split
      · exact .none
      · exact gives_inlineTable ih _
    · split
      · exact .map fun (t, _) _ => .string t
      · exact gives_scalar _
    · exact .none

/-! ## Documents -/

/-- A line brings in no other value. -/
def Line.Distinct : Line → Prop
  | .entry _ _ item => item.Distinct
  | _ => True

theorem gives_line (s : List Char) : Gives Line.Distinct (line s) := by
  unfold line
  dsimp only
  split
  · exact .bind fun _ _ => .bind fun _ _ => .bind fun _ _ => .bind fun _ _ => .some _ trivial
  · exact .bind fun _ _ => .bind fun _ _ => .bind fun _ _ => .some _ trivial
  · split
    · exact .some _ trivial
    · refine .bind fun _ _ => .bind fun _ _ => .bind fun (item, _) hitem => ?_
      exact .bind fun _ _ => .some _ (gives_valueWithin _ _ hitem)

/-- Each line keeps the keys of all tables distinct. -/
theorem Reading.distinct_of_take {r r' : Reading} {l : Line} (h : Entries.Distinct r.root)
    (hl : l.Distinct) (ht : r.take l = some r') : Entries.Distinct r'.root := by
  cases l with
  | blank => exact Option.some.inj ht ▸ h
  | entry path key item =>
    obtain ⟨root, hroot, ht⟩ := Option.bind_eq_some_iff.1 ht
    obtain rfl := Option.some.inj ht
    exact h.alterAt (fun _ _ _ hinner ha => hinner.add hl ha) hroot
  | header path key =>
    obtain ⟨root, hroot, ht⟩ := Option.bind_eq_some_iff.1 ht
    obtain rfl := Option.some.inj ht
    exact h.alterAt (fun _ _ _ hinner ho => hinner.openTable ho) hroot
  | member path key =>
    obtain ⟨root, hroot, ht⟩ := Option.bind_eq_some_iff.1 ht
    obtain rfl := Option.some.inj ht
    exact h.alterAt (fun _ _ _ hinner ho => hinner.openMember ho) hroot

theorem distinct_of_readWithin {n : Nat} {r : Reading} {s : List Char} {root : Entries}
    (h : Entries.Distinct r.root) (hr : readWithin n r s = some root) :
    Entries.Distinct root := by
  induction n generalizing r s with
  | zero =>
    cases s with
    | nil => exact Option.some.inj hr ▸ h
    | cons c s => cases hr
  | succ n ih =>
    cases s with
    | nil => exact Option.some.inj hr ▸ h
    | cons c s =>
      obtain ⟨⟨l, rest⟩, hl, hr⟩ := Option.bind_eq_some_iff.1 hr
      obtain ⟨taken, ht, hr⟩ := Option.bind_eq_some_iff.1 hr
      exact ih (Reading.distinct_of_take h (gives_line _ hl) ht) hr

/-- No table of a document has a key twice. -/
theorem distinct_of_parse? {document : String} {root : Entries}
    (h : parse? document = some root) : Entries.Distinct root :=
  distinct_of_readWithin .nil h

end Membrane.Toml
