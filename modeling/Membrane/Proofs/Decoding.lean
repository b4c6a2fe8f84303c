import Mathlib.Data.List.Nodup
import Mathlib.Data.List.Pairwise
import Membrane.Proofs.Tables
import Membrane.Toml.Decoding

/-!
# The decoder at hand keeps the promises

What is relied on of a decoder holds of the one over the documents read here (`decoder_documented`).
A table gives its entries one after the other. Each of them sets at most the field of its own key,
and no other field changes, since fields lie apart; so over all entries a field has what its one
entry gives it, or what it had before. That no key comes twice is shown of the reader of documents.
-/

namespace Membrane

/-! ## Declared fields -/

theorem Field.Apart.symm {Value Fault S : Type} {f g : Field Value Fault S} (h : f.Apart g) :
    g.Apart f := ⟨h.right, h.left⟩

namespace Declaration

variable {Value Fault S : Type} {d : Declaration Value Fault S} {f g : Field Value Fault S}

theorem apart_of_name_ne (hf : f ∈ d.fields) (hg : g ∈ d.fields) (h : f.name ≠ g.name) :
    f.Apart g := by
  have : Std.Symm (@Field.Apart Value Fault S) := ⟨fun _ _ => .symm⟩
  exact d.apart.forall hf hg fun hfg => h (congrArg Field.name hfg)

/-- The field of a key is found by it. -/
theorem find?_name (hf : f ∈ d.fields) :
    (d.fields.find? fun g => g.name = f.name) = some f := by
  cases hfound : d.fields.find? fun g => g.name = f.name with
  | none =>
    have := List.find?_eq_none.1 hfound f hf
    simp at this
  | some g =>
    have hname : g.name = f.name := by simpa using List.find?_some hfound
    rw [List.inj_on_of_nodup_map d.nodup (List.mem_of_find?_eq_some hfound) hf hname]

theorem find?_eq_none_iff {key : String} :
    (d.fields.find? fun g => g.name = key) = none ↔ key ∉ d.keys := by
  simp [keys]

end Declaration

namespace Toml

open Declaration

variable {S : Type} {d : Declaration Item Fault S} {f : Field Item Fault S} {s s' : S}
  {e : String × Item} {entries : Entries} {item : Item}

theorem bind_eq_ok_iff {ε α β : Type} {x : Except ε α} {f : α → Except ε β} {b : β} :
    x >>= f = .ok b ↔ ∃ a, x = .ok a ∧ f a = .ok b := by
  cases x with
  | error e => exact ⟨nofun, nofun⟩
  | ok a => exact ⟨fun h => ⟨a, rfl, h⟩, fun ⟨_, ha, h⟩ => Except.ok.inj ha ▸ h⟩

namespace Item

/-! ## One entry -/

/-- An entry sets the field of its key, or it belongs to none and such entries are passed over. -/
theorem putEntry_eq_ok_iff :
    putEntry d s e = .ok s' ↔
      (∃ f ∈ d.fields, f.name = e.1 ∧ ∃ content, f.decode e.2 = .ok content ∧
        s' = f.put content s) ∨
      e.1 ∉ d.keys ∧ d.closed = false ∧ s' = s := by
  unfold putEntry
  constructor
  · intro h
    split at h
    case h_1 f hfound =>
      obtain ⟨content, hdecode, h⟩ := bind_eq_ok_iff.1 h
      have hname : f.name = e.1 := by simpa using List.find?_some hfound
      exact .inl ⟨f, List.mem_of_find?_eq_some hfound, hname, content, hdecode,
        (Except.ok.inj h).symm⟩
    case h_2 hnone =>
      split at h
      case isTrue => cases h
      case isFalse hopen =>
        exact .inr ⟨find?_eq_none_iff.1 hnone, by simpa using hopen, (Except.ok.inj h).symm⟩
  · rintro (⟨f, hf, hname, content, hdecode, rfl⟩ | ⟨hunknown, hopen, rfl⟩)
    · rw [← hname, find?_name hf]
      exact bind_eq_ok_iff.2 ⟨content, hdecode, rfl⟩
    · rw [find?_eq_none_iff.2 hunknown]
      dsimp only
      rw [hopen, if_neg Bool.false_ne_true]

/-- A field of another key does not change. -/
theorem get_of_putEntry (h : putEntry d s e = .ok s') (hf : f ∈ d.fields) (hne : f.name ≠ e.1) :
    f.get s' = f.get s := by
  obtain ⟨g, hg, hname, content, -, rfl⟩ | ⟨-, -, rfl⟩ := putEntry_eq_ok_iff.1 h
  · exact (apart_of_name_ne hf hg (hname ▸ hne)).left content s
  · rfl

/-- The field of the key has what the entry gives it. -/
theorem decode_of_putEntry (h : putEntry d s e = .ok s') (hf : f ∈ d.fields) (hname : f.name = e.1) :
    f.decode e.2 = .ok (f.get s') := by
  obtain ⟨g, hg, hname', content, hdecode, rfl⟩ | ⟨hunknown, -, -⟩ := putEntry_eq_ok_iff.1 h
  · obtain rfl := List.inj_on_of_nodup_map d.nodup hf hg (hname.trans hname'.symm)
    rw [hdecode, f.get_put]
  · exact absurd (hname ▸ List.mem_map_of_mem hf) hunknown

/-! ## All entries of a table -/

/-- A field that none of the entries belongs to does not change. -/
theorem get_of_putEntries (h : entries.foldlM (putEntry d) s = .ok s') (hf : f ∈ d.fields)
    (hmissing : f.name ∉ entries.map Prod.fst) : f.get s' = f.get s := by
  induction entries generalizing s with
  | nil => rw [Except.ok.inj h]
  | cons e rest ih =>
    obtain ⟨hne, hrest⟩ := not_or.1 (mt List.mem_cons.2 hmissing)
    rw [List.foldlM_cons] at h
    obtain ⟨mid, hfirst, h⟩ := bind_eq_ok_iff.1 h
    rw [ih h hrest, get_of_putEntry hfirst hf hne]

/-- A field has what its entry gives it, as there is no other of its key. -/
theorem decode_of_putEntries (hkeys : (entries.map Prod.fst).Nodup)
    (h : entries.foldlM (putEntry d) s = .ok s') (hf : f ∈ d.fields)
    (hitem : (f.name, item) ∈ entries) : f.decode item = .ok (f.get s') := by
  induction entries generalizing s with
  | nil => cases hitem
  | cons e rest ih =>
    obtain ⟨hfresh, hkeys⟩ := List.nodup_cons.1 hkeys
    rw [List.foldlM_cons] at h
    obtain ⟨mid, hfirst, hrun⟩ := bind_eq_ok_iff.1 h
    rcases List.mem_cons.1 hitem with rfl | hitem
    · -- the entries after it leave the field alone
      rw [get_of_putEntries hrun hf hfresh, decode_of_putEntry hfirst hf rfl]
    · exact ih hkeys hrun hitem

/-- Where other entries are refused, all entries belong to fields. -/
theorem mem_keys_of_putEntries (h : entries.foldlM (putEntry d) s = .ok s')
    (hclosed : d.closed = true) {name : String} (hname : name ∈ entries.map Prod.fst) :
    name ∈ d.keys := by
  induction entries generalizing s with
  | nil => cases hname
  | cons e rest ih =>
    rw [List.foldlM_cons] at h
    obtain ⟨mid, hfirst, hrun⟩ := bind_eq_ok_iff.1 h
    rcases List.mem_cons.1 hname with rfl | hname
    · obtain ⟨f, hf, hname, -⟩ | ⟨-, hopen, -⟩ := putEntry_eq_ok_iff.1 hfirst
      · exact hname ▸ List.mem_map_of_mem hf
      · exact absurd hclosed (hopen ▸ Bool.false_ne_true)
    · exact ih hrun hname

/-- Entries that can be decoded are put. -/
theorem exists_putEntries (hfields : ∀ f ∈ d.fields, ∀ item, (f.name, item) ∈ entries →
      ∃ content, f.decode item = .ok content)
    (hknown : d.closed = true → ∀ name ∈ entries.map Prod.fst, name ∈ d.keys) (s : S) :
    ∃ s', entries.foldlM (putEntry d) s = .ok s' := by
  induction entries generalizing s with
  | nil => exact ⟨s, rfl⟩
  | cons e rest ih =>
    -- an entry is decoded if it belongs to a field, and passed over if not
    have hput : ∃ mid, putEntry d s e = .ok mid := by
      by_cases hkey : e.1 ∈ d.keys
      · obtain ⟨f, hf, hname⟩ := List.mem_map.1 hkey
        obtain ⟨content, hdecode⟩ := hfields f hf e.2 (hname ▸ List.mem_cons_self)
        exact ⟨_, putEntry_eq_ok_iff.2 (.inl ⟨f, hf, hname, content, hdecode, rfl⟩)⟩
      · have hopen : d.closed = false :=
          Bool.eq_false_iff.2 fun hclosed => hkey (hknown hclosed e.1 (by simp))
        exact ⟨s, putEntry_eq_ok_iff.2 (.inr ⟨hkey, hopen, rfl⟩)⟩
    obtain ⟨mid, hmid⟩ := hput
    obtain ⟨s', hs'⟩ := ih (fun f hf item hitem => hfields f hf item (List.mem_cons_of_mem _ hitem))
      (fun hclosed name hname => hknown hclosed name (List.mem_cons_of_mem _ hname)) mid
    exact ⟨s', by rw [List.foldlM_cons]; exact bind_eq_ok_iff.2 ⟨mid, hmid, hs'⟩⟩

/-! ## Texts and choices -/

theorem entries?_eq_some (h : item.entries? = some entries) :
    ∃ origin, item = .table origin entries := by
  cases item with
  | table origin inner => exact ⟨origin, congrArg _ (Option.some.inj h)⟩
  | _ => cases h

theorem text_eq_ok_iff {content : String} :
    item.text = .ok content ↔ item.text? = some content := by
  cases item <;> simp [text, text?]

theorem variant?_of_text? {content : String} (h : item.text? = some content) :
    item.variant? = some content := by
  cases item with
  | string text => exact h
  | _ => cases h

section Choice

variable {α : Type} {all : List α} {name : α → String} (hname : Function.Injective name)
include hname

theorem find_eq_ok_iff {text : String} {a : α} :
    choice.find all name text = .ok a ↔ a ∈ all ∧ name a = text := by
  unfold choice.find
  constructor
  · intro h
    split at h
    · next found hfound =>
      obtain rfl := Except.ok.inj h
      exact ⟨List.mem_of_find?_eq_some hfound, by simpa using List.find?_some hfound⟩
    · cases h
  · rintro ⟨ha, rfl⟩
    split
    · next found hfound =>
      have : name found = name a := by simpa using List.find?_some hfound
      rw [hname this]
    · next hnone =>
      have := List.find?_eq_none.1 hnone a ha
      simp at this

/-- A value is understood as the choice whose name it gives. -/
theorem choice_eq_ok_iff {a : α} :
    choice all name item = .ok a ↔ a ∈ all ∧ item.variant? = some (name a) := by
  unfold choice variant?
  split
  case h_1 text => rw [find_eq_ok_iff hname, Option.some.injEq, eq_comm (a := text)]
  case h_2 origin text content =>
    rw [bind_eq_ok_iff]
    cases holdsNothing content with
    | true =>
      simp only [if_pos, Option.some.injEq, find_eq_ok_iff hname]
      constructor
      · rintro ⟨b, ⟨hb, rfl⟩, h⟩
        obtain rfl := Except.ok.inj h
        exact ⟨hb, rfl⟩
      · rintro ⟨ha, rfl⟩
        exact ⟨a, ⟨ha, rfl⟩, rfl⟩
    | false =>
      refine ⟨?_, fun h => by cases h.2⟩
      rintro ⟨b, -, h⟩
      cases h
  case h_3 => exact ⟨nofun, fun h => by cases h.2⟩

end Choice

end Item

/-! ## The decoder -/

/-- What is inside a value without a key twice is so too. -/
theorem distinct_of_inside {outer inner : decoder.Value} (h : Item.Distinct outer)
    (hinner : decoder.Inside outer inner) : Item.Distinct inner := by
  -- along the way inwards, each value is a table of the one before
  induction hinner with
  | self => exact h
  | entry _ htable he ih =>
    obtain ⟨origin, rfl⟩ := Item.entries?_eq_some htable
    exact (Item.distinct_table_iff.1 ih).inner _ he

theorem read_eq_ok {document : String} {root : decoder.Value} (h : decoder.read document = .ok root) :
    ∃ entries, parse? document = some entries ∧ root = Item.table .header entries := by
  unfold decoder at h
  dsimp only at h
  split at h
  · next entries hentries => exact ⟨entries, hentries, (Except.ok.inj h).symm⟩
  · cases h

/-- The decoder keeps all that is promised. -/
theorem decoder_documented : decoder.Documented where
  table h := by
    obtain ⟨entries, -, rfl⟩ := read_eq_ok h
    exact ⟨entries, rfl⟩
  nodup h hv htable := by
    obtain ⟨parsed, hparsed, rfl⟩ := read_eq_ok h
    have hroot : Item.Distinct (.table .header parsed) :=
      Item.distinct_table_iff.2 (distinct_of_parse? hparsed)
    obtain ⟨origin, rfl⟩ := Item.entries?_eq_some htable
    exact (Item.distinct_table_iff.1 (distinct_of_inside hroot hv)).keys
  text_eq_ok_iff := Item.text_eq_ok_iff
  variant_text := Item.variant?_of_text?
  choice_eq_ok_iff hname := Item.choice_eq_ok_iff hname
  record_field htable hkeys h hf hitem := by
    obtain ⟨origin, rfl⟩ := Item.entries?_eq_some htable
    exact Item.decode_of_putEntries hkeys h hf hitem
  record_missing htable h hf hmissing := by
    obtain ⟨origin, rfl⟩ := Item.entries?_eq_some htable
    exact Item.get_of_putEntries h hf hmissing
  record_unknown {S d v name entries} htable hclosed hname hunknown := by
    obtain ⟨origin, rfl⟩ := Item.entries?_eq_some htable
    cases h : entries.foldlM (Item.putEntry d) d.base with
    | error fault => exact ⟨fault, h⟩
    | ok s => exact absurd (Item.mem_keys_of_putEntries h hclosed hname) hunknown
  record_ok {S d v entries} htable hkeys hfields hknown := by
    obtain ⟨origin, rfl⟩ := Item.entries?_eq_some htable
    exact Item.exists_putEntries hfields hknown d.base

end Toml

end Membrane
