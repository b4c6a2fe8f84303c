import Membrane.Policy.File
import Membrane.Proofs.Decoding

/-!
# What a document configures

A structure is decoded from a table exactly if the entries fill it: every field has the decoded value
of its entry, or what is declared for it, and no entry is left that would be refused. This follows
from what is promised of a decoder (`record_eq_ok_iff`), and goes for the document itself as for the
table `bridge` in it. So a document whose `bridge` is a table is accepted exactly for the
configuration that the entries there make (`parseBy_eq_ok_iff`), and none of them is passed over.
-/

namespace Membrane

/-! ## Filled structures -/

/-- The entries of a table fill a structure. -/
structure Declaration.Fills {Value Fault S : Type} (d : Declaration Value Fault S)
    (entries : List (String × Value)) (s : S) : Prop where
  field : ∀ f ∈ d.fields, ∀ item, (f.name, item) ∈ entries → f.decode item = .ok (f.get s)
  missing : ∀ f ∈ d.fields, f.name ∉ entries.map Prod.fst → f.get s = f.get d.base
  known : d.closed = true → ∀ name ∈ entries.map Prod.fst, name ∈ d.keys

namespace Declaration.Fills

variable {Value Fault S : Type} {d : Declaration Value Fault S} {entries : List (String × Value)}
  {s s' : S}

/-- Entries fill one structure at most. -/
theorem unique (h : d.Fills entries s) (h' : d.Fills entries s') : s = s' := by
  refine d.complete s s' fun f hf => ?_
  by_cases hkey : f.name ∈ entries.map Prod.fst
  · obtain ⟨⟨_, item⟩, hitem, rfl⟩ := List.mem_map.1 hkey
    exact Except.ok.inj ((h.field f hf item hitem).symm.trans (h'.field f hf item hitem))
  · rw [h.missing f hf hkey, h'.missing f hf hkey]

end Declaration.Fills

/-- No entries at all fill a structure with what is declared for its fields. -/
theorem Declaration.fills_nil_iff {Value Fault S : Type} {d : Declaration Value Fault S} {s : S} :
    d.Fills [] s ↔ s = d.base := by
  refine ⟨fun h => d.complete s d.base fun f hf => h.missing f hf (by simp), ?_⟩
  rintro rfl
  exact ⟨by simp, fun _ _ _ => rfl, by simp⟩

/-- From a table the structure is decoded that its entries fill. -/
theorem Decoder.Documented.record_eq_ok_iff {D : Decoder} (hD : D.Documented) {S : Type}
    {d : Declaration D.Value D.Fault S} {v : D.Value} {entries : List (String × D.Value)}
    (htable : D.entries? v = some entries) (hkeys : (entries.map Prod.fst).Nodup) {s : S} :
    D.record d v = .ok s ↔ d.Fills entries s := by
  have fills {s : S} (h : D.record d v = .ok s) : d.Fills entries s := by
    refine ⟨fun f hf item hitem => hD.record_field htable hkeys h hf hitem,
      fun f hf hmissing => hD.record_missing htable h hf hmissing, fun hclosed name hname => ?_⟩
    -- an entry that belongs to no field would have been refused
    by_contra hunknown
    obtain ⟨fault, hfault⟩ := hD.record_unknown htable hclosed hname hunknown
    exact nomatch h.symm.trans hfault
  refine ⟨fills, fun h => ?_⟩
  -- something is decoded, and the entries fill that too
  obtain ⟨s', hs'⟩ := hD.record_ok htable hkeys
    (fun f hf item hitem => ⟨f.get s, h.field f hf item hitem⟩) h.known
  rw [hs', (fills hs').unique h]

namespace ConfigFile

variable {D : Decoder} {config : Config} {name : String} {item root : D.Value}
  {outer entries : List (String × D.Value)} {document : String}

/-! ## What entries make -/

/-- The entry is one of the three fields, and the configuration has its value there. -/
def Sets (D : Decoder) (config : Config) (name : String) (item : D.Value) : Prop :=
  name = "tag" ∧ D.text? item = some config.tag ∨
  name = "access" ∧ D.variant? item = some config.access.name ∨
  name = "id_order" ∧ D.variant? item = some config.idOrder.name

/-- The configuration has what the entries set, and else what it has by default. -/
structure Makes (D : Decoder) (entries : List (String × D.Value)) (config : Config) : Prop where
  sets : ∀ e ∈ entries, Sets D config e.1 e.2
  tag : "tag" ∉ entries.map Prod.fst → config.tag = ({} : Config).tag
  access : "access" ∉ entries.map Prod.fst → config.access = ({} : Config).access
  idOrder : "id_order" ∉ entries.map Prod.fst → config.idOrder = ({} : Config).idOrder

theorem access_eq_ok_iff (hD : D.Documented) {a : AccessChoice} :
    (access D).decode item = .ok a ↔ D.variant? item = some a.name := by
  have hname : Function.Injective AccessChoice.name := fun a b => by cases a <;> cases b <;> decide
  have hall : a ∈ AccessChoice.all := by cases a <;> decide
  exact (hD.choice_eq_ok_iff hname).trans (and_iff_right hall)

theorem idOrder_eq_ok_iff (hD : D.Documented) {o : IdOrder} :
    (idOrder D).decode item = .ok o ↔ D.variant? item = some o.name := by
  have hname : Function.Injective IdOrder.name := fun a b => by cases a <;> cases b <;> decide
  have hall : o ∈ IdOrder.all := by cases o <;> decide
  exact (hD.choice_eq_ok_iff hname).trans (and_iff_right hall)

/-- An entry sets a field if it is decoded to what the configuration has there. -/
theorem sets_iff (hD : D.Documented) :
    Sets D config name item ↔
      ∃ f ∈ (ConfigFile.config D).fields, f.name = name ∧ f.decode item = .ok (f.get config) := by
  have htag : (tag D).decode item = .ok config.tag ↔ D.text? item = some config.tag :=
    hD.text_eq_ok_iff
  rw [Sets, ← htag, ← access_eq_ok_iff hD, ← idOrder_eq_ok_iff hD]
  simp only [ConfigFile.config, List.mem_cons, List.not_mem_nil, or_false, or_and_right, exists_or,
    exists_eq_left, eq_comm (a := name)]
  rfl

/-- Entries make the configuration that they fill. -/
theorem makes_iff (hD : D.Documented) :
    Makes D entries config ↔ (ConfigFile.config D).Fills entries config := by
  constructor
  · intro h
    refine ⟨fun f hf item hitem => ?_, ?_, fun _ key hkey => ?_⟩
    · -- the field that the entry sets is the one of its key
      obtain ⟨g, hg, hname, hdecode⟩ := (sets_iff hD).1 (h.sets _ hitem)
      rwa [List.inj_on_of_nodup_map (ConfigFile.config D).nodup hf hg hname.symm]
    · intro f hf hmissing
      simp only [ConfigFile.config, List.mem_cons, List.not_mem_nil, or_false] at hf
      rcases hf with rfl | rfl | rfl
      · exact h.tag hmissing
      · exact h.access hmissing
      · exact h.idOrder hmissing
    · obtain ⟨e, he, rfl⟩ := List.mem_map.1 hkey
      obtain ⟨f, hf, hname, -⟩ := (sets_iff hD).1 (h.sets e he)
      exact hname ▸ List.mem_map_of_mem hf
  · intro h
    refine ⟨fun e he => (sets_iff hD).2 ?_, h.missing (tag D) (by simp [ConfigFile.config]),
      h.missing (access D) (by simp [ConfigFile.config]),
      h.missing (idOrder D) (by simp [ConfigFile.config])⟩
    obtain ⟨f, hf, hname⟩ := List.mem_map.1 (h.known rfl e.1 (List.mem_map_of_mem he))
    exact ⟨f, hf, hname, h.field f hf e.2 (hname ▸ he)⟩

/-! ## Documents -/

/-- The entries that a document sets under the key `bridge`, if what is there is a table. -/
def settingsOf (D : Decoder) (outer : List (String × D.Value)) :
    Option (List (String × D.Value)) :=
  match outer.lookup "bridge" with
  | none => some []
  | some item => D.entries? item

/-- What is set are the entries of the table under `bridge`, or nothing as there is no such key. -/
theorem settingsOf_eq_some (hs : settingsOf D outer = some entries) :
    entries = [] ∧ "bridge" ∉ outer.map Prod.fst ∨
      ∃ item, ("bridge", item) ∈ outer ∧ D.entries? item = some entries := by
  unfold settingsOf at hs
  split at hs
  · next hnone =>
    refine .inl ⟨(Option.some.inj hs).symm, fun h => ?_⟩
    obtain ⟨e, he, hname⟩ := List.mem_map.1 h
    have := List.lookup_eq_none_iff.1 hnone e he
    simp [hname] at this
  · next item hitem =>
    obtain ⟨before, after, rfl, -⟩ := List.lookup_eq_some_iff.1 hitem
    exact .inr ⟨item, by simp, hs⟩

theorem nodup_keys_of_settingsOf (hD : D.Documented) (hroot : D.read document = .ok root)
    (houter : D.entries? root = some outer) (hs : settingsOf D outer = some entries) :
    (entries.map Prod.fst).Nodup := by
  obtain ⟨rfl, -⟩ | ⟨item, hitem, htable⟩ := settingsOf_eq_some hs
  · exact List.nodup_nil
  · exact hD.nodup hroot (.entry .self houter hitem) htable

/-- The configuration of a document is the one section that is taken from it. -/
theorem parseBy_eq_ok_iff_decode :
    parseBy D document = .ok config ↔ D.decode (sections D) document = .ok ⟨config⟩ := by
  unfold parseBy
  split
  · next file hfile =>
    obtain ⟨bridge⟩ := file
    simp [hfile]
  · next fault hfault => simp [hfault]

/-- Under `bridge` there is the configuration, or nothing and it is the default. -/
theorem fills_sections_iff :
    (sections D).Fills outer ⟨config⟩ ↔
      (∀ item, ("bridge", item) ∈ outer → D.record (ConfigFile.config D) item = .ok config) ∧
      ("bridge" ∉ outer.map Prod.fst → config = {}) := by
  constructor
  · intro h
    exact ⟨h.field (bridge D) (by simp [sections]), h.missing (bridge D) (by simp [sections])⟩
  · rintro ⟨hfield, hmissing⟩
    refine ⟨fun f hf => ?_, fun f hf => ?_, nofun⟩
    all_goals obtain rfl := List.mem_singleton.1 hf
    · exact hfield
    · exact hmissing

/-- A document whose `bridge` is a table is accepted exactly for the configuration that the entries
there make. -/
theorem parseBy_eq_ok_iff (hD : D.Documented) (hroot : D.read document = .ok root)
    (houter : D.entries? root = some outer) (hs : settingsOf D outer = some entries) :
    parseBy D document = .ok config ↔ Makes D entries config := by
  have hkeys := hD.nodup hroot .self houter
  have hdecode : D.decode (sections D) document = D.record (sections D) root := by
    rw [Decoder.decode, hroot]
    rfl
  rw [parseBy_eq_ok_iff_decode, hdecode, hD.record_eq_ok_iff houter hkeys, fills_sections_iff,
    makes_iff hD]
  obtain ⟨rfl, hmissing⟩ | ⟨item, hitem, htable⟩ := settingsOf_eq_some hs
  · rw [Declaration.fills_nil_iff]
    refine ⟨fun h => h.2 hmissing, fun h => ⟨fun item hitem => ?_, fun _ => h⟩⟩
    exact absurd (List.mem_map_of_mem hitem) hmissing
  · rw [← hD.record_eq_ok_iff htable (nodup_keys_of_settingsOf hD hroot houter hs)]
    refine ⟨fun h => h.1 item hitem, fun h => ⟨fun other hother => ?_, fun hmissing => ?_⟩⟩
    · -- there is no other entry of this key
      cases List.inj_on_of_nodup_map hkeys hother hitem rfl
      exact h
    · exact absurd (List.mem_map_of_mem hitem) hmissing

/-- The configuration of a document that cannot be read is not to be had either. -/
theorem parseBy_of_read_error {fault : D.Fault} (h : D.read document = .error fault) :
    parseBy D document = .error (.document fault) := by
  have hdecode : D.decode (sections D) document = .error fault := by
    rw [Decoder.decode, h]
    rfl
  rw [parseBy, hdecode]

/-- A document that is accepted is a table. -/
theorem exists_table_of_parseBy (hD : D.Documented) (h : parseBy D document = .ok config) :
    ∃ root outer, D.read document = .ok root ∧ D.entries? root = some outer := by
  cases hroot : D.read document with
  | error fault => exact nomatch h.symm.trans (parseBy_of_read_error hroot)
  | ok root =>
    obtain ⟨outer, houter⟩ := hD.table hroot
    exact ⟨root, outer, rfl, houter⟩

/-- What is not accepted has a fault in the document. -/
theorem exists_fault_of_parseBy {error : FileError D.Fault} (h : parseBy D document = .error error) :
    ∃ fault, error = .document fault := by
  unfold parseBy at h
  split at h
  · cases h
  · next fault _ => exact ⟨fault, (Except.error.inj h).symm⟩

/-- No configuration has the entry: there is no field of its name, or its value is none of this
field. -/
def Stray (D : Decoder) (name : String) (item : D.Value) : Prop :=
  name ∉ ["tag", "access", "id_order"] ∨
  name = "tag" ∧ D.text? item = none ∨
  name = "access" ∧ (∀ a : AccessChoice, D.variant? item ≠ some a.name) ∨
  name = "id_order" ∧ ∀ o : IdOrder, D.variant? item ≠ some o.name

theorem Stray.not_sets (h : Stray D name item) : ¬ Sets D config name item := by
  rintro (⟨rfl, hset⟩ | ⟨rfl, hset⟩ | ⟨rfl, hset⟩)
  · have h : D.text? item = none := by simpa [Stray] using h
    exact nomatch h.symm.trans hset
  · have h : ∀ a : AccessChoice, D.variant? item ≠ some a.name := by simpa [Stray] using h
    exact h _ hset
  · have h : ∀ o : IdOrder, D.variant? item ≠ some o.name := by simpa [Stray] using h
    exact h _ hset

/-- **No entry under `bridge` is passed over.** Take any decoder that keeps what is promised of it. A
document that is accepted is a table; if its entry `bridge` is a table too, or it has none, then the
entries there are no more than the three fields, each at most once; the configuration has their
values, and what is not set is as by default. Each configuration that the entries there make is
accepted. A document with any other entry there is rejected, and all that is rejected is so for a
fault in the document, be it one that keeps it from being read. -/
theorem parse_faithful (hD : D.Documented) (document : String) :
    (∀ config, parseBy D document = .ok config → ∃ root outer, D.read document = .ok root ∧
      D.entries? root = some outer ∧ ∀ entries, settingsOf D outer = some entries →
        (entries.map Prod.fst).Nodup ∧ Makes D entries config) ∧
    (∀ root outer entries, D.read document = .ok root → D.entries? root = some outer →
      settingsOf D outer = some entries →
      (∀ config, Makes D entries config → parseBy D document = .ok config) ∧
      ∀ name item, (name, item) ∈ entries → Stray D name item →
        ∃ fault, parseBy D document = .error (.document fault)) ∧
    (∀ error, parseBy D document = .error error → ∃ fault, error = .document fault) ∧
    ∀ fault, D.read document = .error fault → parseBy D document = .error (.document fault) := by
  refine ⟨fun config h => ?_, fun root outer entries hroot houter hs => ?_,
    fun error => exists_fault_of_parseBy, fun fault => parseBy_of_read_error⟩
  · obtain ⟨root, outer, hroot, houter⟩ := exists_table_of_parseBy hD h
    exact ⟨root, outer, hroot, houter, fun entries hs =>
      ⟨nodup_keys_of_settingsOf hD hroot houter hs, (parseBy_eq_ok_iff hD hroot houter hs).1 h⟩⟩
  · refine ⟨fun config => (parseBy_eq_ok_iff hD hroot houter hs).2, fun name item hmem hstray => ?_⟩
    cases h : parseBy D document with
    | error error =>
      obtain ⟨fault, rfl⟩ := exists_fault_of_parseBy h
      exact ⟨fault, rfl⟩
    | ok config =>
      have hmakes := (parseBy_eq_ok_iff hD hroot houter hs).1 h
      exact absurd (hmakes.sets _ hmem) hstray.not_sets

/-- A single field, and a field that there is none of beside it. -/
theorem parse_faithful_colour :
    parse "[bridge]\nid_order = \"source\"\n" = .ok { idOrder := .asDefined } ∧
    ∃ fault, parse "[bridge]\nid_order = \"source\"\ncolour = \"blue\"\n" =
      .error (.document fault) := by
  constructor
  · have h := parse_faithful Toml.decoder_documented "[bridge]\nid_order = \"source\"\n"
    refine (h.2.1 (.table .header [("bridge", .table .header [("id_order", .string "source")])])
      _ _ rfl rfl rfl).1 _ ⟨?_, fun _ => rfl, fun _ => rfl, fun hmissing => ?_⟩
    · exact List.forall_mem_singleton.2 (.inr (.inr ⟨rfl, rfl⟩))
    · exact absurd (List.mem_singleton.2 rfl) hmissing
  · have h := parse_faithful Toml.decoder_documented
      "[bridge]\nid_order = \"source\"\ncolour = \"blue\"\n"
    refine (h.2.1 (.table .header [("bridge", .table .header
      [("id_order", .string "source"), ("colour", .string "blue")])]) _ _ rfl rfl rfl).2
      "colour" (.string "blue") ?_ (.inl (by decide))
    exact List.mem_cons_of_mem _ (List.mem_singleton.2 rfl)

/-- A document may have other keys all the same, and other values, with a decoder that keeps what is
promised of it: outside of `bridge`, as where the name of the table is misspelt, inside a field whose
choice is written as a table, and where `bridge` is a list, of which no more than three values count.
-/
theorem other_keys_accepted :
    Toml.decoder.Documented ∧
    (Toml.parse? "[brigde]\ntag = \"x\"\n" =
        some [("brigde", .table .header [("tag", .string "x")])] ∧
      parse "[brigde]\ntag = \"x\"\n" = .ok {}) ∧
    (Toml.parse? "[bridge.access]\nattribute = \x7b\x7d\n" =
        some [("bridge", .table .implied
          [("access", .table .header [("attribute", .table .inline [])])])] ∧
      parse "[bridge.access]\nattribute = \x7b\x7d\n" = .ok { access := .attributes }) ∧
    Toml.parse? "bridge = ['t', 'attribute', 'source', 'x']\n" =
        some [("bridge", .array
          [.string "t", .string "attribute", .string "source", .string "x"])] ∧
      parse "bridge = ['t', 'attribute', 'source', 'x']\n" =
        .ok { tag := "t", access := .attributes, idOrder := .asDefined } :=
  ⟨Toml.decoder_documented, ⟨rfl, rfl⟩, ⟨rfl, rfl⟩, rfl, rfl⟩

end ConfigFile

end Membrane
