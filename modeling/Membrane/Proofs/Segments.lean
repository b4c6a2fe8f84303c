import Membrane.Text.TypeName
import Mathlib.Data.List.Infix
import Mathlib.Data.List.TakeWhile

/-!
# The parts of a type name

A type name consists of a path, a segment and arguments (`NameParts`): the path is empty or ends
with a double colon, the segment has none in it, and the arguments begin with the first `<` of the
name. Where more than two colons stand in a row, all of them go with the path, and none is left in
front of the segment.

`shortTypeName` leaves out the path and nothing else (`shortTypeName_eq_iff`). All that is said of
it afterwards is read off the parts: those of a short name (`NameParts.short`), and those of a name
below a further path (`NameParts.below`).
-/

namespace Membrane

/-- The two colons that end a path. -/
def colons : List Char := [':', ':']

variable {c : Char} {l rest : List Char}

/-! ## Up to the first double colon -/

theorem colons_prefix_cons : colons <+: c :: l ↔ c = ':' ∧ [':'] <+: l := by
  rw [colons, List.cons_prefix_cons, eq_comm]

theorem untilColons_eq_nil (hcut : colons <+: l) : untilColons l = [] := by
  obtain ⟨rest, rfl⟩ := hcut
  rfl

theorem untilColons_cons (hcut : ¬ colons <+: c :: l) :
    untilColons (c :: l) = c :: untilColons l := by
  refine untilColons.eq_3 c l fun tail hc hl => hcut ?_
  rw [colons_prefix_cons, hl]
  exact ⟨hc, List.prefix_append ..⟩

/-- Either all is kept, or what follows is a double colon with no third one in front of it. -/
theorem untilColons_cases (l : List Char) :
    untilColons l = l ∨
      ¬ [':'] <:+ untilColons l ∧ ∃ rest, l = untilColons l ++ (colons ++ rest) := by
  induction l with
  | nil => exact .inl rfl
  | cons c l ih =>
    by_cases hcut : colons <+: c :: l
    · obtain ⟨rest, hrest⟩ := hcut
      rw [untilColons_eq_nil ⟨rest, hrest⟩]
      exact .inr ⟨by simp, rest, hrest.symm⟩
    · rw [untilColons_cons hcut]
      obtain hself | ⟨hlast, rest, hrest⟩ := ih
      · exact .inl (congrArg (c :: ·) hself)
      · refine .inr ⟨?_, rest, congrArg (c :: ·) hrest⟩
        rw [List.suffix_cons_iff]
        rintro (hone | hlater)
        · -- Nothing of the tail is kept, so it begins with two colons, and `c` is a third.
          obtain ⟨rfl, hnil⟩ := List.cons.inj hone
          rw [← hnil] at hrest
          exact hcut (colons_prefix_cons.2 ⟨rfl, hrest ▸ List.prefix_append ..⟩)
        · exact hlast hlater

theorem untilColons_eq_self (hplain : ¬ colons <:+: l) : untilColons l = l := by
  obtain hself | ⟨-, rest, hrest⟩ := untilColons_cases l
  · exact hself
  · rw [← List.append_assoc] at hrest
    exact absurd ⟨untilColons l, rest, hrest.symm⟩ hplain

theorem untilColons_isPrefix (l : List Char) : untilColons l <+: l := by
  obtain hself | ⟨-, rest, hrest⟩ := untilColons_cases l
  · rw [hself]
  · exact ⟨colons ++ rest, hrest.symm⟩

theorem not_colons_infix_untilColons (l : List Char) : ¬ colons <:+: untilColons l := by
  induction l with
  | nil => simp [untilColons, colons]
  | cons c l ih =>
    by_cases hcut : colons <+: c :: l
    · simp [untilColons_eq_nil hcut, colons]
    · rw [untilColons_cons hcut, List.infix_cons_iff]
      rintro (hstart | hlater)
      · have hkept : c :: untilColons l <+: c :: l :=
          (List.prefix_cons_inj c).2 (untilColons_isPrefix l)
        exact hcut (hstart.trans hkept)
      · exact ih hlater

/-- What follows a double colon is of no account, unless a third colon stands in front of it. -/
theorem untilColons_append (hlast : ¬ [':'] <:+ l) (rest : List Char) :
    untilColons (l ++ (colons ++ rest)) = untilColons l := by
  induction l with
  | nil => exact untilColons_eq_nil (List.prefix_append ..)
  | cons c l ih =>
    rw [List.suffix_cons_iff, not_or] at hlast
    by_cases hcut : colons <+: c :: l
    · rw [untilColons_eq_nil hcut, untilColons_eq_nil (hcut.trans (List.prefix_append ..))]
    · -- A double colon across the seam would need a colon at the end of the list.
      have hlonger : ¬ colons <+: c :: (l ++ (colons ++ rest)) := by
        rw [colons_prefix_cons] at hcut ⊢
        rintro ⟨rfl, hnext⟩
        cases l with
        | nil => exact hlast.1 rfl
        | cons d l => exact hcut ⟨rfl, by simpa [List.cons_prefix_cons] using hnext⟩
      rw [List.cons_append, untilColons_cons hlonger, untilColons_cons hcut, ih hlast.2]

/-! ## After the last double colon -/

theorem colons_infix_reverse : colons <:+: l.reverse ↔ colons <:+: l :=
  @List.reverse_infix _ colons l

theorem colon_suffix_reverse : [':'] <:+ l.reverse ↔ [':'] <+: l :=
  @List.reverse_suffix _ [':'] l

theorem not_colons_infix_lastSegment (l : List Char) : ¬ colons <:+: lastSegment l := by
  rw [lastSegment, colons_infix_reverse]
  exact not_colons_infix_untilColons l.reverse

theorem lastSegment_eq_self (hplain : ¬ colons <:+: l) : lastSegment l = l := by
  rw [← colons_infix_reverse] at hplain
  rw [lastSegment, untilColons_eq_self hplain, List.reverse_reverse]

theorem lastSegment_append (front : List Char) (hstart : ¬ [':'] <+: l) :
    lastSegment (front ++ colons ++ l) = lastSegment l := by
  rw [← colon_suffix_reverse] at hstart
  have hreverse : (front ++ colons ++ l).reverse = l.reverse ++ (colons ++ front.reverse) := by
    simp [colons]
  rw [lastSegment, hreverse, untilColons_append hstart, lastSegment]

/-- In front of the last segment there is nothing, or a path with a double colon at its end. -/
theorem exists_front (l : List Char) :
    ∃ front, l = front ++ lastSegment l ∧
      (front = [] ∨ colons <:+ front ∧ ¬ [':'] <+: lastSegment l) := by
  obtain hself | ⟨hlast, rest, hrest⟩ := untilColons_cases l.reverse
  · refine ⟨[], ?_, .inl rfl⟩
    rw [lastSegment, hself, List.reverse_reverse, List.nil_append]
  · have hstart : ¬ [':'] <+: lastSegment l := by
      rwa [← colon_suffix_reverse, lastSegment, List.reverse_reverse]
    refine ⟨rest.reverse ++ colons, ?_, .inr ⟨List.suffix_append .., hstart⟩⟩
    have hreverse := congrArg List.reverse hrest
    simpa [lastSegment, colons] using hreverse

/-! ## Up to the first bracket -/

theorem takeWhile_append_of_open (hplain : '<' ∉ l) (hopen : rest = [] ∨ ['<'] <+: rest) :
    (l ++ rest).takeWhile (· != '<') = l ∧ (l ++ rest).dropWhile (· != '<') = rest := by
  have hkept : ∀ c ∈ l, (c != '<') = true := fun c hc =>
    bne_iff_ne.2 fun heq => hplain (heq ▸ hc)
  rw [List.takeWhile_append_of_pos hkept, List.dropWhile_append_of_pos hkept]
  obtain rfl | ⟨tail, rfl⟩ := hopen
  · simp
  · simp

theorem open_dropWhile (l : List Char) :
    l.dropWhile (· != '<') = [] ∨ ['<'] <+: l.dropWhile (· != '<') := by
  have hhead := List.head?_dropWhile_not (· != '<') l
  cases hrest : l.dropWhile (· != '<') with
  | nil => exact .inl rfl
  | cons c tail =>
    rw [hrest] at hhead
    have hc : c = '<' := by simpa using hhead
    exact .inr (hc ▸ List.prefix_append ..)

/-- An opening bracket is no colon. -/
theorem not_colon_prefix_append (hstart : ¬ [':'] <+: l) (hopen : rest = [] ∨ ['<'] <+: rest) :
    ¬ [':'] <+: l ++ rest := by
  cases l with
  | nil =>
    obtain rfl | ⟨tail, rfl⟩ := hopen
    · exact hstart
    · simp [List.cons_prefix_cons]
  | cons c l => simpa [List.cons_prefix_cons] using hstart

/-! ## The parts -/

/-- A type name taken apart into its path, its last segment and its arguments. -/
@[mk_iff]
structure NameParts (full path segment arguments : String) : Prop where
  full_eq : full = path ++ segment ++ arguments
  /-- A path ends with a double colon, and no third colon follows. -/
  path_end : path = "" ∨ path.endsWith "::" = true ∧ (segment ++ arguments).startsWith ":" = false
  segment_plain : segment.contains "::" = false
  /-- Whatever follows the first `<` of the name belongs to the arguments. -/
  front_plain : (path ++ segment).contains '<' = false
  arguments_open : arguments = "" ∨ arguments.startsWith "<" = true

variable {full path segment arguments : String}

/-- The parts as lists of characters. -/
theorem nameParts_iff_toList :
    NameParts full path segment arguments ↔
      full.toList = path.toList ++ segment.toList ++ arguments.toList ∧
      (path.toList = [] ∨
        colons <:+ path.toList ∧ ¬ [':'] <+: segment.toList ++ arguments.toList) ∧
      ¬ colons <:+: segment.toList ∧ '<' ∉ path.toList ++ segment.toList ∧
      (arguments.toList = [] ∨ ['<'] <+: arguments.toList) := by
  have hends : path.endsWith "::" = true ↔ colons <:+ path.toList := by
    rw [← String.endsWith_toSlice, String.Slice.endsWith_string_iff, String.copy_toSlice]
    rfl
  have hcolons : "::".toList = colons := rfl
  rw [nameParts_iff, hends, ← String.toList_inj, String.startsWith_string_eq_false_iff,
    String.startsWith_string_iff, String.contains_string_eq_false_iff, String.contains_char_eq,
    decide_eq_false_iff_not, hcolons]
  simp only [String.toList_append, String.toList_eq_nil_iff]
  rfl

instance : Decidable (NameParts full path segment arguments) :=
  decidable_of_iff _ nameParts_iff_toList.symm

/-- Every name has parts, and the last two of them make the short name. -/
theorem exists_nameParts (full : String) :
    ∃ path segment arguments,
      NameParts full path segment arguments ∧ shortTypeName full = segment ++ arguments := by
  have hopen := open_dropWhile full.toList
  obtain ⟨front, hfront, hend⟩ := exists_front (full.toList.takeWhile (· != '<'))
  refine ⟨.ofList front, .ofList (lastSegment (full.toList.takeWhile (· != '<'))),
    .ofList (full.toList.dropWhile (· != '<')), nameParts_iff_toList.2 ?_, String.ofList_append⟩
  simp only [String.toList_ofList, ← hfront, List.takeWhile_append_dropWhile, true_and]
  refine ⟨?_, not_colons_infix_lastSegment _, fun hmem => ?_, hopen⟩
  · exact hend.imp_right fun ⟨hcolons, hstart⟩ => ⟨hcolons, not_colon_prefix_append hstart hopen⟩
  · simpa using List.mem_takeWhile_imp hmem

/-- However a name is taken apart, the short name is what follows the path. -/
theorem NameParts.shortTypeName_eq (hparts : NameParts full path segment arguments) :
    shortTypeName full = segment ++ arguments := by
  obtain ⟨hfull, hend, hsegment, hfront, hopen⟩ := nameParts_iff_toList.1 hparts
  obtain ⟨htake, hdrop⟩ := takeWhile_append_of_open hfront hopen
  have hlast : lastSegment (path.toList ++ segment.toList) = segment.toList := by
    obtain hnil | ⟨⟨front, hcolons⟩, hstart⟩ := hend
    · rw [hnil, List.nil_append, lastSegment_eq_self hsegment]
    · have hown : ¬ [':'] <+: segment.toList := fun hcolon =>
        hstart (hcolon.trans (List.prefix_append ..))
      rw [← hcolons, lastSegment_append front hown, lastSegment_eq_self hsegment]
  rw [shortTypeName, hfull, htake, hdrop, hlast, String.ofList_append, String.ofList_toList,
    String.ofList_toList]

theorem shortTypeName_eq_iff {short : String} :
    shortTypeName full = short ↔
      ∃ path segment arguments,
        NameParts full path segment arguments ∧ short = segment ++ arguments := by
  constructor
  · rintro rfl
    exact exists_nameParts full
  · rintro ⟨path, segment, arguments, hparts, rfl⟩
    exact hparts.shortTypeName_eq

/-- A short name has the same segment and arguments, and no path. -/
theorem NameParts.short (hparts : NameParts full path segment arguments) :
    NameParts (segment ++ arguments) "" segment arguments := by
  obtain ⟨-, -, hsegment, hfront, hopen⟩ := nameParts_iff_toList.1 hparts
  refine nameParts_iff_toList.2 ⟨by simp, .inl rfl, hsegment, fun hmem => hfront ?_, hopen⟩
  exact List.mem_append_right _ (by simpa using hmem)

/-- Below a further path, a name keeps its segment and its arguments. -/
theorem NameParts.below {front : String} (hparts : NameParts full path segment arguments)
    (hplain : front.contains '<' = false) (hstart : full.startsWith ":" = false) :
    NameParts (front ++ "::" ++ full) (front ++ "::" ++ path) segment arguments := by
  obtain ⟨hfull, hend, hsegment, hfront, hopen⟩ := nameParts_iff_toList.1 hparts
  rw [String.contains_char_eq, decide_eq_false_iff_not] at hplain
  rw [String.startsWith_string_eq_false_iff, hfull] at hstart
  refine nameParts_iff_toList.2 ⟨by simp [hfull], .inr ⟨?_, ?_⟩, hsegment, ?_, hopen⟩
  · obtain hnil | ⟨hcolons, -⟩ := hend
    · rw [String.toList_append, String.toList_append, hnil, List.append_nil]
      exact List.suffix_append ..
    · rw [String.toList_append]
      exact hcolons.trans (List.suffix_append ..)
  · obtain hnil | ⟨-, hown⟩ := hend
    · rwa [hnil, List.nil_append] at hstart
    · exact hown
  · simp only [String.toList_append, List.mem_append, not_or] at hfront ⊢
    exact ⟨⟨⟨hplain, by decide⟩, hfront.1⟩, hfront.2⟩

/-- **A short name is the name without its path.** It consists of the segment and the arguments of
the name, which determines it for every name. What is short already stays as it is, and below any
further path a name has the same short name, provided that the arguments do not begin in that path
and that the name does not begin with a colon, which would go with the path. -/
theorem shortTypeName_without_path :
    (∀ full short, shortTypeName full = short ↔
      ∃ path segment arguments,
        NameParts full path segment arguments ∧ short = segment ++ arguments) ∧
    (∀ full, shortTypeName (shortTypeName full) = shortTypeName full) ∧
    ∀ front full : String, front.contains '<' = false → full.startsWith ":" = false →
      shortTypeName (front ++ "::" ++ full) = shortTypeName full := by
  refine ⟨fun full short => shortTypeName_eq_iff, fun full => ?_,
    fun front full hplain hstart => ?_⟩
  · obtain ⟨path, segment, arguments, hparts, hshort⟩ := exists_nameParts full
    rw [hshort]
    exact hparts.short.shortTypeName_eq
  · obtain ⟨path, segment, arguments, hparts, hshort⟩ := exists_nameParts full
    rw [hshort]
    exact (hparts.below hplain hstart).shortTypeName_eq

/-- A third colon in front of the last double colon goes with the path, single colons and whatever
the arguments contain stay. -/
theorem shortTypeName_without_path_fn :
    "core::ops:".contains '<' = false ∧ "Fn:Once<a::B>::c".startsWith ":" = false ∧
      shortTypeName ("core::ops:" ++ "::" ++ "Fn:Once<a::B>::c") = "Fn:Once<a::B>::c" := by
  obtain ⟨hparts, -, hbelow⟩ := shortTypeName_without_path
  have hplain : "core::ops:".contains '<' = false := by
    rw [String.contains_char_eq]
    decide
  have hstart : "Fn:Once<a::B>::c".startsWith ":" = false := by
    rw [String.startsWith_string_eq_false_iff]
    decide
  have hown : NameParts "Fn:Once<a::B>::c" "" "Fn:Once" "<a::B>::c" := by decide
  refine ⟨hplain, hstart, ?_⟩
  rw [hbelow _ _ hplain hstart]
  exact (hparts _ _).2 ⟨"", "Fn:Once", "<a::B>::c", hown, rfl⟩

end Membrane
