import ManifestCV.Document.Generated
import ManifestCV.Foundation.Markup

namespace ManifestCV.Document

open Foundation

def textOf (line : Str) : Str := lstripChars "-* ".toList (strip line)

def taggedLines (rt : Runtime) (current : Str) : List Str → List (Str × Str)
  | [] => []
  | line :: lines =>
    match headingText (strip line) with
    | some heading => taggedLines rt (rt.lower (strip heading)) lines
    | none => if (strip line).isEmpty then taggedLines rt current lines else
        (current, line) :: taggedLines rt current lines

def markdownLines (rt : Runtime) (markdown : Str) : List (Str × Str) :=
  taggedLines rt "summary".toList (splitlines markdown)

def linesOf (sections : Sections) (name : Str) : List Str := (sections.lookup name).getD []

def pickedSection (rt : Runtime) (sections : Sections) (title type : Str) : Option (Str × List Str) :=
  sections.find? fun item => [rt.lower title, replaceChar '_' " ".toList type].any fun candidate =>
    occursIn candidate item.1 || occursIn item.1 candidate

theorem occursIn_nil (hay : Str) : occursIn [] hay = true :=
  List.any_eq_true.mpr ⟨hay, (List.mem_tails hay hay).mpr (List.suffix_refl hay), rfl⟩

section Grouping

variable {rt : Runtime}

theorem sections_map_values (g : Str → List Str → List Str) (sections : Sections) (name : Str) :
    (sections.map fun item => (item.1, g item.1 item.2)).lookup name = (sections.lookup name).map
    (g name) := by
  induction sections with
  | nil => rfl
  | cons item sections ih =>
    rw [List.map_cons, List.lookup_cons, List.lookup_cons, ih]
    by_cases same : name = item.1
    · subst same
      simp
    · have no : (name == item.1) = false := beq_eq_false_iff_ne.mpr same
      simp [no]

theorem lookup_of_nodup {sections : Sections} (distinct : (sections.map Prod.fst).Nodup)
    {item : Str × List Str} (member : item ∈ sections) : sections.lookup item.1 = some item.2 := by
  induction sections with
  | nil => cases member
  | cons first sections ih =>
    rw [List.map_cons, List.nodup_cons] at distinct
    rw [List.lookup_cons]
    rcases List.mem_cons.mp member with rfl | member
    · simp
    · have no : (item.1 == first.1) = false := beq_eq_false_iff_ne.mpr fun same =>
        distinct.1 (same ▸ List.mem_map_of_mem member)
      rw [no]
      exact ih distinct.2 member

theorem addLines_names (sections : Sections) (name : Str) (lines : List Str) :
    (addLines sections name lines).map Prod.fst =
      if name ∈ sections.map Prod.fst then sections.map Prod.fst else sections.map Prod.fst ++ [name] := by
  have present : (sections.any (·.1 = name)) = true ↔ name ∈ sections.map Prod.fst := by
    simp only [List.any_eq_true, decide_eq_true_eq, List.mem_map]
  unfold addLines
  by_cases here : name ∈ sections.map Prod.fst
  · rw [if_pos (present.mpr here), if_pos here, List.map_map]
    apply List.map_congr_left
    intro item _
    simp only [Function.comp_apply]
    split <;> rfl
  · rw [if_neg (fun any => here (present.mp any)), if_neg here, List.map_append]
    rfl

theorem linesOf_addLines (sections : Sections) (name other : Str) (lines : List Str) :
    linesOf (addLines sections name lines) other = linesOf sections other ++ if other = name then
      lines else [] := by
  unfold addLines linesOf
  split
  · rename_i present
    have values : (sections.map fun item => if item.1 = name then (item.1, item.2 ++ lines) else item) =
        sections.map fun item => (item.1, if item.1 = name then item.2 ++ lines else item.2) := by
      apply List.map_congr_left
      intro item _
      split <;> rfl
    rw [values, sections_map_values fun key old => if key = name then old ++ lines else old]
    cases found : sections.lookup other with
    | some old =>
      simp only [Option.map_some, Option.getD_some]
      split
      · rfl
      · exact (List.append_nil _).symm
    | none =>
      have absent : other ≠ name := by
        rintro rfl
        obtain ⟨item, member, same⟩ := List.any_eq_true.mp present
        have apart := List.lookup_eq_none_iff.mp found item member
        simp only [decide_eq_true_eq] at same
        simp [same] at apart
      simp [absent]
  · rename_i absent
    have missing : sections.lookup name = none := by
      rw [List.lookup_eq_none_iff]
      intro item member
      have apart : name ≠ item.1 := fun same => absent (List.any_eq_true.mpr ⟨item, member, by simp [same]⟩)
      simpa using apart
    rw [List.lookup_append]
    by_cases same : other = name
    · subst same
      simp [missing]
    · have no : (other == name) = false := beq_eq_false_iff_ne.mpr same
      simp [List.lookup_cons, no, same]

/-- The state `markdown_to_blocks` carries from line to line: one entry for each name, the current one among
    them. -/
def Grouped (state : Str × Sections) : Prop := (state.2.map Prod.fst).Nodup ∧ state.1 ∈ state.2.map Prod.fst

theorem addLines_grouped {sections : Sections} (distinct : (sections.map Prod.fst).Nodup) (name : Str)
    (lines : List Str) :
    Grouped (name, addLines sections name lines) := by
  unfold Grouped
  rw [addLines_names]
  split
  · rename_i present
    exact ⟨distinct, present⟩
  · rename_i absent
    refine ⟨List.nodup_append.mpr ⟨distinct, List.nodup_singleton _, ?_⟩,
      List.mem_append_right _ (List.mem_singleton_self _)⟩
    intro a member b single
    rw [List.mem_singleton.mp single]
    exact fun same => absent (same ▸ member)

theorem readLine_eq (current : Str) (sections : Sections) (line : Str) :
    readLine rt (current, sections) line =
    match headingText (strip line) with
    | some heading => (rt.lower (strip heading), addLines sections (rt.lower (strip heading)) [])
    | none =>
      if (strip line).isEmpty then (current, sections)
      else (current, addLines sections current [lstripChars "-* ".toList (strip line)]) := rfl

theorem readLine_grouped {state : Str × Sections} (grouped : Grouped state) (line : Str) :
    Grouped (readLine rt state line) := by
  obtain ⟨current, sections⟩ := state
  unfold readLine
  dsimp only
  split
  · exact addLines_grouped grouped.1 _ _
  · split
    · exact grouped
    · exact addLines_grouped grouped.1 _ _

theorem foldl_grouped {state : Str × Sections} (grouped : Grouped state) (lines : List Str) :
    Grouped (lines.foldl (readLine rt) state) := by
  induction lines generalizing state with
  | nil => exact grouped
  | cons line lines ih => exact ih (readLine_grouped grouped line)

theorem linesOf_foldl (current : Str) (sections : Sections) (lines : List Str) (name : Str) :
    linesOf (lines.foldl (readLine rt) (current, sections)).2 name = linesOf sections name ++
      ((taggedLines rt current lines).filter (·.1 = name)).map (textOf ·.2) := by
  induction lines generalizing current sections with
  | nil => exact (List.append_nil _).symm
  | cons line lines ih =>
    rw [List.foldl_cons, readLine_eq, taggedLines]
    cases headingText (strip line) with
    | some heading =>
      dsimp only
      rw [ih, linesOf_addLines]
      simp
    | none =>
      dsimp only
      split
      · exact ih current sections
      · rw [ih, linesOf_addLines, List.filter_cons]
        by_cases here : current = name
        · simp [here, textOf]
        · have other : ¬name = current := fun same => here same.symm
          simp [here, other]

theorem readSections_names (markdown : Str) : ((readSections rt markdown).map Prod.fst).Nodup := by
  have start : Grouped ("summary".toList, [("summary".toList, [])]) :=
    ⟨List.nodup_singleton _, List.mem_singleton_self _⟩
  exact (foldl_grouped start _).1

theorem readSections_lines {markdown : Str} {item : Str × List Str}
    (member : item ∈ readSections rt markdown) :
    item.2 = ((markdownLines rt markdown).filter (·.1 = item.1)).map (textOf ·.2) := by
  have whole : linesOf (readSections rt markdown) item.1 = item.2 := by
    have found : (readSections rt markdown).lookup item.1 = some item.2 :=
      lookup_of_nodup (readSections_names markdown) member
    rw [linesOf, found]
    rfl
  have start : linesOf [("summary".toList, ([] : List Str))] item.1 = [] := by
    unfold linesOf
    rw [List.lookup_cons]
    split <;> rfl
  rw [← whole, readSections, linesOf_foldl, start, List.nil_append]
  rfl

theorem taggedLines_mem {current name line : Str} {lines : List Str}
    (member : (name, line) ∈ taggedLines rt current lines) :
    line ∈ lines ∧ headingText (strip line) = none ∧ isBlank line = false := by
  induction lines generalizing current with
  | nil => cases member
  | cons first lines ih =>
    rw [taggedLines] at member
    split at member
    · obtain ⟨inside, rest⟩ := ih member
      exact ⟨List.mem_cons_of_mem _ inside, rest⟩
    · rename_i plain
      rw [strip_isEmpty] at member
      split at member
      · obtain ⟨inside, rest⟩ := ih member
        exact ⟨List.mem_cons_of_mem _ inside, rest⟩
      · rename_i shown
        rcases List.mem_cons.mp member with same | member
        · cases same
          exact ⟨List.mem_cons_self, plain, by simpa using shown⟩
        · obtain ⟨inside, rest⟩ := ih member
          exact ⟨List.mem_cons_of_mem _ inside, rest⟩

theorem sectionFor_picked (sections : Sections) (title type : Str) : sectionFor rt sections title type =
    match pickedSection rt sections title type with
    | some item => item.2
    | none => [] := by
  have spelled : sectionFor rt sections title type = match pickedSection rt sections title type with
    | some item => item.2
    | none => (sections.lookup []).getD [] := rfl
  rw [spelled]
  cases nothing : pickedSection rt sections title type with
  | some item => rfl
  | none =>
    have missing : sections.lookup [] = none := by
      rw [List.lookup_eq_none_iff]
      intro item member
      have unmatched := List.find?_eq_none.mp nothing item member
      rw [bne_iff_ne]
      intro empty
      refine unmatched (List.any_eq_true.mpr ⟨rt.lower title, List.mem_cons_self, ?_⟩)
      rw [← empty, occursIn_nil, Bool.or_true]
    rw [missing]
    rfl

end Grouping

end ManifestCV.Document
