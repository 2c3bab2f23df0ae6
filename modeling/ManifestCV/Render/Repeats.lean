import Mathlib.Data.Set.Pairwise.List
import ManifestCV.Document.Coverage
import ManifestCV.Render.Storing

namespace ManifestCV.Render

open Foundation Document

section Marks

variable (rt : Runtime) (markdown : Str)

def Picks (block : ResumeBlock) (name : Str) : Prop :=
  ∃ lines, pickedSection rt (readSections rt markdown) block.title (blockType.text block.type) =
    some (name, lines)

def HasText (name : Str) : Prop :=
  ∃ tagged ∈ markdownLines rt markdown, tagged.1 = name ∧ isBlank (textOf tagged.2) = false

def occurrences (block : ResumeBlock) : List (Nat × Str) :=
  match pickedSection rt (readSections rt markdown) block.title (blockType.text block.type) with
  | some item => ((markdownLines rt markdown).zipIdx.filter fun o => decide (o.1.1 = item.1) &&
      !isBlank (textOf o.1.2)).map
      fun o => (o.2, textOf o.1.2)
  | none => []

def isBulleted (block : ResumeBlock) : Bool := bulletTypes.contains (blockType.text block.type)

def blockMarks (block : ResumeBlock) : List (Option Nat × Line) :=
  (none, { text := block.title, heading := true }) ::
    ((occurrences rt markdown block).map fun o => (some o.1, { text := o.2 })) ++
      if isBulleted block then (occurrences rt markdown block).map fun o =>
        (some o.1, { text := "- ".toList ++ o.2 }) else []

def markedColumns (document : ResumeDocument) : List (List (Option Nat × Line)) :=
  document.pages.flatMap fun page => page.rows.flatMap fun row => row.columns.map fun column =>
    (visibleBlocks document column).flatMap (blockMarks rt markdown)

def timesShown (document : ResumeDocument) (place : Nat) : Nat :=
  ((markedColumns rt markdown document).flatten.map Prod.fst).count (some place)

/-- No section with text goes to a visible block that prints it twice, nor to two visible blocks. -/
def SingleUse (document : ResumeDocument) : Prop :=
  (EachVisible document fun block => ∀ name, Picks rt markdown block name → HasText rt markdown name →
    isBulleted block = false) ∧
    EachVisible document fun block => EachVisible document fun other => ∀ name, Picks rt markdown block name →
      Picks rt markdown other name → HasText rt markdown name → block.id = other.id

end Marks

section Lines

variable {rt : Runtime} {markdown : Str}

theorem occurrences_texts (block : ResumeBlock) : (occurrences rt markdown block).map Prod.snd =
    (blockSection rt markdown block).filter fun line => !isBlank line := by
  rw [blockSection, sectionFor_picked, occurrences]
  cases found : pickedSection rt (readSections rt markdown) block.title (blockType.text block.type) with
  | none => rfl
  | some item =>
    dsimp only
    rw [readSections_lines (List.mem_of_find?_eq_some found), List.filter_map, List.filter_filter,
      List.map_map]
    have back := List.zipIdx_map_fst 0 (markdownLines rt markdown)
    have filtered : (markdownLines rt markdown).filter (fun tagged => !isBlank (textOf tagged.2) &&
      decide (tagged.1 = item.1)) =
        ((markdownLines rt markdown).zipIdx.filter fun o => decide (o.1.1 = item.1) &&
            !isBlank (textOf o.1.2)).map Prod.fst := by
      conv_lhs => rw [← back]
      rw [List.filter_map]
      congr 1
      apply List.filter_congr
      intro o _
      exact Bool.and_comm _ _
    show _ = List.map (textOf ·.2) ((markdownLines rt markdown).filter fun tagged =>
      !isBlank (textOf tagged.2) && decide (tagged.1 = item.1))
    rw [filtered, List.map_map]
    rfl

theorem str_text (text : Str) : str rt (.str text) = text := rfl

/-- The marks stand at the lines that `_block_lines` prints of the filled block, before it wraps them. -/
theorem blockMarks_lines (block : ResumeBlock) : (blockMarks rt markdown block).map Prod.snd =
    unwrappedLines rt (block.filled rt (readSections rt markdown)) := by
  have texts := @occurrences_texts rt markdown block
  have text : contentLines rt (.str (joinWith ['\n'] (blockSection rt markdown block))) =
      (occurrences rt markdown block).map fun o => { text := o.2 } := by
    rw [contentLines_str, shownRuns_joinWith rfl (blockSection_inside block), ← texts, List.map_map]
    rfl
  have bullets : contentLines rt (strings (blockSection rt markdown block)) =
      (occurrences rt markdown block).map fun o => { text := "- ".toList ++ o.2 } := by
    rw [strings, contentLines, List.filter_map, List.map_map]
    have same : (blockSection rt markdown block).filter
      ((fun item => !(strip (str rt item)).isEmpty) ∘ Json.str) =
        (occurrences rt markdown block).map Prod.snd := by
      rw [texts]
      apply List.filter_congr
      intro line _
      show (!(strip (str rt (.str line))).isEmpty) = _
      rw [str_text, strip_isEmpty]
    rw [same, List.map_map]
    rfl
  have none : contentLines rt (strings []) = [] := rfl
  have content : (block.filled rt (readSections rt markdown)).content = [
      ("text".toList, .str (joinWith ['\n'] (blockSection rt markdown block))),
      ("bullets".toList, strings (if isBulleted block then blockSection rt markdown block else []))] := rfl
  rw [unwrappedLines, content, List.flatMap_cons, List.flatMap_cons, List.flatMap_nil, List.append_nil, text]
  simp only [blockMarks, List.cons_append, List.map_cons, List.map_append, List.map_map]
  cases isBulleted block with
  | true =>
    simp only [if_true, bullets, List.map_map]
    rfl
  | false =>
    simp only [Bool.false_eq_true, if_false, none]
    rfl

theorem printsAlike_filled (block : ResumeBlock) :
    ∀ field ∈ (block.filled rt (readSections rt markdown)).content, printsAlike field.2 = true := by
  have inside : ∀ line ∈ blockSection rt markdown block, ∀ c ∈ line, isNewline c = false :=
    fun line member c found => not_newline (blockSection_inside block line member c found)
  have text : printsAlike (.str (joinWith ['\n'] (blockSection rt markdown block))) = true := by
    rw [printsAlike, shownRuns_joinWith rfl inside, List.all_eq_true]
    intro line member
    rw [List.all_eq_true]
    intro c found
    rw [blockSection_inside block line (List.mem_filter.mp member).1 c found]
    rfl
  intro field member
  rcases List.mem_cons.mp member with rfl | member
  · exact text
  · rw [List.mem_singleton.mp member, strings, printsAlike, List.all_map]
    exact List.all_eq_true.mpr fun _ _ => rfl

theorem filled_columns (document : ResumeDocument) (lines : ResumeBlock → List Line)
    (marked : ∀ block, (blockMarks rt markdown block).map Prod.snd =
      lines (block.filled rt (readSections rt markdown))) :
    ((document.filled rt markdown).pages.flatMap fun page => page.rows.flatMap fun row =>
      row.columns.map fun column =>
      (visibleBlocks (document.filled rt markdown) column).flatMap lines) =
        (markedColumns rt markdown document).map (List.map Prod.snd) := by
  have pages : (document.filled rt markdown).pages = document.pages := rfl
  have shown : ∀ column, (visibleBlocks (document.filled rt markdown) column).flatMap lines =
      ((visibleBlocks document column).flatMap (blockMarks rt markdown)).map Prod.snd := by
    intro column
    have filled := @visibleBlocks_map document (·.filled rt (readSections rt markdown)) (fun _ => rfl)
      (fun _ => rfl) column
    rw [ResumeDocument.filled, filled, List.flatMap_map, List.map_flatMap]
    exact List.flatMap_congr fun block _ => (marked block).symm
  rw [pages, markedColumns]
  simp only [shown, List.map_flatMap, List.map_map, Function.comp_def]

end Lines

section Counting

variable {rt : Runtime} {markdown : Str}

def shownBlocks (document : ResumeDocument) : List ResumeBlock :=
  document.pages.flatMap fun page => page.rows.flatMap fun row => row.columns.flatMap fun column =>
    visibleBlocks document column

def printedPlaces (rt : Runtime) (markdown : Str) (block : ResumeBlock) : List Nat :=
  (blockMarks rt markdown block).filterMap Prod.fst

theorem printedPlaces_eq (block : ResumeBlock) : printedPlaces rt markdown block =
    (occurrences rt markdown block).map Prod.fst ++
      if isBulleted block then (occurrences rt markdown block).map Prod.fst else [] := by
  rw [printedPlaces, blockMarks, List.cons_append, List.filterMap_cons_none rfl, List.filterMap_append,
    List.filterMap_map]
  cases isBulleted block with
  | true =>
    rw [if_pos rfl, if_pos rfl, List.filterMap_map]
    simp only [Function.comp_def, List.filterMap_eq_map']
  | false =>
    simp only [Function.comp_def, Bool.false_eq_true, if_false, List.filterMap_eq_map', List.filterMap_nil]

theorem timesShown_count (document : ResumeDocument) (place : Nat) :
    timesShown rt markdown document place = ((shownBlocks document).flatMap (printedPlaces rt markdown)).count
      place := by
  have marks : (markedColumns rt markdown document).flatten = (shownBlocks document).flatMap
      (blockMarks rt markdown) := by
    simp only [markedColumns, shownBlocks, List.flatMap_assoc, ← List.flatMap_id, List.flatMap_map, id]
  have labels : (shownBlocks document).flatMap (printedPlaces rt markdown) =
      ((shownBlocks document).flatMap (blockMarks rt markdown)).filterMap Prod.fst := by
    rw [List.filterMap_flatMap]
    rfl
  rw [timesShown, marks, labels, List.count_filterMap, List.count_eq_countP, List.countP_map]
  rfl

theorem occurrences_mem {block : ResumeBlock} {place : Nat}
    (member : place ∈ (occurrences rt markdown block).map Prod.fst) :
    ∃ tagged, (markdownLines rt markdown)[place]? = some tagged ∧ Picks rt markdown block tagged.1 ∧
      isBlank (textOf tagged.2) = false := by
  unfold occurrences at member
  split at member
  · rename_i item found
    rw [List.map_map] at member
    obtain ⟨⟨tagged, index⟩, inside, rfl⟩ := List.mem_map.mp member
    obtain ⟨here, fits⟩ := List.mem_filter.mp inside
    simp only [Bool.and_eq_true, decide_eq_true_eq, Bool.not_eq_true'] at fits
    obtain ⟨named, shown⟩ := fits
    refine ⟨tagged, List.mem_zipIdx_iff_getElem?.mp here, ⟨item.2, ?_⟩, shown⟩
    rw [found, named]
  · cases member

theorem mem_occurrences {block : ResumeBlock} {place : Nat} {tagged : Str × Str}
    (here : (markdownLines rt markdown)[place]? = some tagged) (picks : Picks rt markdown block tagged.1)
    (shown : isBlank (textOf tagged.2) = false) : place ∈ (occurrences rt markdown block).map Prod.fst := by
  obtain ⟨lines, found⟩ := picks
  unfold occurrences
  rw [found, List.map_map]
  refine List.mem_map.mpr ⟨(tagged, place), List.mem_filter.mpr ⟨List.mem_zipIdx_iff_getElem?.mpr here, ?_⟩,
    rfl⟩
  simp [shown]

theorem occurrences_nodup (block : ResumeBlock) : ((occurrences rt markdown block).map Prod.fst).Nodup := by
  unfold occurrences
  split
  · rw [List.map_map]
    have places : ((markdownLines rt markdown).zipIdx.map Prod.snd).Nodup := by
      rw [List.zipIdx_map_snd]
      exact List.nodup_range'
    exact places.sublist (List.filter_sublist.map Prod.snd)
  · exact List.nodup_nil

theorem mem_printedPlaces {block : ResumeBlock} {place : Nat} : place ∈ printedPlaces rt markdown block ↔
    place ∈ (occurrences rt markdown block).map Prod.fst := by
  rw [printedPlaces_eq, List.mem_append]
  split <;> simp

/-- A block prints no line twice exactly when it is not bulleted or has no line to print. -/
theorem printedPlaces_nodup (block : ResumeBlock) : (printedPlaces rt markdown block).Nodup ↔
    ∀ name, Picks rt markdown block name → HasText rt markdown name → isBulleted block = false := by
  rw [printedPlaces_eq]
  cases bulleted : isBulleted block with
  | false => simpa using occurrences_nodup block
  | true =>
    rw [if_pos rfl, List.nodup_append']
    constructor
    · rintro ⟨_, _, apart⟩ name picks ⟨tagged, member, named, shown⟩
      obtain ⟨place, here⟩ := List.mem_iff_getElem?.mp member
      have printed := mem_occurrences here (named ▸ picks) shown
      exact absurd printed (apart printed)
    · intro silent
      refine ⟨occurrences_nodup block, occurrences_nodup block, fun place member => ?_⟩
      obtain ⟨tagged, here, picks, shown⟩ := occurrences_mem member
      exact absurd (silent tagged.1 picks ⟨tagged, List.mem_of_getElem? here, rfl, shown⟩) (by decide)

theorem printedPlaces_disjoint (block other : ResumeBlock) :
    List.Disjoint (printedPlaces rt markdown block) (printedPlaces rt markdown other) ↔
      ∀ name, Picks rt markdown block name → Picks rt markdown other name → ¬HasText rt markdown name := by
  constructor
  · rintro apart name picks others ⟨tagged, member, named, shown⟩
    obtain ⟨place, here⟩ := List.mem_iff_getElem?.mp member
    exact apart (mem_printedPlaces.mpr (mem_occurrences here (named ▸ picks) shown))
      (mem_printedPlaces.mpr (mem_occurrences here (named ▸ others) shown))
  · intro single place inBlock inOther
    obtain ⟨tagged, here, picks, shown⟩ := occurrences_mem (mem_printedPlaces.mp inBlock)
    obtain ⟨again, there, others, _⟩ := occurrences_mem (mem_printedPlaces.mp inOther)
    cases Option.some.inj (here.symm.trans there)
    exact single tagged.1 picks others ⟨tagged, List.mem_of_getElem? here, rfl, shown⟩

theorem visibleBlocks_ids (document : ResumeDocument) (column : ResumeColumn) :
    ((visibleBlocks document column).map (·.id)).Sublist column.sectionIds := by
  unfold visibleBlocks
  induction column.sectionIds with
  | nil => exact List.Sublist.slnil
  | cons id ids ih =>
    rw [List.flatMap_cons, List.map_append]
    refine List.Sublist.append (?_ : List.Sublist _ [id]) ih
    cases found : findBlock document id with
    | none => exact List.nil_sublist _
    | some block =>
      dsimp only
      split
      · rw [← (findBlock_some found).2]
        exact List.Sublist.refl _
      · exact List.nil_sublist _

theorem shownBlocks_ids (document : ResumeDocument) :
    ((shownBlocks document).map (·.id)).Sublist document.references := by
  have columns : ∀ columns : List ResumeColumn,
      ((columns.flatMap (visibleBlocks document)).map (·.id)).Sublist (columns.flatMap (·.sectionIds)) := by
    intro columns
    induction columns with
    | nil => exact List.Sublist.slnil
    | cons column columns ih =>
      rw [List.flatMap_cons, List.flatMap_cons, List.map_append]
      exact (visibleBlocks_ids document column).append ih
  have whole : shownBlocks document = (document.pages.flatMap (·.columns)).flatMap
      (visibleBlocks document) := by
    simp only [shownBlocks, ResumePage.columns, List.flatMap_assoc]
  have references : document.references = (document.pages.flatMap (·.columns)).flatMap (·.sectionIds) := by
    rw [List.flatMap_assoc]
    rfl
  rw [whole, references]
  exact columns _

theorem mem_shownBlocks {document : ResumeDocument} (passes : Passes document.checks)
    {good : ResumeBlock → Prop} :
    (∀ block ∈ shownBlocks document, good block) ↔ EachVisible document good := by
  rw [EachVisible, ← forall_visible passes]
  simp only [shownBlocks, List.mem_flatMap]
  constructor
  · intro each page onPage row onRow column inRow block member
    exact each block ⟨page, onPage, row, onRow, column, inRow, member⟩
  · rintro each block ⟨page, onPage, row, onRow, column, inRow, member⟩
    exact each page onPage row onRow column inRow block member

theorem timesShown_nodup (document : ResumeDocument) : (∀ place, timesShown rt markdown document place ≤ 1) ↔
    (∀ block ∈ shownBlocks document, (printedPlaces rt markdown block).Nodup) ∧
      (shownBlocks document).Pairwise fun block other =>
        List.Disjoint (printedPlaces rt markdown block) (printedPlaces rt markdown other) := by
  simp only [timesShown_count]
  rw [← List.nodup_iff_count_le_one, List.nodup_flatMap]

/-- No line is shown twice exactly when no section goes to a block that prints it twice, nor to two blocks. -/
theorem timesShown_singleUse {document : ResumeDocument} (passes : Passes document.checks) :
    (∀ place, timesShown rt markdown document place ≤ 1) ↔ SingleUse rt markdown document := by
  obtain ⟨_, references, _⟩ := layout_checks passes
  have ids : ((shownBlocks document).map (·.id)).Nodup := references.sublist (shownBlocks_ids document)
  have symmetric : Std.Symm fun block other : ResumeBlock =>
      List.Disjoint (printedPlaces rt markdown block) (printedPlaces rt markdown other) :=
        ⟨fun _ _ apart _ second first => apart first second⟩
  rw [timesShown_nodup, ← List.Nodup.pairwise_coe (List.Nodup.of_map _ ids), mem_shownBlocks passes]
  simp only [printedPlaces_nodup]
  refine and_congr_right fun _ => ?_
  rw [← mem_shownBlocks passes]
  refine forall_congr' fun block => forall_congr' fun member => ?_
  rw [← mem_shownBlocks passes]
  refine forall_congr' fun other => forall_congr' fun inside => ?_
  refine (imp_congr_right fun _ => printedPlaces_disjoint block other).trans ?_
  constructor
  · intro apart name picks others text
    by_contra different
    exact apart (fun same => different (congrArg ResumeBlock.id same)) name picks others text
  · intro same different name picks others text
    exact different (List.inj_on_of_nodup_map ids member inside (same name picks others text))

end Counting

/-- The preview and the PDF of a document filled with a generated text show the marked lines, and these
    include no line of the text twice exactly when each section is used once. -/
theorem generated_once (rt : Runtime) (markdown : Str) (document : ResumeDocument)
    (accepted : Accepted rt document) :
    ∃ html, renderDocumentHtml rt (document.filled rt markdown) = some html ∧
      htmlColumns html = some ((markedColumns rt markdown document).map (List.map Prod.snd)) ∧
      pdfColumns rt (document.filled rt markdown) = (markedColumns rt markdown document).map
        (List.map Prod.snd) ∧
      ((∀ place, timesShown rt markdown document place ≤ 1) ↔ SingleUse rt markdown document) := by
  obtain ⟨payload, keyed, parsed⟩ := accepted
  obtain ⟨valid, _⟩ := validateDocument_sound keyed parsed
  have styled : Passes (document.filled rt markdown).style.checks := valid.style
  have alike : ∀ block : ResumeBlock, htmlBlockLines rt (block.filled rt (readSections rt markdown)) =
      unwrappedLines rt (block.filled rt (readSections rt markdown)) :=
    fun block => (htmlBlockLines_same rt _).mpr (printsAlike_filled block)
  refine ⟨_, renderDocumentHtml_accepted (ResumeDocument.filled_checks valid.checks), ?_, ?_,
    timesShown_singleUse valid.checks⟩
  · rw [htmlColumns_styled styled]
    exact congrArg some (filled_columns document _ fun block =>
      (blockMarks_lines block).trans (alike block).symm)
  · exact filled_columns document _ blockMarks_lines

theorem generated_once_onePager : ∃ html,
    renderDocumentHtml plainRuntime
      ((onePager "Engineer".toList).filled plainRuntime "- Builds looms".toList) = some html ∧
      htmlColumns html =
        some ((markedColumns plainRuntime "- Builds looms".toList (onePager "Engineer".toList)).map
          (List.map Prod.snd)) ∧
      pdfColumns plainRuntime ((onePager "Engineer".toList).filled plainRuntime "- Builds looms".toList) =
        (markedColumns plainRuntime "- Builds looms".toList (onePager "Engineer".toList)).map
    (List.map Prod.snd) ∧
      ((∀ place, timesShown plainRuntime "- Builds looms".toList (onePager "Engineer".toList) place ≤ 1) ↔
        SingleUse plainRuntime "- Builds looms".toList (onePager "Engineer".toList)) :=
  generated_once plainRuntime _ _ onePager_accepted

/-- A skills block prints its section as text and again as bullets. -/
theorem bullets_repeat : Accepted plainRuntime skillsPage ∧
    Accepted plainRuntime (skillsPage.filled plainRuntime "# Skills\n- Go".toList) ∧
    pdfColumns plainRuntime (skillsPage.filled plainRuntime "# Skills\n- Go".toList) =
      [[⟨"Skills".toList, true⟩, ⟨"Go".toList, false⟩, ⟨"- Go".toList, false⟩]] ∧
    timesShown plainRuntime "# Skills\n- Go".toList skillsPage 0 = 2 := by
  have filled : skillsPage.filled plainRuntime "# Skills\n- Go".toList =
      onePagerWith .skills "Skills".toList (sectionContent "skills".toList ["Go".toList]) := rfl
  refine ⟨skillsPage_accepted, ?_, by decide, by decide⟩
  rw [filled]
  exact onePagerWith_accepted rfl rfl (sectionContent_wellKeyed _ _)

end ManifestCV.Render
