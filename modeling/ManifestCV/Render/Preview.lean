import ManifestCV.Render.Escaping
import ManifestCV.Render.Placement

namespace ManifestCV.Render

open Foundation Document

/-- The lines of a block before `_block_lines` wraps them. -/
def unwrappedLines (rt : Runtime) (block : ResumeBlock) : List Line :=
  { text := block.title, heading := true } :: block.content.flatMap fun field => contentLines rt field.2

/-- The lines of every column, in layout order, before they are wrapped. -/
def pdfColumns (rt : Runtime) (document : ResumeDocument) : List (List Line) :=
  document.pages.flatMap fun page => page.rows.flatMap fun row => row.columns.map fun column =>
    (visibleBlocks document column).flatMap (unwrappedLines rt)

def Segment.lines (segment : Segment) : List Line :=
  if segment.tag = "h2".toList then [{ text := unescape segment.text, heading := true }]
  else if segment.tag = "h3".toList ∨ segment.tag = "p".toList then
    (shownRuns isNewline (unescape segment.text)).map fun text => { text }
  else if segment.tag = "li".toList then [{ text := "- ".toList ++ unescape segment.text }]
  else []

def readColumns : List Segment → List Line × List (List Line)
  | [] => ([], [])
  | segment :: segments =>
    let (lines, columns) := readColumns segments
    if segment.tag = columnTag then ([], lines :: columns) else (Segment.lines segment ++ lines, columns)

def htmlColumns (html : Str) : Option (List (List Line)) :=
  (cut html).map fun segments => (readColumns (joinBreaks segments).2).2

/-- Both renderers show a value the same way: a string whose shown lines end at `\n` only, or a list of
    strings, numbers and booleans. -/
def printsAlike : Json → Bool
  | .str value => (shownRuns isNewline value).all fun line => line.all fun c => !isLineBreak c
  | .arr items => items.all isPlainItem
  | _ => true

theorem blockLines_unwrapped (rt : Runtime) (block : ResumeBlock) (width : Nat) :
    blockLines rt block width = (unwrappedLines rt block).flatMap (wrapLine rt width) ++ [{ text := [] }] :=
  rfl

def drawnColumns (document : ResumeDocument) (pages : List (List Placed)) : List (List Str) :=
  (document.pages.mapIdx fun i page => (page.rows.mapIdx fun j row => row.columns.mapIdx fun k _ =>
    pages.flatMap fun drawn => (drawsAt document ⟨i, j, k⟩ drawn).map Draw.text).flatten).flatten

theorem visibleLines_unwrapped (rt : Runtime) (document : ResumeDocument) (column : ResumeColumn) :
    ((visibleLines rt document column).map (·.text)).filter (· ≠ []) =
      ((((visibleBlocks document column).flatMap (unwrappedLines rt)).flatMap
        (wrapLine rt (maxChars document (pageSize document).1))).map (·.text)).filter (· ≠ []) := by
  rw [visibleLines_blocks]
  induction visibleBlocks document column with
  | nil => rfl
  | cons block blocks ih =>
    rw [List.flatMap_cons, List.flatMap_cons, List.flatMap_append, List.map_append, List.map_append,
      List.filter_append, List.filter_append, ih, blockLines_unwrapped, List.map_append, List.filter_append]
    simp

/-- What the pages draw for a column are its lines, each as it is wrapped, and the blank line behind every
    block. -/
theorem drawnColumns_unwrapped {rt : Runtime} {document : ResumeDocument} {pages : List (List Placed)}
    (draws : DrawsEveryLine rt document pages) : (drawnColumns document pages).map (·.filter (· ≠ [])) =
      (pdfColumns rt document).map fun lines =>
        ((lines.flatMap (wrapLine rt (maxChars document (pageSize document).1))).map (·.text)).filter
            (· ≠ []) := by
  have drawn : drawnColumns document pages = document.pages.flatMap fun page => page.rows.flatMap fun row =>
      row.columns.map fun column => (visibleLines rt document column).map (·.text) := by
    rw [drawnColumns, List.flatMap_def]
    congr 1
    apply mapIdx_eq_map
    intro i page onPage
    rw [List.flatMap_def]
    congr 1
    apply mapIdx_eq_map
    intro j row onRow
    apply mapIdx_eq_map
    intro k column inRow
    exact draws.texts _ column (columnAt_of onPage onRow inRow)
  rw [drawn, pdfColumns]
  simp only [List.map_flatMap, List.map_map, Function.comp_def, visibleLines_unwrapped]

def htmlItemLines (rt : Runtime) (item : Json) : List Line :=
  if isPlainItem item && !(strip (str rt item)).isEmpty then [{ text := "- ".toList ++ str rt item }] else []

def htmlLines (rt : Runtime) : Json → List Line
  | .str value => (shownRuns isNewline value).map fun text => { text }
  | .arr items => items.flatMap (htmlItemLines rt)
  | _ => []

section Fields

variable (rt : Runtime)

theorem shownRuns_lines (value : Str) :
    shownRuns isLineBreak value = (runs isNewline value).flatMap (shownRuns isLineBreak) := by
  rw [shownRuns, runs_refine isNewline (fun _ newline => newline_lineBreak newline), List.filter_flatMap]
  rfl

theorem shownRuns_flatMap (value : Str) :
    shownRuns isNewline value = (runs isNewline value).flatMap fun line => if !isBlank line then
      [line] else [] := by
  rw [← filter_flatMap_if, List.flatMap_singleton']
  rfl

theorem shownRuns_blank {line : Str} (blank : isBlank line = true) : shownRuns isLineBreak line = [] := by
  have all := (isBlank_runs (fun _ => isLineBreak_space) line).mp blank
  rw [shownRuns, List.filter_eq_nil_iff]
  intro run member
  rw [all run member]
  decide

theorem shownRuns_nonblank {line : Str} (shown : isBlank line = false) :
    0 < (shownRuns isLineBreak line).length := by
  rw [List.length_pos_iff]
  intro none
  have all : isBlank line = true := by
    rw [isBlank_runs (p := isLineBreak) fun _ => isLineBreak_space]
    intro run member
    have hidden := List.filter_eq_nil_iff.mp none run member
    simpa using hidden
  rw [shown] at all
  cases all

theorem shownRuns_same {line : Str} (shown : isBlank line = false) :
    [line] = shownRuns isLineBreak line ↔ ∀ c ∈ line, isLineBreak c = false := by
  constructor
  · intro same c member
    have inRuns : line ∈ shownRuns isLineBreak line := same ▸ List.mem_singleton_self line
    exact runs_inside isLineBreak line line (List.mem_filter.mp inRuns).1 c member
  · intro inside
    rw [shownRuns, runs_of_inside isLineBreak inside, List.filter_cons, shown]
    rfl

theorem contentLines_str (value : Str) :
    contentLines rt (.str value) = (shownRuns isLineBreak value).map fun text => { text } := by
  simp only [contentLines, strip_isEmpty]
  by_cases blank : isBlank value = true
  · rw [if_pos blank, shownRuns_blank blank]
    rfl
  · rw [if_neg blank, splitlines_shown]

theorem contentLines_arr (items : List Json) : contentLines rt (.arr items) =
    items.flatMap fun item => if !(strip (str rt item)).isEmpty then [{ text := "- ".toList ++ str rt item }]
      else [] := by
  rw [contentLines, List.map_eq_flatMap, filter_flatMap_if]

theorem hidden_item_prints {item : Json} (hidden : isPlainItem item = false) :
    (strip (str rt item)).isEmpty = false := by
  rw [strip_isEmpty]
  cases item with
  | null => rfl
  | arr items => rfl
  | obj fields => rfl
  | _ => cases hidden

theorem htmlItemLines_shorter (item : Json) : (htmlItemLines rt item).length ≤
    (if !(strip (str rt item)).isEmpty then [({ text := "- ".toList ++ str rt item } : Line)]
      else []).length := by
  unfold htmlItemLines
  cases isPlainItem item <;> simp

theorem htmlItemLines_same (item : Json) : htmlItemLines rt item =
    (if !(strip (str rt item)).isEmpty then [({ text := "- ".toList ++ str rt item } : Line)] else []) ↔
      isPlainItem item = true := by
  unfold htmlItemLines
  cases plain : isPlainItem item with
  | true => simp
  | false =>
    rw [hidden_item_prints rt plain]
    simp

theorem htmlLines_str_shorter {line : Str} :
    (if !isBlank line then [line] else []).length ≤ (shownRuns isLineBreak line).length := by
  cases shown : isBlank line with
  | true => simp
  | false => exact shownRuns_nonblank shown

theorem map_line_injective : Function.Injective (List.map fun text : Str => ({ text } : Line)) :=
  List.map_injective_iff.mpr fun _ _ same => congrArg Line.text same

theorem htmlLines_shorter (value : Json) : (htmlLines rt value).length ≤ (contentLines rt value).length := by
  cases value with
  | str value =>
    rw [contentLines_str, shownRuns_lines, htmlLines, shownRuns_flatMap, List.length_map, List.length_map]
    exact length_flatMap_le fun line _ => htmlLines_str_shorter
  | arr items =>
    rw [contentLines_arr]
    exact length_flatMap_le fun item _ => htmlItemLines_shorter rt item
  | _ => exact Nat.zero_le _

theorem printsAlike_str (value : Str) : printsAlike (.str value) = true ↔
    ∀ line ∈ runs isNewline value, isBlank line = false → ∀ c ∈ line, isLineBreak c = false := by
  simp only [printsAlike, shownRuns, List.all_eq_true, List.mem_filter, Bool.not_eq_true', and_imp]

theorem htmlLines_same (value : Json) : htmlLines rt value = contentLines rt value ↔
    printsAlike value = true := by
  cases value with
  | str value =>
    rw [contentLines_str, shownRuns_lines, htmlLines, map_line_injective.eq_iff, shownRuns_flatMap,
      flatMap_eq_iff fun line _ => htmlLines_str_shorter, printsAlike_str]
    refine forall_congr' fun line => forall_congr' fun _ => ?_
    cases shown : isBlank line with
    | true => simp [shownRuns_blank shown]
    | false => simpa using shownRuns_same shown
  | arr items =>
    rw [contentLines_arr, htmlLines, flatMap_eq_iff fun item _ => htmlItemLines_shorter rt item]
    simp only [htmlItemLines_same, printsAlike, List.all_eq_true]
  | _ => simp [htmlLines, contentLines, printsAlike]

end Fields

section Columns

def Within (segments : List Segment) : Prop := ∀ segment ∈ segments, segment.tag ≠ columnTag

theorem readColumns_within {first : List Segment} (within : Within first) (second : List Segment) :
    readColumns (first ++ second) = (first.flatMap Segment.lines ++ (readColumns second).1,
      (readColumns second).2) := by
  induction first with
  | nil => rfl
  | cons segment first ih =>
    have other := within segment List.mem_cons_self
    rw [List.cons_append, readColumns, ih fun next member => within next (List.mem_cons_of_mem _ member)]
    simp [other]

theorem readColumns_column {segment : Segment} (opens : segment.tag = columnTag) {inner after : List Segment}
    (within : Within inner) :
    readColumns (segment :: inner ++ after) =
      ([], (inner.flatMap Segment.lines ++ (readColumns after).1) :: (readColumns after).2) := by
  rw [List.cons_append, readColumns, readColumns_within within]
  simp [opens]

theorem lines_title (text : Str) :
    Segment.lines ⟨"h2".toList, htmlEscape text⟩ = [{ text, heading := true }] := by
  rw [Segment.lines, if_pos rfl, unescape_htmlEscape]

theorem lines_item (text : Str) :
    Segment.lines ⟨"li".toList, htmlEscape text⟩ = [{ text := "- ".toList ++ text }] := by
  unfold Segment.lines
  dsimp only
  rw [if_neg (by decide), if_neg (by decide), if_pos rfl, unescape_htmlEscape]

theorem lines_text {tag : Str} (paragraph : tag = "h3".toList ∨ tag = "p".toList) (text : Str) :
    Segment.lines ⟨tag, htmlEscape text⟩ = (shownRuns isNewline text).map fun text => { text } := by
  have other : tag ≠ "h2".toList := by
    rcases paragraph with rfl | rfl <;> decide
  rw [Segment.lines, if_neg other, if_pos paragraph, unescape_htmlEscape]

theorem lines_closing (name : Str) : Segment.lines ⟨'/' :: name, []⟩ = [] := by
  have other : ∀ tag ∈ ["h2".toList, "h3".toList, "p".toList, "li".toList], '/' :: name ≠ tag := by
    intro tag member same
    have heads : ∀ tag ∈ ["h2".toList, "h3".toList, "p".toList, "li".toList], tag.head? ≠ some '/' :=
      by decide
    exact heads tag member (same ▸ rfl)
  simp only [List.forall_mem_cons] at other
  rw [Segment.lines, if_neg other.1, if_neg (not_or.mpr ⟨other.2.1, other.2.2.1⟩), if_neg other.2.2.2.1]

theorem closing_column (name : Str) : '/' :: name ≠ columnTag :=
  fun same => nomatch List.head_eq_of_cons_eq same

theorem within_closing (name : Str) : Within [⟨'/' :: name, []⟩] := by
  intro segment member
  rw [List.mem_singleton.mp member]
  exact closing_column name

theorem readColumns_closing (name : Str) {after : List Segment} (starts : (readColumns after).1 = []) :
    readColumns ([⟨'/' :: name, []⟩] ++ after) = ([], (readColumns after).2) := by
  rw [readColumns_within (within_closing name), starts, List.flatMap_cons, lines_closing]
  rfl

theorem within_element {tag : Str} (other : tag ≠ columnTag) (text : Str) {inner : List Segment}
    (within : Within inner) (name : Str) :
    Within (⟨tag, text⟩ :: inner ++ [⟨'/' :: name, []⟩]) :=
  List.forall_mem_append.mpr ⟨List.forall_mem_cons.mpr ⟨other, within⟩, within_closing name⟩

theorem within_pair {tag : Str} (other : tag ≠ columnTag) (text name : Str) :
    Within [⟨tag, text⟩, ⟨'/' :: name, []⟩] := by
  have nothing : Within [] := fun _ member => nomatch member
  exact within_element other text nothing name

theorem joined_item (text : Str) :
    (joinBreaks (elementSegments "li".toList "li".toList (htmlEscape text) [])).2 =
    [⟨"li".toList, htmlEscape text⟩, ⟨"/li".toList, []⟩] := by
  rw [joinBreaks_element (by decide) _ _ starts_nil]
  rfl

theorem joined_field_str (rt : Runtime) (key value : Str) :
    (joinBreaks (fieldSegments rt (key, .str value))).2 =
    if isBlank value then [] else [⟨fieldTag key, htmlEscape value⟩, ⟨'/' :: fieldTag key, []⟩] := by
  simp only [fieldSegments, strip_isEmpty]
  by_cases blank : isBlank value = true
  · rw [if_pos blank, if_pos blank]
    rfl
  · rw [if_neg blank, if_neg blank]
    refine joinBreaks_text ?_ _
    rcases fieldTag_cases key with same | same
    · rw [same]
      decide
    · rw [same]
      decide

theorem joined_field_arr (rt : Runtime) (key : Str) (items : List Json) :
    (joinBreaks (fieldSegments rt (key, .arr items))).2 =
    if (plainItems rt items).isEmpty then []
    else ⟨"ul".toList, []⟩ :: ((plainItems rt items).flatMap fun item =>
      [⟨"li".toList, htmlEscape (str rt item)⟩, ⟨"/li".toList, []⟩]) ++ [⟨"/ul".toList, []⟩] := by
  simp only [fieldSegments]
  split
  · rfl
  · have starts : ∀ item ∈ plainItems rt items, Starts (itemSegments rt item) := fun item _ =>
      starts_element (by decide) _ _ _
    have each : ∀ item ∈ plainItems rt items, (joinBreaks (itemSegments rt item)).2 =
        [⟨"li".toList, htmlEscape (str rt item)⟩, ⟨"/li".toList, []⟩] := fun item _ =>
          joined_item (str rt item)
    rw [joinBreaks_element (by decide) _ _ (starts_flatMap starts), joinBreaks_flatMap starts,
      List.flatMap_congr each]
    rfl

theorem field_within (rt : Runtime) (field : Str × Json) :
    Within (joinBreaks (fieldSegments rt field)).2 := by
  obtain ⟨key, value⟩ := field
  cases value with
  | str value =>
    rw [joined_field_str]
    split
    · exact fun _ member => nomatch member
    · refine within_pair ?_ _ _
      rcases fieldTag_cases key with same | same
      · rw [same]
        decide
      · rw [same]
        decide
  | arr items =>
    rw [joined_field_arr]
    split
    · exact fun _ member => nomatch member
    · refine within_element (by decide) _ (forall_mem_flatMap fun item _ => ?_) "ul".toList
      exact within_pair (by decide) _ "li".toList
  | _ => exact fun _ member => nomatch member

theorem field_lines (rt : Runtime) (field : Str × Json) :
    (joinBreaks (fieldSegments rt field)).2.flatMap Segment.lines = htmlLines rt field.2 := by
  obtain ⟨key, value⟩ := field
  cases value with
  | str value =>
    rw [joined_field_str]
    split
    · rename_i blank
      rw [htmlLines, shownRuns, List.filter_eq_nil_iff.mpr]
      · rfl
      · intro run member
        rw [(isBlank_runs (fun _ newline => isLineBreak_space (newline_lineBreak newline)) value).mp
          blank run member]
        decide
    · rw [List.flatMap_cons, List.flatMap_cons, lines_text (fieldTag_cases key), lines_closing]
      exact List.append_nil _
  | arr items =>
    have shown : (htmlLines rt (.arr items)) = (plainItems rt items).flatMap fun item =>
        [{ text := "- ".toList ++ str rt item }] := by
      rw [htmlLines, plainItems, filter_flatMap_if]
      rfl
    rw [joined_field_arr, shown]
    split
    · rename_i none
      rw [List.isEmpty_iff.mp none]
      rfl
    · rw [List.flatMap_append, List.flatMap_cons, List.flatMap_cons, List.flatMap_nil, List.flatMap_assoc]
      have list : Segment.lines ⟨"ul".toList, []⟩ = [] := rfl
      have close : Segment.lines ⟨"/ul".toList, []⟩ = [] := rfl
      rw [list, close, List.nil_append, List.append_nil, List.append_nil]
      apply List.flatMap_congr
      intro item _
      rw [List.flatMap_cons, List.flatMap_cons, lines_item]
      rfl
  | _ => rfl

def htmlBlockLines (rt : Runtime) (block : ResumeBlock) : List Line :=
  { text := block.title, heading := true } :: block.content.flatMap fun field => htmlLines rt field.2

theorem joined_section (rt : Runtime) (block : ResumeBlock) : (joinBreaks (sectionSegments rt block)).2 =
    ⟨"section".toList, []⟩ :: (⟨"h2".toList, htmlEscape block.title⟩ :: [] ++ [⟨"/h2".toList, []⟩] ++
      block.content.flatMap fun field => (joinBreaks (fieldSegments rt field)).2) ++
        [⟨"/section".toList, []⟩] := by
  have fields : ∀ field ∈ block.content, Starts (fieldSegments rt field) := fun field _ =>
    fieldSegments_starts rt field
  have title : Starts (titleSegments block) := starts_element (by decide) _ _ _
  rw [sectionSegments, joinBreaks_element (by decide) _ _ (title.append (starts_flatMap fields)),
    joinBreaks_append _ (starts_flatMap fields), joinBreaks_flatMap fields, titleSegments,
    joinBreaks_element (by decide) _ _ starts_nil]
  rfl

theorem section_within (rt : Runtime) (block : ResumeBlock) :
    Within (joinBreaks (sectionSegments rt block)).2 := by
  rw [joined_section]
  refine within_element (by decide) _ (List.forall_mem_append.mpr ⟨?_, forall_mem_flatMap fun field _ =>
    field_within rt field⟩)
    "section".toList
  exact within_pair (by decide) _ "h2".toList

theorem section_lines (rt : Runtime) (block : ResumeBlock) :
    (joinBreaks (sectionSegments rt block)).2.flatMap Segment.lines = htmlBlockLines rt block := by
  have opens : Segment.lines ⟨"section".toList, []⟩ = [] := rfl
  have closes : Segment.lines ⟨"/section".toList, []⟩ = [] := rfl
  have title : Segment.lines ⟨"/h2".toList, []⟩ = [] := rfl
  simp only [joined_section, List.flatMap_append, List.flatMap_cons, List.flatMap_nil, opens, closes,
    title, lines_title, List.flatMap_assoc, field_lines, List.append_nil, List.nil_append]
  rfl

def ShowsColumns (segments : List Segment) (columns : List (List Line)) : Prop :=
  ∀ after, (readColumns after).1 = [] → readColumns (segments ++ after) =
    ([], columns ++ (readColumns after).2)

theorem showsColumns_flatMap {α : Type} {f : α → List Segment} {g : α → List (List Line)} {items : List α}
    (each : ∀ a ∈ items, ShowsColumns (f a) (g a)) : ShowsColumns (items.flatMap f) (items.flatMap g) := by
  induction items with
  | nil =>
    intro after starts
    rw [List.flatMap_nil, List.flatMap_nil, List.nil_append, List.nil_append, ← starts]
  | cons a items ih =>
    intro after starts
    have rest := ih (fun b member => each b (List.mem_cons_of_mem _ member)) after starts
    have first := each a List.mem_cons_self (items.flatMap f ++ after) (by rw [rest])
    rw [List.flatMap_cons, List.append_assoc, first, rest, List.flatMap_cons, List.append_assoc]

theorem column_shows (rt : Runtime) (document : ResumeDocument) (column : ResumeColumn) :
    ShowsColumns (joinBreaks (columnSegments rt document column)).2
      [(visibleBlocks document column).flatMap (htmlBlockLines rt)] := by
  intro after starts
  have sections : ∀ block ∈ visibleBlocks document column, Starts (sectionSegments rt block) :=
    fun block _ => sectionSegments_starts rt block
  have within : Within ((visibleBlocks document column).flatMap fun block =>
      (joinBreaks (sectionSegments rt block)).2) :=
    forall_mem_flatMap fun block _ => section_within rt block
  have lines : ((visibleBlocks document column).flatMap fun block =>
    (joinBreaks (sectionSegments rt block)).2).flatMap
      Segment.lines = (visibleBlocks document column).flatMap (htmlBlockLines rt) := by
    rw [List.flatMap_assoc]
    exact List.flatMap_congr fun block _ => section_lines rt block
  have close : readColumns ([⟨"/div".toList, []⟩] ++ after) = ([], (readColumns after).2) :=
    readColumns_closing "div".toList starts
  rw [columnSegments, joinBreaks_element (by decide) _ _ (starts_flatMap sections),
    joinBreaks_flatMap sections,
    List.append_assoc, readColumns_column rfl within, lines]
  show ([], (_ ++ (readColumns ([⟨"/div".toList, []⟩] ++ after)).1) ::
    (readColumns ([⟨"/div".toList, []⟩] ++ after)).2) = _
  rw [close, List.append_nil]
  rfl

theorem rowTag_lines (row : ResumeRow) : Segment.lines ⟨rowTag row, []⟩ = [] := by
  have head : (rowTag row).head? = some 'd' := rfl
  have other : ∀ tag ∈ ["h2".toList, "h3".toList, "p".toList, "li".toList], rowTag row ≠ tag := by
    intro tag member same
    have heads : ∀ tag ∈ ["h2".toList, "h3".toList, "p".toList, "li".toList], tag.head? ≠ some 'd' :=
      by decide
    exact heads tag member (same ▸ head)
  simp only [List.forall_mem_cons] at other
  rw [Segment.lines, if_neg other.1, if_neg (not_or.mpr ⟨other.2.1, other.2.2.1⟩), if_neg other.2.2.2.1]

theorem rowTag_column (row : ResumeRow) : rowTag row ≠ columnTag := by
  intro same
  have marks : (rowTag row)[11]? = columnTag[11]? := congrArg (·[11]?) same
  exact absurd marks (by show some 'r' ≠ some 'c'; decide)

theorem row_shows (rt : Runtime) (document : ResumeDocument) (row : ResumeRow) :
    ShowsColumns (joinBreaks (rowSegments rt document row)).2
      (row.columns.map fun column => (visibleBlocks document column).flatMap (htmlBlockLines rt)) := by
  intro after starts
  have columns : ∀ column ∈ row.columns, Starts (columnSegments rt document column) :=
    fun column _ => columnSegments_starts rt document column
  have close : readColumns ([⟨"/div".toList, []⟩] ++ after) = ([], (readColumns after).2) :=
    readColumns_closing "div".toList starts
  have inner := showsColumns_flatMap (fun column (_ : column ∈ row.columns) =>
    column_shows rt document column)
    ([⟨"/div".toList, []⟩] ++ after) (by rw [close])
  have opens : Within [⟨rowTag row, []⟩] := by
    intro segment member
    rw [List.mem_singleton.mp member]
    exact rowTag_column row
  rw [rowSegments, joinBreaks_element (rowTag_other row) _ _ (starts_flatMap columns),
    joinBreaks_flatMap columns, List.append_assoc, List.cons_append, ← List.singleton_append,
    readColumns_within opens, List.flatMap_cons, rowTag_lines]
  show ([] ++ [] ++ (readColumns (_ ++ ([⟨"/div".toList, []⟩] ++ after))).1,
    (readColumns (_ ++ ([⟨"/div".toList, []⟩] ++ after))).2) = _
  rw [inner, close, ← List.map_eq_flatMap]
  rfl

theorem body_shows (rt : Runtime) (document : ResumeDocument) :
    ShowsColumns (joinBreaks (bodySegments rt document)).2
    (document.pages.flatMap fun page => page.rows.flatMap fun row => row.columns.map fun column =>
      (visibleBlocks document column).flatMap (htmlBlockLines rt)) := by
  have starts : ∀ page ∈ document.pages, Starts (page.rows.flatMap (rowSegments rt document)) :=
    fun page _ => starts_flatMap fun row _ => rowSegments_starts rt document row
  rw [bodySegments, joinBreaks_flatMap starts]
  refine showsColumns_flatMap fun page _ => ?_
  rw [joinBreaks_flatMap fun row _ => rowSegments_starts rt document row]
  exact showsColumns_flatMap fun row _ => row_shows rt document row

theorem head_within (rt : Runtime) (document : ResumeDocument) :
    Within (headSegments rt document) ∧ (headSegments rt document).flatMap Segment.lines = [] := by
  unfold headSegments
  generalize styleSheet rt document = sheet
  constructor
  · unfold Within
    simp only [List.forall_mem_cons]
    refine ⟨?_, ?_, ?_, ?_, ?_, ?_, ?_, ?_, fun _ member => nomatch member⟩
    all_goals decide
  · rfl

theorem htmlColumns_styled {rt : Runtime} {document : ResumeDocument}
    (styled : Passes document.style.checks) :
    htmlColumns (printPage (pageSegments rt document)) =
      some (document.pages.flatMap fun page => page.rows.flatMap fun row => row.columns.map fun column =>
        (visibleBlocks document column).flatMap (htmlBlockLines rt)) := by
  have template := @pageSegments_template rt document styled
  have whole : cut (printPage (pageSegments rt document)) = some (pageSegments rt document) :=
    cut_printPage (fun same => nomatch same) fun segment member => (template segment member).unmarked
  have tail : Starts [⟨"/body".toList, []⟩, ⟨"/html".toList, []⟩] := starts_cons (by decide) _
  have body : Starts (bodySegments rt document) :=
    starts_flatMap fun page _ => starts_flatMap fun row _ => rowSegments_starts rt document row
  have shows := body_shows rt document (joinBreaks [⟨"/body".toList, []⟩, ⟨"/html".toList, []⟩]).2 rfl
  rw [htmlColumns, whole, Option.map_some, pageSegments, joinBreaks_append _ tail, joinBreaks_append _ body,
    List.append_assoc, joinBreaks_plain (head_plain rt document),
      readColumns_within (head_within rt document).1, shows]
  exact congrArg some (List.append_nil _)

end Columns

theorem htmlBlockLines_shorter (rt : Runtime) (block : ResumeBlock) :
    (htmlBlockLines rt block).length ≤ (unwrappedLines rt block).length :=
  Nat.succ_le_succ (length_flatMap_le fun field _ => htmlLines_shorter rt field.2)

theorem htmlBlockLines_same (rt : Runtime) (block : ResumeBlock) :
    htmlBlockLines rt block = unwrappedLines rt block ↔ ∀ field ∈ block.content,
      printsAlike field.2 = true := by
  rw [htmlBlockLines, unwrappedLines, List.cons.injEq, flatMap_eq_iff fun field _ =>
    htmlLines_shorter rt field.2]
  simp only [htmlLines_same, true_and]

theorem forall_visible {document : ResumeDocument} (passes : Passes document.checks)
    {good : ResumeBlock → Prop} :
    (∀ page ∈ document.pages, ∀ row ∈ page.rows, ∀ column ∈ row.columns,
      ∀ block ∈ visibleBlocks document column, good block) ↔
      ∀ block ∈ document.blocks, block.visible = true → good block := by
  obtain ⟨ids, _, referenced⟩ := layout_checks passes
  constructor
  · intro each block member visible
    obtain ⟨place, column, found, inColumn⟩ := reference_place (referenced _ (List.mem_map_of_mem member))
    obtain ⟨page, row, onPage, onRow, inRow⟩ := columnAt_some found
    refine each page (List.mem_of_getElem? onPage) row (List.mem_of_getElem? onRow) column
      (List.mem_of_getElem? inRow) block ?_
    exact mem_visibleBlocks.mpr ⟨block.id, inColumn, findBlock_unique ids member, visible⟩
  · intro each page _ row _ column _ block member
    obtain ⟨id, _, found, visible⟩ := mem_visibleBlocks.mp member
    exact each block (findBlock_some found).1 visible

/-- The preview and the PDF show the same lines in every column exactly when every value of a visible block is
    one that both print alike. -/
theorem preview_agrees (rt : Runtime) (document : ResumeDocument) (accepted : Accepted rt document) :
    ∃ html columns, renderDocumentHtml rt document = some html ∧ htmlColumns html = some columns ∧
      (columns = pdfColumns rt document ↔
        ∀ block ∈ document.blocks, block.visible = true → ∀ field ∈ block.content,
          printsAlike field.2 = true) := by
  obtain ⟨payload, keyed, parsed⟩ := accepted
  obtain ⟨valid, _⟩ := validateDocument_sound keyed parsed
  refine ⟨_, _, renderDocumentHtml_accepted valid.checks, htmlColumns_styled valid.style, ?_⟩
  have rows : ∀ row : ResumeRow,
    (row.columns.map fun column => (visibleBlocks document column).flatMap (htmlBlockLines rt)).length =
      (row.columns.map fun column => (visibleBlocks document column).flatMap (unwrappedLines rt)).length := by
    intro row
    rw [List.length_map, List.length_map]
  rw [pdfColumns, flatMap_eq_iff fun page _ => length_flatMap_le fun row _ => (rows row).le]
  simp only [flatMap_eq_iff fun (row : ResumeRow) _ => (rows row).le, List.map_inj_left,
    flatMap_eq_iff fun block _ => htmlBlockLines_shorter rt block, htmlBlockLines_same]
  exact forall_visible valid.checks

theorem preview_agrees_onePager :
    ∃ html columns, renderDocumentHtml plainRuntime (onePager "Engineer".toList) = some html ∧
    htmlColumns html = some columns ∧ (columns = pdfColumns plainRuntime (onePager "Engineer".toList) ↔
      ∀ block ∈ (onePager "Engineer".toList).blocks, block.visible = true → ∀ field ∈ block.content,
        printsAlike field.2 = true) :=
  preview_agrees plainRuntime _ onePager_accepted

def nullPager : ResumeDocument := onePagerWith .skills "Skills".toList [("items".toList, .arr [.null])]

set_option maxRecDepth 20000 in
theorem preview_hides_null : Accepted plainRuntime nullPager ∧
    (renderDocumentHtml plainRuntime nullPager).bind htmlColumns = some [[⟨"Skills".toList, true⟩]] ∧
    pdfColumns plainRuntime nullPager = [[⟨"Skills".toList, true⟩, ⟨"- None".toList, false⟩]] := by
  refine ⟨onePagerWith_accepted rfl rfl ?_, by with_unfolding_all decide, by with_unfolding_all decide⟩
  simp [Json.WellKeyed, Json.WellKeyedFields, Json.WellKeyedItems]

end ManifestCV.Render
