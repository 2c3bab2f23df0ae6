import ManifestCV.Foundation.Lists
import ManifestCV.Render.Html
import ManifestCV.Render.PdfDocument

namespace ManifestCV.Render

open Foundation Document

def shownAt (document : ResumeDocument) (place : Place) : List ResumeBlock :=
  match columnAt document place with
  | some column => visibleBlocks document column
  | none => []

def placedRows (rt : Runtime) (document : ResumeDocument) (shown : Place → List ResumeBlock) : Str :=
  (document.pages.mapIdx fun i page => (page.rows.mapIdx fun j row =>
    element (rowTag row) "div".toList (row.columns.mapIdx fun k _ =>
      element columnTag "div".toList ((shown ⟨i, j, k⟩).flatMap (sectionHtml rt))).flatten).flatten).flatten

/-- Both outputs consist of the same blocks at the same places: every visible block once, in the column
    that references it, and no hidden one. -/
structure LaysOut (rt : Runtime) (document : ResumeDocument) (shown : Place → List ResumeBlock) (html : Str)
    (pages : List (List Placed)) : Prop where
  once : ∀ block ∈ document.blocks, block.visible = true → ∃ place column,
    columnAt document place = some column ∧
    block.id ∈ column.sectionIds ∧ (shown place).filter (·.id = block.id) = [block] ∧
    ∀ other, other ≠ place → ∀ shownThere ∈ shown other, shownThere.id ≠ block.id
  visible : ∀ place, ∀ block ∈ shown place, block ∈ document.blocks ∧ block.visible = true
  html : html = htmlPage rt document (placedRows rt document shown)
  drawn : DrawsEveryLine rt document pages
  texts : ∀ place column, columnAt document place = some column →
    (pages.flatMap fun page => (drawsAt document place page).map Draw.text) =
      ((shown place).flatMap fun block => blockLines rt block (maxChars document (pageSize document).1)).map
        (·.text)

theorem layout_checks {document : ResumeDocument} (passes : Passes document.checks) :
    document.blockIds.Nodup ∧ document.references.Nodup ∧ ∀ id ∈ document.blockIds,
      id ∈ document.references := by
  have ids := passes (decide document.blockIds.Nodup, .value "block ids must be unique".toList)
    (by simp only [ResumeDocument.checks, List.mem_cons]; tauto)
  have references := passes (decide document.references.Nodup,
    .value "a block can only appear once in the layout".toList)
    (by simp only [ResumeDocument.checks, List.mem_cons]; tauto)
  have layout : (document.references.all (document.blockIds.contains ·) &&
      document.blockIds.all (document.references.contains ·)) = true :=
    passes (_, .value "layout must reference every block exactly once".toList)
      (by simp only [ResumeDocument.checks, List.mem_cons]; tauto)
  simp only [Bool.and_eq_true, List.all_eq_true, List.contains_iff_mem] at layout
  exact ⟨of_decide_eq_true ids, of_decide_eq_true references, layout.2⟩

theorem findBlock_unique {document : ResumeDocument} (distinct : document.blockIds.Nodup)
    {block : ResumeBlock} (member : block ∈ document.blocks) : findBlock document block.id = some block := by
  have found : (findBlock document block.id).isSome = true := by
    rw [findBlock, List.find?_isSome]
    exact ⟨block, List.mem_reverse.mpr member, by simp⟩
  obtain ⟨other, here⟩ := Option.isSome_iff_exists.mp found
  obtain ⟨inside, same⟩ := findBlock_some here
  rw [here, List.inj_on_of_nodup_map distinct inside member same]

theorem columnAt_of {document : ResumeDocument} {i j k : Nat} {page : ResumePage} {row : ResumeRow}
    {column : ResumeColumn} (onPage : document.pages[i]? = some page) (onRow : page.rows[j]? = some row)
    (inRow : row.columns[k]? = some column) :
    columnAt document ⟨i, j, k⟩ = some column := by
  simp [columnAt, onPage, onRow, inRow]

theorem reference_place {document : ResumeDocument} {id : Str} (reference : id ∈ document.references) :
    ∃ place column, columnAt document place = some column ∧ id ∈ column.sectionIds := by
  obtain ⟨page, onPage, member⟩ := List.mem_flatMap.mp reference
  obtain ⟨column, onColumns, inColumn⟩ := List.mem_flatMap.mp member
  obtain ⟨row, onRow, inRow⟩ := List.mem_flatMap.mp onColumns
  obtain ⟨i, atPage⟩ := List.mem_iff_getElem?.mp onPage
  obtain ⟨j, atRow⟩ := List.mem_iff_getElem?.mp onRow
  obtain ⟨k, atColumn⟩ := List.mem_iff_getElem?.mp inRow
  exact ⟨⟨i, j, k⟩, column, columnAt_of atPage atRow atColumn, inColumn⟩

theorem mem_page_references {page : ResumePage} {row : ResumeRow} {column : ResumeColumn} {id : Str}
    (onRow : row ∈ page.rows) (inRow : column ∈ row.columns) (inColumn : id ∈ column.sectionIds) :
    id ∈ page.columns.flatMap (·.sectionIds) :=
  List.mem_flatMap.mpr ⟨column, List.mem_flatMap.mpr ⟨row, onRow, inRow⟩, inColumn⟩

theorem place_unique {document : ResumeDocument} (distinct : document.references.Nodup) {place other : Place}
    {column otherColumn : ResumeColumn} {id : Str} (first : columnAt document place = some column)
    (inFirst : id ∈ column.sectionIds) (second : columnAt document other = some otherColumn)
    (inSecond : id ∈ otherColumn.sectionIds) : other = place := by
  obtain ⟨i, j, k⟩ := place
  obtain ⟨i', j', k'⟩ := other
  obtain ⟨page, row, onPage, onRow, inRow⟩ := columnAt_some first
  obtain ⟨page', row', onPage', onRow', inRow'⟩ := columnAt_some second
  have inPage := mem_page_references (List.mem_of_getElem? onRow) (List.mem_of_getElem? inRow) inFirst
  have inPage' := mem_page_references (List.mem_of_getElem? onRow') (List.mem_of_getElem? inRow') inSecond
  have samePage : i' = i := nodup_flatMap_index distinct onPage' onPage inPage' inPage
  subst samePage
  rw [onPage] at onPage'
  cases onPage'
  have onThisPage : (page.columns.flatMap (·.sectionIds)).Nodup :=
    nodup_flatMap_member distinct (List.mem_of_getElem? onPage)
  have rows : (page.rows.flatMap fun row => row.columns.flatMap (·.sectionIds)).Nodup := by
    rw [ResumePage.columns, List.flatMap_assoc] at onThisPage
    exact onThisPage
  have sameRow : j' = j := nodup_flatMap_index rows onRow' onRow
    (List.mem_flatMap.mpr ⟨_, List.mem_of_getElem? inRow', inSecond⟩)
      (List.mem_flatMap.mpr ⟨_, List.mem_of_getElem? inRow, inFirst⟩)
  subst sameRow
  rw [onRow] at onRow'
  cases onRow'
  have columns := nodup_flatMap_member rows (List.mem_of_getElem? onRow)
  have sameColumn : k' = k := nodup_flatMap_index columns inRow' inRow inSecond inFirst
  rw [sameColumn]

theorem sections_nodup {document : ResumeDocument} (distinct : document.references.Nodup) {place : Place}
    {column : ResumeColumn} (found : columnAt document place = some column) : column.sectionIds.Nodup := by
  obtain ⟨page, row, onPage, onRow, inRow⟩ := columnAt_some found
  have onThisPage := nodup_flatMap_member distinct (List.mem_of_getElem? onPage)
  rw [ResumePage.columns, List.flatMap_assoc] at onThisPage
  exact nodup_flatMap_member (nodup_flatMap_member onThisPage (List.mem_of_getElem? onRow))
    (List.mem_of_getElem? inRow)

theorem shown_filter {document : ResumeDocument} {block : ResumeBlock}
    (found : findBlock document block.id = some block) (visible : block.visible = true) (id : Str) :
    (match findBlock document id with
      | some other => if other.visible then [other] else []
      | none => []).filter (fun other =>
          decide (other.id = block.id)) = if decide (id = block.id) = true then [block] else [] := by
  by_cases same : id = block.id
  · rw [same, found]
    simp [visible]
  · simp only [same, decide_false]
    split
    · rename_i other here
      have named := (findBlock_some here).2
      split
      · simp [named, same]
      · rfl
    · rfl

theorem visibleBlocks_filter {document : ResumeDocument} {column : ResumeColumn}
    (distinct : column.sectionIds.Nodup) {block : ResumeBlock}
    (found : findBlock document block.id = some block) (visible : block.visible = true)
    (inColumn : block.id ∈ column.sectionIds) :
    (visibleBlocks document column).filter (·.id = block.id) = [block] := by
  rw [visibleBlocks, List.filter_flatMap]
  refine (List.flatMap_congr fun id _ => shown_filter found visible id).trans ?_
  rw [← filter_flatMap_if, List.filter_eq, List.count_eq_one_of_mem distinct inColumn]
  rfl

theorem shownAt_found {document : ResumeDocument} {place : Place} {column : ResumeColumn}
    (found : columnAt document place = some column) :
    shownAt document place = visibleBlocks document column := by
  rw [shownAt, found]

theorem shown_once {document : ResumeDocument} (passes : Passes document.checks) {block : ResumeBlock}
    (member : block ∈ document.blocks) (visible : block.visible = true) :
    ∃ place column, columnAt document place = some column ∧ block.id ∈ column.sectionIds ∧
      (shownAt document place).filter (·.id = block.id) = [block] ∧
      ∀ other, other ≠ place → ∀ shownThere ∈ shownAt document other, shownThere.id ≠ block.id := by
  obtain ⟨ids, references, referenced⟩ := layout_checks passes
  obtain ⟨place, column, found, inColumn⟩ := reference_place (referenced _ (List.mem_map_of_mem member))
  refine ⟨place, column, found, inColumn, ?_, ?_⟩
  · rw [shownAt_found found]
    exact visibleBlocks_filter (sections_nodup references found) (findBlock_unique ids member)
      visible inColumn
  · intro other apart shownThere inOther same
    cases there : columnAt document other with
    | none =>
      rw [shownAt, there] at inOther
      cases inOther
    | some otherColumn =>
      rw [shownAt_found there] at inOther
      obtain ⟨id, inSections, isBlock, _⟩ := mem_visibleBlocks.mp inOther
      rw [← (findBlock_some isBlock).2, same] at inSections
      exact apart (place_unique references found inColumn there inSections)

theorem shownAt_visible {document : ResumeDocument} {place : Place} {block : ResumeBlock}
    (member : block ∈ shownAt document place) :
    block ∈ document.blocks ∧ block.visible = true := by
  unfold shownAt at member
  split at member
  · obtain ⟨id, _, found, visible⟩ := mem_visibleBlocks.mp member
    exact ⟨(findBlock_some found).1, visible⟩
  · cases member

theorem bodySegments_placed (rt : Runtime) (document : ResumeDocument) :
    printPage (bodySegments rt document) = placedRows rt document (shownAt document) := by
  rw [bodySegments, printPage_flatMap, List.flatMap_def, placedRows]
  congr 1
  refine (mapIdx_eq_map fun i page onPage => ?_).symm
  rw [printPage_flatMap, List.flatMap_def]
  congr 1
  refine mapIdx_eq_map fun j row onRow => ?_
  rw [rowSegments, printPage_element, List.nil_append, printPage_flatMap, List.flatMap_def]
  congr 2
  refine mapIdx_eq_map fun k column inRow => ?_
  rw [shownAt_found (columnAt_of onPage onRow inRow), columnSegments_print]

theorem visibleLines_blocks (rt : Runtime) (document : ResumeDocument) (column : ResumeColumn) :
    visibleLines rt document column =
      (visibleBlocks document column).flatMap fun block => blockLines rt block
    (maxChars document (pageSize document).1) := by
  rw [visibleLines, visibleBlocks, List.flatMap_assoc]
  apply List.flatMap_congr
  intro id _
  cases findBlock document id with
  | none => rfl
  | some block => cases visible : block.visible <;> simp [visible]

/-- Both renderers finish on every accepted document, and lay out the same blocks at the same places. -/
theorem accepted_renders (rt : Runtime) (wraps : WrapsWithin rt) (document : ResumeDocument)
    (accepted : Accepted rt document) :
    ∃ html pdf shown pages, renderDocumentHtml rt document = some html ∧
      renderDocumentPdf rt document = some pdf ∧
      LaysOut rt document shown html pages := by
  obtain ⟨payload, keyed, parsed⟩ := accepted
  obtain ⟨valid, _⟩ := validateDocument_sound keyed parsed
  refine ⟨_, _, shownAt document, placedPages rt document, renderDocumentHtml_accepted valid.checks,
    renderDocumentPdf_writeFile (pageStreams_accepted valid), ?_⟩
  constructor
  case once => exact fun block member visible => shown_once valid.checks member visible
  case visible => exact fun place block member => shownAt_visible member
  case html => rw [← bodySegments_placed, htmlPage_print, pageSegments]
  case drawn => exact placedPages_draw wraps valid
  case texts =>
    intro place column found
    rw [(placedPages_draw wraps valid).texts place column found, shownAt_found found, visibleLines_blocks]

theorem accepted_renders_onePager :
    ∃ html pdf shown pages, renderDocumentHtml plainRuntime (onePager "Engineer".toList) = some html ∧
      renderDocumentPdf plainRuntime (onePager "Engineer".toList) = some pdf ∧
      LaysOut plainRuntime (onePager "Engineer".toList) shown html pages :=
  accepted_renders plainRuntime plainRuntime_wraps _ onePager_accepted

end ManifestCV.Render
