import ManifestCV.Foundation.Markup
import ManifestCV.Render.Provenance

namespace ManifestCV.Render

open Foundation Document

def cssFont : FontFamily → Str
  | .inter => "Inter, Arial, sans-serif".toList
  | .arial => "Arial, sans-serif".toList
  | .georgia => "Georgia, serif".toList
  | .sourceSans => "'Source Sans 3', Arial, sans-serif".toList

def headingKeys : List Str := ["role".toList, "company".toList, "name".toList, "headline".toList]

def fieldTag (key : Str) : Str := if headingKeys.contains key then "h3".toList else "p".toList

/-- `isinstance(item, (str, int, float))`, which a `bool` is too. -/
def isPlainItem : Json → Bool
  | .str _ => true
  | .int _ => true
  | .float _ => true
  | .bool _ => true
  | _ => false

def plainItems (rt : Runtime) (items : List Json) : List Json :=
  items.filter fun item => isPlainItem item && !(strip (str rt item)).isEmpty

def itemHtml (rt : Runtime) (item : Json) : Str := element "li".toList "li".toList (htmlEscape (str rt item))

def fieldHtml (rt : Runtime) (field : Str × Json) : Str :=
  match field.2 with
  | .str value =>
    if (strip value).isEmpty then []
    else element (fieldTag field.1) (fieldTag field.1) (replaceChar '\n' "<br>".toList (htmlEscape value))
  | .arr items =>
    if (plainItems rt items).isEmpty then []
    else element "ul".toList "ul".toList ((plainItems rt items).flatMap (itemHtml rt))
  | _ => []

def sectionHtml (rt : Runtime) (block : ResumeBlock) : Str :=
  element "section".toList "section".toList
    (element "h2".toList "h2".toList (htmlEscape block.title) ++ block.content.flatMap (fieldHtml rt))

def blockHtml (rt : Runtime) (document : ResumeDocument) (id : Str) : Option Str :=
  (findBlock document id).map fun block => if block.visible then sectionHtml rt block else []

def columnTag : Str := "div class=\"column\"".toList

def columnHtml (rt : Runtime) (document : ResumeDocument) (column : ResumeColumn) : Option Str :=
  (column.sectionIds.mapM (blockHtml rt document)).map fun sections =>
    element columnTag "div".toList sections.flatten

def columnWidths (row : ResumeRow) : Str :=
  joinWith [' '] (row.columns.map fun column => fixed 2 (Double.mul column.width (Double.ofInt 100)) ++ ['%'])

def rowTag (row : ResumeRow) : Str :=
  "div class=\"row\" style=\"grid-template-columns:".toList ++ columnWidths row ++ ['"']

def rowHtml (rt : Runtime) (document : ResumeDocument) (row : ResumeRow) : Option Str :=
  (row.columns.mapM (columnHtml rt document)).map fun columns =>
    element (rowTag row) "div".toList columns.flatten

def numberText (rt : Runtime) : Number → Str
  | .int value => decimalInt value
  | .float value => rt.floats.repr value

theorem numberText_chars (rt : Runtime) (number : Number) :
    ∀ c ∈ numberText rt number, isNumberChar c = true := by
  cases number with
  | int value => exact decimalInt_chars value
  | float value => exact rt.floats.repr_chars value

theorem numberText_float (rt : Runtime) (number : Number) :
    numberText rt (.float number.toDouble) = numberText rt number ↔ number.isFloat = true := by
  cases number with
  | int value =>
    constructor
    · intro same
      have ends : EndsNumber [] := by
        intro c first
        cases first
      have float := readNumber_float rt.floats (Double.ofInt value) ends
      have int := readNumber_int rt.floats value ends
      rw [List.append_nil] at float int
      simp only [numberText, Number.toDouble] at same
      rw [same, int] at float
      cases float
    · intro float
      cases float
  | float value => exact ⟨fun _ => rfl, fun _ => rfl⟩

def styleSheet (rt : Runtime) (document : ResumeDocument) : Str :=
  let style := document.style
  "\n@page \x7b size: ".toList ++ paper.text document.paper ++ "; margin: ".toList ++ rt.floats.repr
    style.margin ++ "in; \x7d\n".toList ++
  "* \x7b box-sizing: border-box; \x7d body \x7b color: ".toList ++ style.textColor ++
    "; font-family: ".toList ++
    cssFont style.fontFamily ++ "; font-size: ".toList ++ numberText rt style.fontSize ++
      "pt; line-height: ".toList ++
    rt.floats.repr (Double.mul (Double.ofRat (135 / 100)) style.spacing.toDouble) ++
      "; margin: 0; \x7d\n".toList ++
  (".row \x7b display:grid; gap:1.25rem; margin-bottom:1rem; \x7d .column \x7b min-width:0; \x7d ".toList ++
    "section \x7b break-inside:avoid; margin-bottom:".toList) ++
    numberText rt style.spacing ++ "rem; \x7d h2 \x7b color:".toList ++ style.accentColor ++
    ("; font-size:1.15em; margin:.2rem 0 .35rem; \x7d h3 \x7b font-size:1em; margin:.1rem 0; \x7d ".toList ++
      "p \x7b margin:.15rem 0; white-space:normal; \x7d ".toList ++
      "ul \x7b margin:.15rem 0; padding-left:1.2rem; \x7d\n".toList)

def htmlPage (rt : Runtime) (document : ResumeDocument) (rows : Str) : Str :=
  "<!doctype html><html><head><meta charset=\"utf-8\"><style>".toList ++ styleSheet rt document ++
    "</style></head><body>".toList ++ rows ++ "</body></html>".toList

/-- `render_document_html`; `none` is the KeyError of an unknown block. -/
def renderDocumentHtml (rt : Runtime) (document : ResumeDocument) : Option Str :=
  (document.pages.mapM fun page : ResumePage => page.rows.mapM (rowHtml rt document)).map fun pages =>
    htmlPage rt document pages.flatten.flatten

def visibleBlocks (document : ResumeDocument) (column : ResumeColumn) : List ResumeBlock :=
  column.sectionIds.flatMap fun id =>
    match findBlock document id with
    | some block => if block.visible then [block] else []
    | none => []

theorem findBlock_some {document : ResumeDocument} {id : Str} {block : ResumeBlock}
    (found : findBlock document id = some block) :
    block ∈ document.blocks ∧ block.id = id :=
  ⟨List.mem_reverse.mp (List.mem_of_find?_eq_some found), by simpa using List.find?_some found⟩

/-- A change of the blocks that keeps their ids and visibility changes what every column shows, block by
    block. -/
theorem visibleBlocks_map {document : ResumeDocument} {f : ResumeBlock → ResumeBlock}
    (ids : ∀ block, (f block).id = block.id) (visible : ∀ block, (f block).visible = block.visible)
    (column : ResumeColumn) :
    visibleBlocks { document with blocks := document.blocks.map f } column =
      (visibleBlocks document column).map f := by
  have found : ∀ id, findBlock { document with blocks := document.blocks.map f } id =
      (findBlock document id).map f := by
    intro id
    rw [findBlock, findBlock, ← List.map_reverse, List.find?_map]
    congr 2
    funext block
    simp only [Function.comp_apply, ids]
  rw [visibleBlocks, visibleBlocks, List.map_flatMap]
  apply List.flatMap_congr
  intro id _
  rw [found]
  cases findBlock document id with
  | none => rfl
  | some block =>
    simp only [Option.map_some, visible]
    split <;> rfl

theorem mem_visibleBlocks {document : ResumeDocument} {column : ResumeColumn} {block : ResumeBlock} :
    block ∈ visibleBlocks document column ↔
      ∃ id ∈ column.sectionIds, findBlock document id = some block ∧ block.visible = true := by
  rw [visibleBlocks, List.mem_flatMap]
  constructor
  · rintro ⟨id, inColumn, member⟩
    split at member
    · rename_i found here
      split at member
      · rename_i visible
        rw [List.mem_singleton.mp member]
        exact ⟨id, inColumn, here, visible⟩
      · cases member
    · cases member
  · rintro ⟨id, inColumn, found, visible⟩
    refine ⟨id, inColumn, ?_⟩
    rw [found]
    simp only [visible, if_true]
    exact List.mem_singleton_self block

section Segments

variable (rt : Runtime) (document : ResumeDocument)

def itemSegments (item : Json) : List Segment :=
  elementSegments "li".toList "li".toList (htmlEscape (str rt item)) []

def fieldSegments (field : Str × Json) : List Segment :=
  match field.2 with
  | .str value => if (strip value).isEmpty then [] else textSegments (fieldTag field.1) (htmlEscape value)
  | .arr items =>
    if (plainItems rt items).isEmpty then []
    else elementSegments "ul".toList "ul".toList [] ((plainItems rt items).flatMap (itemSegments rt))
  | _ => []

def titleSegments (block : ResumeBlock) : List Segment :=
  elementSegments "h2".toList "h2".toList (htmlEscape block.title) []

def sectionSegments (block : ResumeBlock) : List Segment :=
  elementSegments "section".toList "section".toList []
    (titleSegments block ++ block.content.flatMap (fieldSegments rt))

def columnSegments (column : ResumeColumn) : List Segment :=
  elementSegments columnTag "div".toList [] ((visibleBlocks document column).flatMap (sectionSegments rt))

def rowSegments (row : ResumeRow) : List Segment :=
  elementSegments (rowTag row) "div".toList [] (row.columns.flatMap (columnSegments rt document))

def bodySegments : List Segment :=
  document.pages.flatMap fun page => page.rows.flatMap (rowSegments rt document)

def headSegments : List Segment := [⟨"!doctype html".toList, []⟩, ⟨"html".toList, []⟩, ⟨"head".toList, []⟩,
  ⟨"meta charset=\"utf-8\"".toList, []⟩, ⟨"style".toList, styleSheet rt document⟩, ⟨"/style".toList, []⟩,
  ⟨"/head".toList, []⟩, ⟨"body".toList, []⟩]

def pageSegments : List Segment :=
  headSegments rt document ++ bodySegments rt document ++ [⟨"/body".toList, []⟩, ⟨"/html".toList, []⟩]

theorem itemSegments_print (item : Json) : printPage (itemSegments rt item) = itemHtml rt item := by
  rw [itemSegments, printPage_element, printPage_nil, List.append_nil]
  rfl

theorem fieldSegments_print (field : Str × Json) :
    printPage (fieldSegments rt field) = fieldHtml rt field := by
  unfold fieldSegments fieldHtml
  split
  · split
    · rfl
    · exact printPage_text _ _
  · split
    · rfl
    · rw [printPage_element, printPage_flatMap, List.nil_append]
      simp only [itemSegments_print]
  · rfl

theorem sectionSegments_print (block : ResumeBlock) :
    printPage (sectionSegments rt block) = sectionHtml rt block := by
  rw [sectionSegments, printPage_element, List.nil_append, printPage_append, titleSegments, printPage_element,
    printPage_nil, List.append_nil, printPage_flatMap]
  simp only [fieldSegments_print]
  rfl

theorem columnSegments_print (column : ResumeColumn) : printPage (columnSegments rt document column) =
    element columnTag "div".toList ((visibleBlocks document column).flatMap (sectionHtml rt)) := by
  rw [columnSegments, printPage_element, List.nil_append, printPage_flatMap]
  simp only [sectionSegments_print]

end Segments

theorem blockHtml_flatten (rt : Runtime) (document : ResumeDocument) (column : ResumeColumn) :
    (column.sectionIds.map fun id =>
      match findBlock document id with
      | some block => if block.visible then sectionHtml rt block else []
      | none => []).flatten = (visibleBlocks document column).flatMap (sectionHtml rt) := by
  rw [visibleBlocks, List.flatMap_assoc, ← List.flatMap_def]
  congr 1
  funext id
  split
  · split
    · simp
    · rfl
  · rfl

theorem columnHtml_accepted {rt : Runtime} {document : ResumeDocument} (passes : Passes document.checks)
    {page : ResumePage} {row : ResumeRow} (onPage : page ∈ document.pages) (onRow : row ∈ page.rows) :
    row.columns.mapM (columnHtml rt document) = some (row.columns.map fun column =>
      printPage (columnSegments rt document column)) := by
  apply mapM_total
  intro column inRow
  have sections : column.sectionIds.mapM (blockHtml rt document) = some (column.sectionIds.map fun id =>
      match findBlock document id with
      | some block => if block.visible then sectionHtml rt block else []
      | none => []) := by
    apply mapM_total
    intro id inColumn
    obtain ⟨block, found⟩ := findBlock_reference passes onPage onRow inRow inColumn
    simp [blockHtml, found]
  rw [columnHtml, sections, Option.map_some, blockHtml_flatten, columnSegments_print]

theorem htmlPage_print (rt : Runtime) (document : ResumeDocument) (rows : List Segment) :
    htmlPage rt document (printPage rows) =
      printPage (headSegments rt document ++ rows ++ [⟨"/body".toList, []⟩, ⟨"/html".toList, []⟩]) := by
  unfold htmlPage headSegments
  generalize styleSheet rt document = sheet
  have head : printPage [⟨"!doctype html".toList, []⟩, ⟨"html".toList, []⟩, ⟨"head".toList, []⟩,
      ⟨"meta charset=\"utf-8\"".toList, []⟩, ⟨"style".toList, sheet⟩, ⟨"/style".toList, []⟩,
        ⟨"/head".toList, []⟩,
      ⟨"body".toList, []⟩] = "<!doctype html><html><head><meta charset=\"utf-8\"><style>".toList ++ sheet ++
        "</style></head><body>".toList := by
    simp only [printPage_cons, printPage_nil, Segment.print]
    rfl
  have tail : printPage [⟨"/body".toList, []⟩, ⟨"/html".toList, []⟩] = "</body></html>".toList := rfl
  rw [printPage_append, printPage_append, head, tail]

theorem renderDocumentHtml_accepted {rt : Runtime} {document : ResumeDocument}
    (passes : Passes document.checks) :
    renderDocumentHtml rt document = some (printPage (pageSegments rt document)) := by
  have rows : (document.pages.mapM fun page => page.rows.mapM (rowHtml rt document)) =
      some (document.pages.map fun page => page.rows.map fun row =>
          printPage (rowSegments rt document row)) := by
    apply mapM_total
    intro page onPage
    apply mapM_total
    intro row onRow
    rw [rowHtml, columnHtml_accepted passes onPage onRow, Option.map_some, rowSegments, printPage_element,
      List.nil_append, printPage_flatMap, List.flatMap_def]
  have body : (document.pages.map fun page => page.rows.map fun row =>
    printPage (rowSegments rt document row)).flatten.flatten =
      printPage (bodySegments rt document) := by
    rw [bodySegments, printPage_flatMap, List.flatten_flatten, List.map_map, ← List.flatMap_def]
    congr 1
    funext page
    rw [printPage_flatMap, List.flatMap_def, Function.comp_apply]
  rw [renderDocumentHtml, rows, Option.map_some, body, htmlPage_print]
  rfl

end ManifestCV.Render
