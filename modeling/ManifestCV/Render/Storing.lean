import ManifestCV.Render.Preview

namespace ManifestCV.Render

open Foundation Document

inductive Shown where
  | text (heading : Bool) (value : Str)
  | list (texts : List Str)
  deriving DecidableEq

def fieldShown (rt : Runtime) (field : Str × Json) : List Shown :=
  match field.2 with
  | .str value => if (strip value).isEmpty then [] else [.text (headingKeys.contains field.1) value]
  | .arr items => if (plainItems rt items).isEmpty then [] else [.list ((plainItems rt items).map (str rt))]
  | _ => []

/-- The content as it is read back, with sorted keys, shows the same in the same order. -/
def KeepsShown (rt : Runtime) (block : ResumeBlock) : Prop :=
  block.canonical.content.flatMap (fieldShown rt) = block.content.flatMap (fieldShown rt)

def KeepsLines (rt : Runtime) (block : ResumeBlock) : Prop :=
  (block.canonical.content.flatMap fun field => contentLines rt field.2) = block.content.flatMap fun field =>
    contentLines rt field.2

def isFlat : Json → Bool
  | .arr items => items.all isPlainItem
  | _ => true

def RendersSame (rt : Runtime) (copy document : ResumeDocument) : Prop :=
  renderDocumentHtml rt copy = renderDocumentHtml rt document ∧ renderDocumentPdf rt copy =
    renderDocumentPdf rt document

def EachVisible (document : ResumeDocument) (good : ResumeBlock → Prop) : Prop :=
  ∀ block ∈ document.blocks, block.visible = true → good block

def Shown.segments : Shown → List Segment
  | .text heading value => textSegments (if heading then "h3".toList else "p".toList) (htmlEscape value)
  | .list texts => elementSegments "ul".toList "ul".toList []
      (texts.flatMap fun text => elementSegments "li".toList "li".toList (htmlEscape text) [])

def readShown : List Segment → List Str × List Shown
  | [] => ([], [])
  | segment :: segments =>
    let (texts, shown) := readShown segments
    if segment.tag = "li".toList then (unescape segment.text :: texts, shown)
    else if segment.tag = "ul".toList then ([], .list texts :: shown)
    else if segment.tag = "h3".toList then (texts, .text true (unescape segment.text) :: shown)
    else if segment.tag = "p".toList then (texts, .text false (unescape segment.text) :: shown)
    else (texts, shown)

section ReadBack

theorem readShown_closing {tag : Str}
    (closing : tag ∈ ["/li".toList, "/ul".toList, "/h3".toList, "/p".toList]) (text : Str)
    (segments : List Segment) : readShown (⟨tag, text⟩ :: segments) = readShown segments := by
  have other : ∀ tag ∈ ["/li".toList, "/ul".toList, "/h3".toList, "/p".toList],
      tag ≠ "li".toList ∧ tag ≠ "ul".toList ∧ tag ≠ "h3".toList ∧ tag ≠ "p".toList := by decide
  obtain ⟨li, ul, h3, p⟩ := other tag closing
  rw [readShown]
  simp only [li, ul, h3, p, if_false]

theorem readShown_li (text : Str) (segments : List Segment) : readShown (⟨"li".toList, text⟩ :: segments) =
    (unescape text :: (readShown segments).1, (readShown segments).2) := rfl

theorem readShown_ul (text : Str) (segments : List Segment) : readShown (⟨"ul".toList, text⟩ :: segments) =
    ([], .list (readShown segments).1 :: (readShown segments).2) := rfl

theorem readShown_h3 (text : Str) (segments : List Segment) : readShown (⟨"h3".toList, text⟩ :: segments) =
    ((readShown segments).1, .text true (unescape text) :: (readShown segments).2) := rfl

theorem readShown_p (text : Str) (segments : List Segment) : readShown (⟨"p".toList, text⟩ :: segments) =
    ((readShown segments).1, .text false (unescape text) :: (readShown segments).2) := rfl

theorem readShown_items (texts : List Str) (after : List Segment) :
    readShown ((texts.flatMap fun text => [⟨"li".toList, htmlEscape text⟩, ⟨"/li".toList, []⟩]) ++ after) =
      (texts ++ (readShown after).1, (readShown after).2) := by
  induction texts with
  | nil => rfl
  | cons text texts ih =>
    rw [List.flatMap_cons, List.append_assoc, List.cons_append, List.cons_append, List.nil_append,
      readShown_li, readShown_closing (by simp), ih, unescape_htmlEscape, List.cons_append]

theorem readShown_segments (shown : Shown) {after : List Segment} (starts : (readShown after).1 = []) :
    readShown ((joinBreaks shown.segments).2 ++ after) = ([], shown :: (readShown after).2) := by
  cases shown with
  | text heading value =>
    cases heading with
    | true =>
      rw [Shown.segments, if_pos rfl, joinBreaks_text (by decide), List.cons_append, List.cons_append,
        List.nil_append,
        readShown_h3]
      rw [readShown_closing (by decide), starts, unescape_htmlEscape]
    | false =>
      rw [Shown.segments, if_neg Bool.false_ne_true, joinBreaks_text (by decide), List.cons_append,
        List.cons_append,
        List.nil_append, readShown_p]
      rw [readShown_closing (by decide), starts, unescape_htmlEscape]
  | list texts =>
    have items : ∀ text ∈ texts, Starts (elementSegments "li".toList "li".toList (htmlEscape text) []) :=
      fun text _ => starts_element (by decide) _ _ _
    rw [Shown.segments, joinBreaks_element (by decide) _ _ (starts_flatMap items), joinBreaks_flatMap items]
    rw [List.flatMap_congr fun text _ => joined_item text]
    rw [List.append_assoc, List.cons_append, readShown_ul, readShown_items]
    show ([], Shown.list (texts ++ (readShown (⟨"/ul".toList, []⟩ :: after)).1) ::
      (readShown (⟨"/ul".toList, []⟩ :: after)).2) = _
    rw [readShown_closing (by simp), starts, List.append_nil]

theorem Shown.segments_starts (shown : Shown) : Starts shown.segments := by
  cases shown with
  | text heading value => cases heading <;> exact starts_element (by decide) _ _ _
  | list texts => exact starts_element (by decide) _ _ _

theorem readShown_all (list : List Shown) :
    readShown (joinBreaks (list.flatMap Shown.segments)).2 = ([], list) := by
  rw [joinBreaks_flatMap fun shown _ => shown.segments_starts]
  induction list with
  | nil => rfl
  | cons shown list ih => rw [List.flatMap_cons, readShown_segments shown (by rw [ih]), ih]

theorem segments_injective {first second : List Shown} :
    first.flatMap Shown.segments = second.flatMap Shown.segments ↔ first = second := by
  constructor
  · intro same
    have read := congrArg (fun segments => (readShown (joinBreaks segments).2).2) same
    simpa only [readShown_all] using read
  · rintro rfl
    rfl

theorem fieldSegments_shown (rt : Runtime) (field : Str × Json) :
    fieldSegments rt field = (fieldShown rt field).flatMap Shown.segments := by
  obtain ⟨key, value⟩ := field
  cases value with
  | str value =>
    simp only [fieldSegments, fieldShown]
    split
    · rfl
    · rw [List.flatMap_cons, List.flatMap_nil, List.append_nil, Shown.segments]
      rfl
  | arr items =>
    simp only [fieldSegments, fieldShown]
    split
    · rfl
    · rw [List.flatMap_cons, List.flatMap_nil, List.append_nil, Shown.segments, List.flatMap_map]
      rfl
  | _ => rfl

theorem content_segments (rt : Runtime) (content : Dict) :
    content.flatMap (fieldSegments rt) = (content.flatMap (fieldShown rt)).flatMap Shown.segments := by
  rw [List.flatMap_assoc]
  exact List.flatMap_congr fun field _ => fieldSegments_shown rt field

end ReadBack

section Layout

variable {ω : Type} {document other : ResumeDocument} (paper : other.paper = document.paper)
  (style : other.style.reloaded = document.style.reloaded)

include style in
theorem lineHeight_layout : lineHeight other = lineHeight document := by
  have same := congrArg (fun style => max 9 (Double.mul (Double.ofInt 11) style.spacing.toDouble).toInt) style
  exact same

include style in
theorem margin_layout : margin other = margin document := by
  have same := congrArg (fun style => (Double.mul style.margin (Double.ofInt 72)).toInt) style
  exact same

include paper in
theorem pageSize_layout : pageSize other = pageSize document := by
  rw [pageSize, pageSize, paper]

include style in
theorem columnDraws_layout (column : ω) (x y : Int) (lines : List Line) :
    columnDraws other column x y lines = columnDraws document column x y lines := by
  induction lines generalizing y with
  | nil => rfl
  | cons line lines ih => rw [columnDraws, columnDraws, ih, lineHeight_layout style]

include paper style in
theorem rowDraws_layout (width : ω → Double) (x y : Int) (columns : List (ω × List Line)) :
    rowDraws other width x y columns = rowDraws document width x y columns := by
  induction columns generalizing x with
  | nil => rfl
  | cons column columns ih =>
    have same : columnWidth other width column.1 = columnWidth document width column.1 := by
      rw [columnWidth, columnWidth, pageSize_layout paper, margin_layout style]
    rw [rowDraws, rowDraws, ih, columnDraws_layout style, same]

include paper style in
theorem rowsDraws_layout (width : ω → Double) (y : Int) (rows : List (PageRow ω)) :
    rowsDraws other width y rows = rowsDraws document width y rows := by
  induction rows generalizing y with
  | nil => rfl
  | cons row rows ih =>
    rw [rowsDraws, rowsDraws, ih, rowDraws_layout paper style, margin_layout style, lineHeight_layout style]

include style in
theorem fontResource_layout : fontResource other = fontResource document := by
  have same := congrArg ResumeStyle.fontFamily style
  have family : other.style.fontFamily = document.style.fontFamily := same
  rw [fontResource, fontResource, fontName, fontName, family]

include style in
theorem drawCommands_layout : drawCommands other = drawCommands document := by
  have accents := congrArg ResumeStyle.accentColor style
  have texts := congrArg ResumeStyle.textColor style
  have accent : other.style.accentColor = document.style.accentColor := accents
  have text : other.style.textColor = document.style.textColor := texts
  funext draw
  rw [drawCommands, drawCommands, accent, text]

include paper style in
theorem pageStream_layout (rows : List (PageRow Double)) :
    pageStream other rows = pageStream document rows := by
  have draws : pageDraws other id rows = pageDraws document id rows := by
    rw [pageDraws, pageDraws, rowsDraws_layout paper style, pageSize_layout paper, margin_layout style]
  have sizes := congrArg (fun style => style.fontSize.toDouble) style
  have size : other.style.fontSize.toDouble = document.style.fontSize.toDouble := sizes
  rw [pageStream, pageStream, pageCommands, pageCommands, draws, fontResource_layout style,
    drawCommands_layout style, size]

end Layout

section Copy

variable (rt : Runtime)

theorem isPlainItem_normalize (item : Json) : isPlainItem item.normalize = isPlainItem item := by
  cases item <;> rfl

theorem normalize_plain {item : Json} (plain : isPlainItem item = true) : item.normalize = item := by
  cases item with
  | null => rfl
  | arr items => cases plain
  | obj fields => cases plain
  | _ => rfl

theorem plainItems_normalize (items : List Json) :
    plainItems rt (items.map Json.normalize) = plainItems rt items := by
  induction items with
  | nil => rfl
  | cons item items ih =>
    simp only [plainItems, List.map_cons, List.filter_cons, isPlainItem_normalize] at ih ⊢
    cases plain : isPlainItem item with
    | true => rw [normalize_plain plain, ih]
    | false =>
      simp only [Bool.false_and, Bool.false_eq_true, if_false]
      exact ih

theorem fieldShown_normalize (field : Str × Json) :
    fieldShown rt (field.1, field.2.normalize) = fieldShown rt field := by
  obtain ⟨key, value⟩ := field
  cases value with
  | arr items => simp only [fieldShown, Json.normalize, Json.normalizeItems_eq, plainItems_normalize]
  | _ => rfl

theorem content_length (block : ResumeBlock) :
    (block.canonical.content.flatMap (fieldSegments rt)).length =
    (block.content.flatMap (fieldSegments rt)).length := by
  have sorted := ((sortKeys_perm (Json.normalizeFields block.content)).flatMap_right
    (fieldSegments rt)).length_eq
  have same : (Json.normalizeFields block.content).flatMap (fieldSegments rt) = block.content.flatMap
      (fieldSegments rt) := by
    rw [Json.normalizeFields_eq, List.flatMap_map]
    apply List.flatMap_congr
    intro field _
    rw [fieldSegments_shown, fieldSegments_shown, fieldShown_normalize]
  rw [same] at sorted
  exact sorted

theorem elementSegments_length (tag name text : Str) (inner : List Segment) :
    (elementSegments tag name text inner).length = inner.length + 2 := by
  simp [elementSegments]

theorem elementSegments_inj {tag name text : Str} {inner other : List Segment} :
    elementSegments tag name text inner = elementSegments tag name text other ↔ inner = other := by
  simp [elementSegments]

theorem sectionSegments_length (block : ResumeBlock) :
    (sectionSegments rt block.canonical).length = (sectionSegments rt block).length := by
  rw [sectionSegments, sectionSegments, elementSegments_length, elementSegments_length, List.length_append,
    List.length_append, content_length]
  rfl

theorem sectionSegments_kept (block : ResumeBlock) :
    sectionSegments rt block.canonical = sectionSegments rt block ↔ KeepsShown rt block := by
  have title : titleSegments block.canonical = titleSegments block := rfl
  rw [sectionSegments, sectionSegments, elementSegments_inj, title, List.append_cancel_left_eq,
    content_segments, content_segments, segments_injective]
  rfl

variable (document : ResumeDocument)

theorem visibleBlocks_canonical (column : ResumeColumn) :
    visibleBlocks document.canonical column = (visibleBlocks document column).map (·.canonical) :=
  @visibleBlocks_map document (·.canonical) (fun _ => rfl) (fun _ => rfl) column

theorem columnSegments_length (column : ResumeColumn) :
    (columnSegments rt document.canonical column).length = (columnSegments rt document column).length := by
  rw [columnSegments, columnSegments, elementSegments_length, elementSegments_length, visibleBlocks_canonical,
    List.flatMap_map]
  refine congrArg (· + 2) (Nat.le_antisymm ?_ ?_)
  · exact length_flatMap_le fun block _ => (sectionSegments_length rt block).le
  · exact length_flatMap_le fun block _ => (sectionSegments_length rt block).ge

theorem columnSegments_kept (column : ResumeColumn) :
    columnSegments rt document.canonical column = columnSegments rt document column ↔
      ∀ block ∈ visibleBlocks document column, KeepsShown rt block := by
  rw [columnSegments, columnSegments, elementSegments_inj, visibleBlocks_canonical, List.flatMap_map,
    flatMap_eq_iff fun block _ => (sectionSegments_length rt block).le]
  simp only [sectionSegments_kept]

theorem rowSegments_length (row : ResumeRow) :
    (rowSegments rt document.canonical row).length = (rowSegments rt document row).length := by
  rw [rowSegments, rowSegments, elementSegments_length, elementSegments_length]
  refine congrArg (· + 2) (Nat.le_antisymm ?_ ?_)
  · exact length_flatMap_le fun column _ => (columnSegments_length rt document column).le
  · exact length_flatMap_le fun column _ => (columnSegments_length rt document column).ge

theorem bodySegments_kept : bodySegments rt document.canonical = bodySegments rt document ↔
    ∀ page ∈ document.pages, ∀ row ∈ page.rows, ∀ column ∈ row.columns,
      ∀ block ∈ visibleBlocks document column,
      KeepsShown rt block := by
  have pages : document.canonical.pages = document.pages := rfl
  rw [bodySegments, bodySegments, pages,
    flatMap_eq_iff fun page _ => length_flatMap_le fun row _ => (rowSegments_length rt document row).le]
  refine forall_congr' fun page => forall_congr' fun _ => ?_
  rw [flatMap_eq_iff fun row _ => (rowSegments_length rt document row).le]
  refine forall_congr' fun row => forall_congr' fun _ => ?_
  rw [rowSegments, rowSegments, elementSegments_inj, flatMap_eq_iff fun column _ =>
    (columnSegments_length rt document column).le]
  simp only [columnSegments_kept]

theorem canonical_valid {rt : Runtime} {document : ResumeDocument} (valid : document.Valid rt) :
    document.canonical.Valid rt := by
  refine ⟨ResumeDocument.sorted_checks valid.checks, valid.pages, ?_, valid.style⟩
  intro block member
  obtain ⟨original, inside, rfl⟩ := List.mem_map.mp member
  exact ResumeBlock.canonical_checks (valid.blocks original inside)

theorem printPage_injective {first second : List Segment} (some_first : first ≠ [])
    (some_second : second ≠ []) (cutFirst : ∀ segment ∈ first, segment.Unmarked)
    (cutSecond : ∀ segment ∈ second, segment.Unmarked) :
    printPage first = printPage second ↔ first = second := by
  constructor
  · intro same
    have segments := congrArg cut same
    rw [cut_printPage some_first cutFirst, cut_printPage some_second cutSecond] at segments
    exact Option.some.inj segments
  · exact congrArg printPage

theorem pageSegments_ne_nil : pageSegments rt document ≠ [] := by
  simp [pageSegments]

theorem numbers_cancel {first second rest other : Str} (number : ∀ c ∈ first, isNumberChar c = true)
    (number' : ∀ c ∈ second, isNumberChar c = true) (ends : EndsNumber rest) (ends' : EndsNumber other) :
    first ++ rest = second ++ other ↔ first = second ∧ rest = other := by
  constructor
  · intro same
    obtain ⟨taken, dropped⟩ := takeWhile_token number ends
    obtain ⟨taken', dropped'⟩ := takeWhile_token number' ends'
    rw [same] at taken dropped
    exact ⟨taken.symm.trans taken', dropped.symm.trans dropped'⟩
  · rintro ⟨rfl, rfl⟩
    rfl

theorem styleSheet_numbers : ∃ before middle after : Str,
    (∀ rest, EndsNumber (middle ++ rest)) ∧ EndsNumber after ∧
    ∀ size spacing : Number, spacing.toDouble = document.style.spacing.toDouble →
      styleSheet rt { document with style := { document.style with fontSize := size, spacing := spacing } } =
        before ++ (numberText rt size ++ (middle ++ (numberText rt spacing ++ after))) := by
  have shape : ∀ before size m₁ m₂ m₃ m₄ spacing a₁ a₂ a₃ : Str,
      before ++ size ++ m₁ ++ m₂ ++ m₃ ++ m₄ ++ spacing ++ a₁ ++ a₂ ++ a₃ =
        before ++ (size ++ ((m₁ ++ (m₂ ++ m₃ ++ m₄)) ++ (spacing ++ (a₁ ++ (a₂ ++ a₃))))) := by
    intros
    simp only [List.append_assoc]
  apply Exists.intro
  apply Exists.intro
  apply Exists.intro
  refine ⟨?middle, ?after, fun size spacing same => ?sheet⟩
  case sheet =>
    unfold styleSheet
    dsimp only
    rw [same]
    exact shape _ _ _ _ _ _ _ _ _ _
  case middle =>
    intro rest
    exact @endsNumber_cons 'p' _ (by decide)
  case after => exact @endsNumber_cons 'r' _ (by decide)

/-- The style sheet of the copy is the same exactly if both numbers of the style were given. -/
theorem styleSheet_kept : styleSheet rt document.canonical = styleSheet rt document ↔
    document.style.Given := by
  obtain ⟨before, middle, after, endsMiddle, endsAfter, sheet⟩ := styleSheet_numbers rt document
  have copy : styleSheet rt document.canonical = _ :=
    sheet (.float document.style.fontSize.toDouble) (.float document.style.spacing.toDouble) rfl
  have own : styleSheet rt document = _ := sheet document.style.fontSize document.style.spacing rfl
  have chars := numberText_chars rt
  rw [copy, own, List.append_cancel_left_eq, numbers_cancel (chars _) (chars _) (endsMiddle _) (endsMiddle _),
    List.append_cancel_left_eq, numbers_cancel (chars _) (chars _) endsAfter endsAfter, numberText_float,
    numberText_float, and_iff_left rfl]
  rfl

theorem headSegments_length :
    (headSegments rt document.canonical).length = (headSegments rt document).length := by
  unfold headSegments
  generalize styleSheet rt document.canonical = sheet
  generalize styleSheet rt document = own
  rfl

theorem pageSegments_kept : pageSegments rt document.canonical = pageSegments rt document ↔
    document.style.Given ∧ bodySegments rt document.canonical = bodySegments rt document := by
  have head : headSegments rt document.canonical = headSegments rt document ↔ document.style.Given := by
    rw [← styleSheet_kept rt document]
    unfold headSegments
    generalize styleSheet rt document.canonical = sheet
    generalize styleSheet rt document = own
    simp only [List.cons.injEq, Segment.mk.injEq, true_and, and_true]
  rw [pageSegments, pageSegments, List.append_cancel_right_eq, ← head]
  constructor
  · exact fun same => List.append_inj same (headSegments_length rt document)
  · rintro ⟨same, body⟩
    rw [same, body]

theorem html_kept {rt : Runtime} {document : ResumeDocument} (valid : document.Valid rt) :
    renderDocumentHtml rt document.canonical = renderDocumentHtml rt document ↔
      document.style.Given ∧ EachVisible document (KeepsShown rt) := by
  have copied := canonical_valid valid
  have same := printPage_injective (pageSegments_ne_nil rt document.canonical)
    (pageSegments_ne_nil rt document)
    (fun segment member => (pageSegments_template copied.style segment member).unmarked)
    (fun segment member => (pageSegments_template valid.style segment member).unmarked)
  rw [renderDocumentHtml_accepted valid.checks, renderDocumentHtml_accepted copied.checks,
    Option.some.injEq, same, pageSegments_kept, bodySegments_kept]
  exact and_congr_right fun _ => forall_visible valid.checks

theorem blockLines_kept {rt : Runtime} {block : ResumeBlock} (kept : KeepsLines rt block) (width : Nat) :
    blockLines rt block.canonical width = blockLines rt block width := by
  have lines : unwrappedLines rt block.canonical = unwrappedLines rt block := by
    have title : block.canonical.title = block.title := rfl
    rw [unwrappedLines, unwrappedLines, title, kept]
  rw [blockLines_unwrapped, blockLines_unwrapped, lines]

theorem pdf_kept {rt : Runtime} {document : ResumeDocument} (valid : document.Valid rt)
    (kept : EachVisible document (KeepsLines rt)) :
    renderDocumentPdf rt document.canonical = renderDocumentPdf rt document := by
  have lines : ∀ page ∈ document.pages, ∀ row ∈ page.rows, ∀ column ∈ row.columns,
      visibleLines rt document.canonical column = visibleLines rt document column := by
    intro page onPage row onRow column inRow
    rw [visibleLines_blocks, visibleLines_blocks, visibleBlocks_canonical, List.flatMap_map]
    apply List.flatMap_congr
    intro block member
    exact blockLines_kept ((forall_visible valid.checks).mpr kept page onPage row onRow column
      inRow block member) _
  have sources : sourcesOf rt document.canonical = sourcesOf rt document := by
    apply List.map_congr_left
    intro page onPage
    apply List.map_congr_left
    intro row onRow
    refine congrArg PageRow.mk (List.map_congr_left fun column inRow => ?_)
    exact congrArg (column.width, ·) (lines page onPage row onRow column inRow)
  have available : availableLines document.canonical (pageSize document.canonical).2 =
      availableLines document (pageSize document).2 := rfl
  have paper : document.canonical.paper = document.paper := rfl
  have style : document.canonical.style.reloaded = document.style.reloaded := rfl
  have stream : pageStream document.canonical = pageStream document := funext (pageStream_layout paper style)
  have objects : renderObjects document.canonical = renderObjects document := rfl
  have pages : placedPages rt document.canonical = placedPages rt document := by
    rw [placedPages, placedPages, sources, available]
  rw [renderDocumentPdf, renderDocumentPdf, pageStreams_accepted valid,
    pageStreams_accepted (canonical_valid valid), pages, stream, objects]

def Shown.lines : Shown → List Line
  | .text _ value => (shownRuns isLineBreak value).map fun text => { text }
  | .list texts => texts.map fun text => { text := "- ".toList ++ text }

theorem contentLines_shown {field : Str × Json} (flat : isFlat field.2 = true) :
    contentLines rt field.2 = (fieldShown rt field).flatMap Shown.lines := by
  obtain ⟨key, value⟩ := field
  cases value with
  | str value =>
    simp only [fieldShown, contentLines_str, strip_isEmpty]
    by_cases blank : isBlank value = true
    · rw [if_pos blank, shownRuns_blank blank]
      rfl
    · rw [if_neg blank]
      exact (List.append_nil _).symm
  | arr items =>
    have all : plainItems rt items = items.filter fun item => !(strip (str rt item)).isEmpty := by
      apply List.filter_congr
      intro item member
      rw [List.all_eq_true.mp flat item member, Bool.true_and]
    simp only [fieldShown]
    rw [contentLines, ← all]
    split
    · rename_i none
      rw [List.isEmpty_iff.mp none]
      rfl
    · rw [List.flatMap_cons, List.flatMap_nil, List.append_nil, Shown.lines, List.map_map]
      rfl
  | _ => rfl

theorem isFlat_normalize {value : Json} (flat : isFlat value = true) : isFlat value.normalize = true := by
  cases value with
  | arr items =>
    simp only [isFlat, Json.normalize, Json.normalizeItems_eq, List.all_map, List.all_eq_true,
      Function.comp_apply, isPlainItem_normalize] at flat ⊢
    exact flat
  | obj fields => rfl
  | _ => rfl

theorem keepsLines_flat {block : ResumeBlock} (flat : ∀ field ∈ block.content, isFlat field.2 = true)
    (kept : KeepsShown rt block) : KeepsLines rt block := by
  have flatCopy : ∀ field ∈ block.canonical.content, isFlat field.2 = true := by
    intro field member
    have inside : field ∈ Json.normalizeFields block.content := mem_sortKeys.mp member
    rw [Json.normalizeFields_eq] at inside
    obtain ⟨original, there, rfl⟩ := List.mem_map.mp inside
    exact isFlat_normalize (flat original there)
  unfold KeepsLines
  rw [List.flatMap_congr fun field member => contentLines_shown rt (flatCopy field member),
    List.flatMap_congr fun field member => contentLines_shown rt (flat field member), ← List.flatMap_assoc,
    ← List.flatMap_assoc, kept]

end Copy

/-- The copy that is stored and read back previews like the document exactly when the style's numbers are no
    defaults and its sorted keys show each visible content in the same order, and prints like it when they
    also print it in the same order. -/
theorem stored_renders_same (rt : Runtime) (document : ResumeDocument) (accepted : Accepted rt document) :
    ∃ copy, readDocument rt (storedText rt document) = some copy ∧
      (renderDocumentHtml rt copy = renderDocumentHtml rt document ↔
        document.style.Given ∧ EachVisible document (KeepsShown rt)) ∧
      (EachVisible document (KeepsLines rt) → renderDocumentPdf rt copy = renderDocumentPdf rt document) ∧
      (EachVisible document (fun block => ∀ field ∈ block.content, isFlat field.2 = true) →
        (RendersSame rt copy document ↔ document.style.Given ∧ EachVisible document (KeepsShown rt))) := by
  obtain ⟨payload, keyed, parsed⟩ := accepted
  obtain ⟨valid, blocks⟩ := validateDocument_sound keyed parsed
  refine ⟨document.canonical, readDocument_stored valid blocks, html_kept valid, pdf_kept valid, fun flat =>
    ?_⟩
  constructor
  · exact fun same => (html_kept valid).mp same.1
  · rintro ⟨given, kept⟩
    refine ⟨(html_kept valid).mpr ⟨given, kept⟩, pdf_kept valid fun block member visible => ?_⟩
    exact keepsLines_flat rt (flat block member visible) (kept block member visible)

theorem stored_renders_same_onePager : ∃ copy,
    readDocument plainRuntime (storedText plainRuntime (onePager "Engineer".toList)) = some copy ∧
      (renderDocumentHtml plainRuntime copy = renderDocumentHtml plainRuntime (onePager "Engineer".toList) ↔
        (onePager "Engineer".toList).style.Given ∧ EachVisible (onePager "Engineer".toList)
    (KeepsShown plainRuntime)) ∧
      (EachVisible (onePager "Engineer".toList) (KeepsLines plainRuntime) →
        renderDocumentPdf plainRuntime copy = renderDocumentPdf plainRuntime (onePager "Engineer".toList)) ∧
      (EachVisible (onePager "Engineer".toList) (fun block => ∀ field ∈ block.content,
        isFlat field.2 = true) →
        (RendersSame plainRuntime copy (onePager "Engineer".toList) ↔
          (onePager "Engineer".toList).style.Given ∧ EachVisible (onePager "Engineer".toList)
              (KeepsShown plainRuntime))) :=
  stored_renders_same plainRuntime _ onePager_accepted

def textFirst : ResumeDocument :=
  onePagerWith .skills "Skills".toList [("text".toList, .str "Engines".toList),
    ("bullets".toList, .arr [.str "Looms".toList])]

theorem textFirst_wellKeyed : ∀ block ∈ textFirst.blocks, block.WellKeyed := by
  intro block member
  rw [List.mem_singleton.mp member]
  have keys : ["text".toList, "bullets".toList].Nodup := by decide
  exact ⟨⟨keys, trivial, ⟨trivial, trivial⟩, trivial⟩, List.nodup_nil⟩

def unstyled : ResumeDocument := { onePager "Engineer".toList with style := defaultStyle }

theorem unstyled_valid : unstyled.Valid plainRuntime :=
  ⟨onePager_valid.checks, onePager_valid.pages, onePager_valid.blocks, defaultStyle_checks⟩

theorem unstyled_accepted : Accepted plainRuntime unstyled := by
  refine ⟨.obj [("pages".toList, .arr (unstyled.pages.map dumpPage)),
    ("blocks".toList, .arr (unstyled.blocks.map dumpBlock))], ?_, ?_⟩
  · have names : ["pages".toList, "blocks".toList].Nodup := by decide
    exact ⟨names, arr_wellKeyed fun page _ => dumpPage_wellKeyed page,
      arr_wellKeyed fun block member => dumpBlock_wellKeyed (onePager_wellKeyed _ block member), trivial⟩
  · refine bind_ok.mpr ⟨_, rfl, ?_⟩
    refine bind_ok.mpr ⟨(), rfl, ?_⟩
    refine bind_ok.mpr ⟨.a4, rfl, ?_⟩
    refine bind_ok.mpr ⟨_, traverse_map fun page member =>
      validatePage_dump (unstyled_valid.pages page member), ?_⟩
    refine bind_ok.mpr ⟨_, traverse_map fun block member =>
      validateBlock_dump (unstyled_valid.blocks block member), ?_⟩
    refine bind_ok.mpr ⟨defaultStyle, rfl, ?_⟩
    exact passing_ok.mpr ⟨unstyled_valid.checks, rfl⟩

/-- The text moves behind the bullets in both outputs, and the default sizes `10pt` and `1rem` become `10.0pt`
    and `1.0rem`. -/
theorem stored_reordered : (Accepted plainRuntime textFirst ∧
    ∃ copy, readDocument plainRuntime (storedText plainRuntime textFirst) = some copy ∧
      renderDocumentHtml plainRuntime copy ≠ renderDocumentHtml plainRuntime textFirst ∧
      renderDocumentPdf plainRuntime copy ≠ renderDocumentPdf plainRuntime textFirst) ∧
    Accepted plainRuntime unstyled ∧ ∃ copy, readDocument plainRuntime (storedText plainRuntime unstyled) =
      some copy ∧
      renderDocumentHtml plainRuntime copy ≠ renderDocumentHtml plainRuntime unstyled := by
  have valid : textFirst.Valid plainRuntime := onePagerWith_valid rfl rfl
  refine ⟨⟨accepted_of_valid valid textFirst_wellKeyed rfl, textFirst.canonical,
    readDocument_stored valid textFirst_wellKeyed, ?_, ?_⟩, unstyled_accepted, unstyled.canonical,
    readDocument_stored unstyled_valid (onePager_wellKeyed _), ?_⟩
  · decide +kernel
  · decide +kernel
  · intro same
    cases ((html_kept unstyled_valid).mp same).1.1

end ManifestCV.Render
