import ManifestCV.Render.Html

namespace ManifestCV.Render

open Foundation Document

def voidTags : List Str := ["!doctype".toList, "meta".toList, "br".toList]

def fixedTags : List Str :=
  ["!doctype html".toList, "html".toList, "head".toList, "meta charset=\"utf-8\"".toList,
  "style".toList, "/style".toList, "/head".toList, "body".toList, "/body".toList, "/html".toList,
    "/div".toList,
  "section".toList, "/section".toList, "h2".toList, "/h2".toList, "h3".toList, "/h3".toList,
    "p".toList, "/p".toList,
  "ul".toList, "/ul".toList, "li".toList, "/li".toList, lineBreak, columnTag]

def isWidthChar (c : Char) : Bool := c.isDigit || c = '.' || c = '%' || c = ' '

def IsRowTag (tag : Str) : Prop :=
  ∃ widths : Str, (∀ c ∈ widths, isWidthChar c = true) ∧
    tag = "div class=\"row\" style=\"grid-template-columns:".toList ++ widths ++ ['"']

def IsTemplateTag (tag : Str) : Prop := tag ∈ fixedTags ∨ IsRowTag tag

def Segment.shown (segment : Segment) : List Str :=
  if segment.tag = "style".toList ∨ segment.text = [] then [] else [unescape segment.text]

def readTexts (segments : List Segment) : List Str := (joinBreaks segments).2.flatMap Segment.shown

def fieldTexts (rt : Runtime) (field : Str × Json) : List Str :=
  match field.2 with
  | .str value => if (strip value).isEmpty then [] else [value]
  | .arr items => (plainItems rt items).map (str rt)
  | _ => []

def blockTexts (rt : Runtime) (block : ResumeBlock) : List Str :=
  block.title :: block.content.flatMap (fieldTexts rt)

def visibleTexts (rt : Runtime) (document : ResumeDocument) : List Str :=
  document.pages.flatMap fun page => page.rows.flatMap fun row => row.columns.flatMap fun column =>
    (visibleBlocks document column).flatMap (blockTexts rt)

structure ReadsBack (rt : Runtime) (document : ResumeDocument) (segments : List Segment) : Prop where
  tags : ∀ segment ∈ segments, IsTemplateTag segment.tag
  nested : openTags voidTags [] segments = some []
  texts : readTexts segments = visibleTexts rt document

def Template (segment : Segment) : Prop := IsTemplateTag segment.tag ∧ Unmarked segment.text

theorem isWidthChar_bracket {c : Char} (width : isWidthChar c = true) : isBracket c = false := by
  rw [isBracket_false]
  constructor
  · rintro rfl
    exact absurd width (by decide)
  · rintro rfl
    exact absurd width (by decide)

theorem IsTemplateTag.unmarked {tag : Str} (template : IsTemplateTag tag) : Unmarked tag := by
  rcases template with fixed | ⟨widths, chars, rfl⟩
  · have all : ∀ tag ∈ fixedTags, Unmarked tag := by decide
    exact all tag fixed
  · refine Unmarked.append (Unmarked.append ?_ fun c member => isWidthChar_bracket (chars c member)) ?_
    · decide
    · decide

theorem Template.unmarked {segment : Segment} (template : Template segment) : segment.Unmarked :=
  ⟨template.1.unmarked, template.2⟩

theorem template_element {tag name text : Str} {inner : List Segment} (opening : IsTemplateTag tag)
    (closing : IsTemplateTag ('/' :: name)) (plain : Unmarked text)
    (each : ∀ segment ∈ inner, Template segment) :
    ∀ segment ∈ elementSegments tag name text inner, Template segment := by
  intro segment member
  rcases List.mem_append.mp member with member | member
  · rcases List.mem_cons.mp member with rfl | member
    · exact ⟨opening, plain⟩
    · exact each segment member
  · rw [List.mem_singleton.mp member]
    exact ⟨closing, unmarked_nil⟩

theorem template_text {tag : Str} (opening : IsTemplateTag tag) (closing : IsTemplateTag ('/' :: tag))
    (value : Str) :
    ∀ segment ∈ textSegments tag (htmlEscape value), Template segment := by
  have unmarked := unmarked_text opening.unmarked (htmlEscape_unmarked value)
  intro segment member
  refine ⟨?_, (unmarked segment member).2⟩
  rcases List.mem_append.mp member with member | member
  · rcases List.mem_cons.mp member with rfl | member
    · exact opening
    · obtain ⟨line, _, rfl⟩ := List.mem_map.mp member
      have fixed : lineBreak ∈ fixedTags := by decide
      exact .inl fixed
  · rw [List.mem_singleton.mp member]
    exact closing

theorem forall_mem_flatMap {α β : Type} {f : α → List β} {items : List α} {good : β → Prop}
    (each : ∀ item ∈ items, ∀ b ∈ f item, good b) : ∀ b ∈ items.flatMap f, good b := by
  intro b member
  obtain ⟨item, inside, member⟩ := List.mem_flatMap.mp member
  exact each item inside b member

theorem fieldTag_cases (key : Str) : fieldTag key = "h3".toList ∨ fieldTag key = "p".toList := by
  unfold fieldTag
  split
  · exact .inl rfl
  · exact .inr rfl

theorem fixed_chars (places : Nat) (x : Double) : ∀ c ∈ fixed places x, isWidthChar c = true := by
  intro c member
  have digit : c.isDigit = true → isWidthChar c = true := fun digit => by simp [isWidthChar, digit]
  unfold fixed at member
  simp only [List.mem_append, List.mem_cons] at member
  rcases member with (whole | rfl | zeros) | rest
  · exact digit (decimal_digits _ c whole)
  · rfl
  · rw [List.eq_of_mem_replicate zeros]
    rfl
  · exact digit (decimal_digits _ c rest)

theorem columnWidths_chars (row : ResumeRow) : ∀ c ∈ columnWidths row, isWidthChar c = true := by
  unfold columnWidths
  cases row.columns with
  | nil => exact fun c member => nomatch member
  | cons first rest =>
    have one : ∀ column : ResumeColumn, ∀ c ∈ fixed 2 (Double.mul column.width (Double.ofInt 100)) ++ ['%'],
        isWidthChar c = true := by
      intro column
      refine List.forall_mem_append.mpr ⟨fixed_chars _ _, ?_⟩
      intro c member
      rw [List.mem_singleton.mp member]
      rfl
    rw [List.map_cons, joinWith_cons]
    refine List.forall_mem_append.mpr ⟨one first, forall_mem_flatMap fun text member => ?_⟩
    obtain ⟨column, _, rfl⟩ := List.mem_map.mp member
    refine List.forall_mem_append.mpr ⟨?_, one column⟩
    intro c member
    rw [List.mem_singleton.mp member]
    rfl

theorem numberChars_unmarked {text : Str} (chars : ∀ c ∈ text, isNumberChar c = true) : Unmarked text := by
  intro c member
  have number := chars c member
  rw [isBracket_false]
  constructor
  · rintro rfl
    exact absurd number (by decide)
  · rintro rfl
    exact absurd number (by decide)

theorem isColor_unmarked {text : Str} (color : isColor text = true) : Unmarked text := by
  unfold isColor at color
  split at color
  · rename_i digits
    simp only [Bool.and_eq_true, List.all_eq_true] at color
    refine Unmarked.cons (by decide) ?_
    intro c member
    have hex := color.2 c member
    rw [isBracket_false]
    constructor
    · rintro rfl
      exact absurd hex (by decide)
    · rintro rfl
      exact absurd hex (by decide)
  · cases color

theorem style_colors {document : ResumeDocument} (passes : Passes document.style.checks) :
    isColor document.style.accentColor = true ∧ isColor document.style.textColor = true := by
  constructor
  · exact passes (isColor document.style.accentColor, .field "accent_color".toList)
      (by simp only [ResumeStyle.checks, List.mem_cons]; tauto)
  · exact passes (isColor document.style.textColor, .field "text_color".toList)
      (by simp only [ResumeStyle.checks, List.mem_cons]; tauto)

theorem paper_unmarked (size : Paper) : Unmarked (paper.text size) := by
  cases size <;> decide

theorem cssFont_unmarked (family : FontFamily) : Unmarked (cssFont family) := by
  cases family <;> decide

set_option maxRecDepth 20000 in
theorem styleSheet_unmarked {rt : Runtime} {document : ResumeDocument}
    (passes : Passes document.style.checks) :
    Unmarked (styleSheet rt document) := by
  obtain ⟨accent, text⟩ := style_colors passes
  have literal : ∀ {s : Str}, (s.all fun c => !isBracket c) = true → Unmarked s := by
    intro s all c member
    simpa using List.all_eq_true.mp all c member
  unfold styleSheet
  refine Unmarked.append ?_ (literal (by decide))
  refine Unmarked.append ?_ (isColor_unmarked accent)
  refine Unmarked.append ?_ (literal (by decide))
  refine Unmarked.append ?_ (numberChars_unmarked (numberText_chars rt _))
  refine Unmarked.append ?_ (literal (by decide))
  refine Unmarked.append ?_ (literal (by decide))
  refine Unmarked.append ?_ (numberChars_unmarked (rt.floats.repr_chars _))
  refine Unmarked.append ?_ (literal (by decide))
  refine Unmarked.append ?_ (numberChars_unmarked (numberText_chars rt _))
  refine Unmarked.append ?_ (literal (by decide))
  refine Unmarked.append ?_ (cssFont_unmarked _)
  refine Unmarked.append ?_ (literal (by decide))
  refine Unmarked.append ?_ (isColor_unmarked text)
  refine Unmarked.append ?_ (literal (by decide))
  refine Unmarked.append ?_ (literal (by decide))
  refine Unmarked.append ?_ (numberChars_unmarked (rt.floats.repr_chars _))
  refine Unmarked.append ?_ (literal (by decide))
  exact Unmarked.append (literal (by decide)) (paper_unmarked _)

theorem itemSegments_template (rt : Runtime) (item : Json) :
    ∀ segment ∈ itemSegments rt item, Template segment :=
  template_element (.inl (by decide)) (.inl (by decide)) (htmlEscape_unmarked _) fun _ member =>
    nomatch member

theorem fieldSegments_template (rt : Runtime) (field : Str × Json) :
    ∀ segment ∈ fieldSegments rt field, Template segment := by
  unfold fieldSegments
  split
  · split
    · exact fun _ member => nomatch member
    · rcases fieldTag_cases field.1 with same | same
      · rw [same]
        exact template_text (.inl (by decide)) (.inl (by decide)) _
      · rw [same]
        exact template_text (.inl (by decide)) (.inl (by decide)) _
  · split
    · exact fun _ member => nomatch member
    · exact template_element (.inl (by decide)) (.inl (by decide)) unmarked_nil
        (forall_mem_flatMap fun item _ => itemSegments_template rt item)
  · exact fun _ member => nomatch member

theorem sectionSegments_template (rt : Runtime) (block : ResumeBlock) :
    ∀ segment ∈ sectionSegments rt block, Template segment := by
  have title : ∀ segment ∈ titleSegments block, Template segment :=
    template_element (.inl (by decide)) (.inl (by decide)) (htmlEscape_unmarked _) fun _ member =>
      nomatch member
  exact template_element (.inl (by decide)) (.inl (by decide)) unmarked_nil
    (List.forall_mem_append.mpr ⟨title, forall_mem_flatMap fun field _ => fieldSegments_template rt field⟩)

theorem rowSegments_template (rt : Runtime) (document : ResumeDocument) (row : ResumeRow) :
    ∀ segment ∈ rowSegments rt document row, Template segment := by
  have columns : ∀ column : ResumeColumn, ∀ segment ∈ columnSegments rt document column,
      Template segment := by
    intro column
    exact template_element (.inl (by decide)) (.inl (by decide)) unmarked_nil
      (forall_mem_flatMap fun block _ => sectionSegments_template rt block)
  exact template_element (.inr ⟨_, columnWidths_chars row, rfl⟩) (.inl (by decide)) unmarked_nil
    (forall_mem_flatMap fun column _ => columns column)

theorem pageSegments_template {rt : Runtime} {document : ResumeDocument}
    (passes : Passes document.style.checks) :
    ∀ segment ∈ pageSegments rt document, Template segment := by
  have known : ∀ tag ∈ ["!doctype html", "html", "head", "meta charset=\"utf-8\"", "style", "/style",
    "/head", "body", "/body",
      "/html"].map String.toList, IsTemplateTag tag := by
    intro tag member
    refine .inl ?_
    revert tag
    decide
  have sheet := @styleSheet_unmarked rt document passes
  have head : ∀ segment ∈ headSegments rt document, Template segment := by
    simp only [headSegments, List.forall_mem_cons]
    refine ⟨?_, ?_, ?_, ?_, ⟨known _ (by simp), sheet⟩, ?_, ?_, ?_, fun _ member => nomatch member⟩
    all_goals exact ⟨known _ (by simp), unmarked_nil⟩
  have tail : ∀ segment ∈ [⟨"/body".toList, []⟩, ⟨"/html".toList, []⟩], Template segment := by
    simp only [List.forall_mem_cons]
    refine ⟨⟨known _ (by simp), unmarked_nil⟩, ⟨known _ (by simp), unmarked_nil⟩, fun _ member =>
      nomatch member⟩
  have body : ∀ segment ∈ bodySegments rt document, Template segment :=
    forall_mem_flatMap fun page _ => forall_mem_flatMap fun row _ => rowSegments_template rt document row
  exact List.forall_mem_append.mpr ⟨List.forall_mem_append.mpr ⟨head, body⟩, tail⟩

section Nested

theorem balanced_plain {tag : Str} (text : Str) {inner : List Segment} (named : tag.takeWhile (· ≠ ' ') = tag)
    (known : tag ∈ ["section".toList, "h2".toList, "ul".toList, "li".toList])
    (balanced : Balanced voidTags inner) :
    Balanced voidTags (elementSegments tag tag text inner) := by
  have opening : ∀ tag ∈ ["section".toList, "h2".toList, "ul".toList, "li".toList],
      tag.head? ≠ some '/' ∧ voidTags.contains tag = false := by decide
  exact balanced_element text (opening tag known).1 named (opening tag known).2 balanced

theorem fieldSegments_balanced (rt : Runtime) (field : Str × Json) :
    Balanced voidTags (fieldSegments rt field) := by
  unfold fieldSegments
  split
  · split
    · exact balanced_nil
    · rcases fieldTag_cases field.1 with same | same
      · rw [same]
        exact balanced_text _ (by decide) (by decide) (by decide) (by decide)
      · rw [same]
        exact balanced_text _ (by decide) (by decide) (by decide) (by decide)
  · split
    · exact balanced_nil
    · refine balanced_plain _ (by decide) (by simp) (balanced_flatMap fun item _ => ?_)
      exact balanced_plain _ (by decide) (by simp) balanced_nil
  · exact balanced_nil

theorem sectionSegments_balanced (rt : Runtime) (block : ResumeBlock) :
    Balanced voidTags (sectionSegments rt block) := by
  have title : Balanced voidTags (titleSegments block) := balanced_plain _ (by decide) (by simp) balanced_nil
  exact balanced_plain _ (by decide) (by simp)
    (title.append (balanced_flatMap fun field _ => fieldSegments_balanced rt field))

theorem rowSegments_balanced (rt : Runtime) (document : ResumeDocument) (row : ResumeRow) :
    Balanced voidTags (rowSegments rt document row) := by
  have opening : (rowTag row).head? = some 'd' := rfl
  refine balanced_element _ (by rw [opening]; decide) rfl (by decide) (balanced_flatMap fun column _ => ?_)
  exact balanced_element _ (by decide) (by decide) (by decide) (balanced_flatMap fun block _ =>
    sectionSegments_balanced rt block)

theorem pageSegments_nested (rt : Runtime) (document : ResumeDocument) :
    openTags voidTags [] (pageSegments rt document) = some [] := by
  have body : Balanced voidTags (bodySegments rt document) :=
    balanced_flatMap fun page _ => balanced_flatMap fun row _ => rowSegments_balanced rt document row
  have head : openTags voidTags [] (headSegments rt document) = some ["body".toList, "html".toList] := rfl
  rw [pageSegments, openTags_append, openTags_append, head, Option.bind_some, body, Option.bind_some]
  rfl

end Nested

section Texts

theorem readTexts_append (first : List Segment) {second : List Segment} (starts : Starts second) :
    readTexts (first ++ second) = readTexts first ++ readTexts second := by
  rw [readTexts, joinBreaks_append first starts, List.flatMap_append]
  rfl

theorem readTexts_flatMap {α : Type} {f : α → List Segment} {items : List α}
    (each : ∀ item ∈ items, Starts (f item)) :
    readTexts (items.flatMap f) = items.flatMap fun item => readTexts (f item) := by
  rw [readTexts, joinBreaks_flatMap each, List.flatMap_assoc]
  rfl

theorem shown_closing (name : Str) : Segment.shown ⟨'/' :: name, []⟩ = [] := by
  simp [Segment.shown]

theorem readTexts_element {tag : Str} (other : tag ≠ lineBreak) (name text : Str) {inner : List Segment}
    (starts : Starts inner) :
    readTexts (elementSegments tag name text inner) = Segment.shown ⟨tag, text⟩ ++ readTexts inner := by
  rw [readTexts, joinBreaks_element other name text starts, List.flatMap_append, List.flatMap_cons,
    List.flatMap_cons,
    shown_closing]
  simp [readTexts]

theorem shown_text {tag value : Str} (visible : tag ≠ "style".toList) (nonempty : value ≠ []) :
    Segment.shown ⟨tag, htmlEscape value⟩ = [value] := by
  have kept : htmlEscape value ≠ [] := by
    intro empty
    have back := unescape_htmlEscape value
    rw [empty] at back
    exact nonempty back.symm
  simp only [Segment.shown, visible, kept, or_self, if_false, unescape_htmlEscape]

theorem strip_nonempty {value : Str} (nonblank : (strip value).isEmpty = false) : value ≠ [] := by
  rintro rfl
  cases nonblank

theorem itemSegments_texts (rt : Runtime) {items : List Json} {item : Json}
    (member : item ∈ plainItems rt items) :
    readTexts (itemSegments rt item) = [str rt item] := by
  have printed := (List.mem_filter.mp member).2
  rw [Bool.and_eq_true, Bool.not_eq_true'] at printed
  rw [itemSegments, readTexts_element (by decide) _ _ starts_nil,
    shown_text (by decide) (strip_nonempty printed.2)]
  rfl

theorem fieldSegments_starts (rt : Runtime) (field : Str × Json) : Starts (fieldSegments rt field) := by
  unfold fieldSegments
  split
  · split
    · exact starts_nil
    · rcases fieldTag_cases field.1 with same | same
      · rw [same]
        exact starts_element (by decide) _ _ _
      · rw [same]
        exact starts_element (by decide) _ _ _
  · split
    · exact starts_nil
    · exact starts_element (by decide) _ _ _
  · exact starts_nil

theorem textSegments_texts {tag value : Str} (other : tag ≠ lineBreak) (visible : tag ≠ "style".toList)
    (nonempty : value ≠ []) :
    readTexts (textSegments tag (htmlEscape value)) = [value] := by
  rw [readTexts, joinBreaks_text other, List.flatMap_cons, List.flatMap_cons, shown_text visible nonempty,
    shown_closing]
  rfl

theorem fieldSegments_texts (rt : Runtime) (field : Str × Json) :
    readTexts (fieldSegments rt field) = fieldTexts rt field := by
  obtain ⟨key, value⟩ := field
  cases value with
  | str value =>
    simp only [fieldSegments, fieldTexts]
    by_cases blank : (strip value).isEmpty = true
    · rw [if_pos blank, if_pos blank]
      rfl
    · have nonempty : value ≠ [] := strip_nonempty (by simpa using blank)
      rw [if_neg blank, if_neg blank]
      rcases fieldTag_cases key with same | same
      · rw [same]
        exact textSegments_texts (by decide) (by decide) nonempty
      · rw [same]
        exact textSegments_texts (by decide) (by decide) nonempty
  | arr items =>
    simp only [fieldSegments, fieldTexts]
    split
    · rename_i none
      rw [List.isEmpty_iff.mp none]
      rfl
    · have starts : ∀ item ∈ plainItems rt items, Starts (itemSegments rt item) := fun item _ =>
        starts_element (by decide) _ _ _
      rw [readTexts_element (by decide) _ _ (starts_flatMap starts), readTexts_flatMap starts]
      rw [List.flatMap_congr fun item member => itemSegments_texts rt member]
      rw [List.map_eq_flatMap]
      rfl
  | _ => rfl

theorem sectionSegments_texts (rt : Runtime) {block : ResumeBlock} (titled : block.title ≠ []) :
    readTexts (sectionSegments rt block) = blockTexts rt block := by
  have fields : ∀ field ∈ block.content, Starts (fieldSegments rt field) := fun field _ =>
    fieldSegments_starts rt field
  have title : Starts (titleSegments block) := starts_element (by decide) _ _ _
  rw [sectionSegments, readTexts_element (by decide) _ _ (title.append (starts_flatMap fields)),
    readTexts_append _ (starts_flatMap fields), readTexts_flatMap fields, titleSegments,
    readTexts_element (by decide) _ _ starts_nil, shown_text (by decide) titled]
  simp only [fieldSegments_texts]
  simp [Segment.shown, blockTexts, readTexts, joinBreaks]

theorem block_title {rt : Runtime} {block : ResumeBlock} (passes : Passes (block.checks rt)) :
    block.title ≠ [] := by
  have check := passes (bounded 1 120 block.title "title".toList)
    (by simp only [ResumeBlock.checks, List.mem_cons]; tauto)
  have long : 1 ≤ block.title.length ∧ block.title.length ≤ 120 := by simpa [bounded] using check
  intro empty
  rw [empty] at long
  exact absurd long.1 (by decide)

theorem sectionSegments_starts (rt : Runtime) (block : ResumeBlock) : Starts (sectionSegments rt block) :=
  starts_element (by decide) _ _ _

theorem columnSegments_starts (rt : Runtime) (document : ResumeDocument) (column : ResumeColumn) :
    Starts (columnSegments rt document column) := starts_element (by decide) _ _ _

theorem rowTag_other (row : ResumeRow) : rowTag row ≠ lineBreak := by
  intro same
  have heads : (rowTag row).head? = lineBreak.head? := congrArg List.head? same
  exact absurd heads (by show some 'd' ≠ some 'b'; decide)

theorem rowSegments_starts (rt : Runtime) (document : ResumeDocument) (row : ResumeRow) :
    Starts (rowSegments rt document row) := starts_element (rowTag_other row) _ _ _

theorem columnSegments_texts {rt : Runtime} {document : ResumeDocument} (valid : document.Valid rt)
    (column : ResumeColumn) :
    readTexts (columnSegments rt document column) = (visibleBlocks document column).flatMap
      (blockTexts rt) := by
  have starts : ∀ block ∈ visibleBlocks document column, Starts (sectionSegments rt block) :=
    fun block _ => sectionSegments_starts rt block
  rw [columnSegments, readTexts_element (by decide) _ _ (starts_flatMap starts), readTexts_flatMap starts]
  have blocks : ∀ block ∈ visibleBlocks document column, readTexts (sectionSegments rt block) =
      blockTexts rt block := by
    intro block member
    obtain ⟨id, _, found, _⟩ := mem_visibleBlocks.mp member
    exact sectionSegments_texts rt (block_title (valid.blocks block (findBlock_some found).1))
  rw [List.flatMap_congr blocks]
  rfl

theorem bodySegments_texts {rt : Runtime} {document : ResumeDocument} (valid : document.Valid rt) :
    readTexts (bodySegments rt document) = visibleTexts rt document := by
  have row : ∀ row : ResumeRow, readTexts (rowSegments rt document row) =
      row.columns.flatMap fun column => (visibleBlocks document column).flatMap (blockTexts rt) := by
    intro row
    have starts : ∀ column ∈ row.columns, Starts (columnSegments rt document column) :=
      fun column _ => columnSegments_starts rt document column
    rw [rowSegments, readTexts_element (rowTag_other row) _ _ (starts_flatMap starts),
      readTexts_flatMap starts]
    rw [List.flatMap_congr fun column _ => columnSegments_texts valid column]
    simp [Segment.shown]
  have starts : ∀ page ∈ document.pages, Starts (page.rows.flatMap (rowSegments rt document)) :=
    fun page _ => starts_flatMap fun row _ => rowSegments_starts rt document row
  rw [bodySegments, readTexts_flatMap starts, visibleTexts]
  apply List.flatMap_congr
  intro page _
  rw [readTexts_flatMap fun row _ => rowSegments_starts rt document row]
  exact List.flatMap_congr fun one _ => row one

theorem head_plain (rt : Runtime) (document : ResumeDocument) :
    ∀ segment ∈ headSegments rt document, segment.tag ≠ lineBreak := by
  have tags : ∀ tag ∈ (headSegments rt document).map Segment.tag, tag ≠ lineBreak := by
    unfold headSegments
    generalize styleSheet rt document = sheet
    simp only [List.map_cons, List.map_nil]
    decide
  exact fun segment member => tags _ (List.mem_map_of_mem member)

theorem pageSegments_texts {rt : Runtime} {document : ResumeDocument} (valid : document.Valid rt) :
    readTexts (pageSegments rt document) = visibleTexts rt document := by
  have tail : Starts [⟨"/body".toList, []⟩, ⟨"/html".toList, []⟩] := starts_cons (by decide) _
  have body : Starts (bodySegments rt document) :=
    starts_flatMap fun page _ => starts_flatMap fun row _ => rowSegments_starts rt document row
  have head : readTexts (headSegments rt document) = [] := by
    rw [readTexts, joinBreaks_plain (head_plain rt document)]
    rfl
  rw [pageSegments, readTexts_append _ tail, readTexts_append _ body, head, bodySegments_texts valid]
  exact List.append_nil _

end Texts

/-- Whatever an accepted document says, its page has the template's tags only, properly nested, and
    shows the document's visible texts unchanged. -/
theorem html_reads_back (rt : Runtime) (document : ResumeDocument) (accepted : Accepted rt document) :
    ∃ html segments, renderDocumentHtml rt document = some html ∧ cut html = some segments ∧
      ReadsBack rt document segments := by
  obtain ⟨payload, keyed, parsed⟩ := accepted
  obtain ⟨valid, _⟩ := validateDocument_sound keyed parsed
  have template := @pageSegments_template rt document valid.style
  refine ⟨_, pageSegments rt document, renderDocumentHtml_accepted valid.checks, ?_, ?_⟩
  · exact cut_printPage (fun same => nomatch same) fun segment member => (template segment member).unmarked
  · exact ⟨fun segment member => (template segment member).1, pageSegments_nested rt document,
      pageSegments_texts valid⟩

theorem html_reads_back_onePager :
    ∃ html segments, renderDocumentHtml plainRuntime (onePager "Engineer".toList) = some html ∧
      cut html = some segments ∧
      ReadsBack plainRuntime (onePager "Engineer".toList) segments :=
  html_reads_back plainRuntime _ onePager_accepted

end ManifestCV.Render
