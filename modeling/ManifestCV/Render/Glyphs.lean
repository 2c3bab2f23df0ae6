import ManifestCV.Document.Plain
import ManifestCV.Foundation.Splitting
import ManifestCV.Foundation.StandardEncoding
import ManifestCV.Render.ObjectGraph
import ManifestCV.Render.StreamTokens

namespace ManifestCV.Render

open Foundation Document Pdf

def shownStrings (operations : List Content.Operation) : List Bytes :=
  operations.filterMap fun operation =>
    match operation.operands with
    | [.string text] => if operation.operator = ascii "Tj" then some text else none
    | _ => none

structure DeclaresFont (file stream : Bytes) (font : Entries) : Prop where
  object : ∃ number, lookup file number = some (.value (.dict font))
  typed : HasType font "Font"
  selected : ∃ base, font.lookup (key "BaseFont") = some (.name base) ∧ selectedFont stream =
    replaceChar '-' [] base

/-- The page's strings, one for each line, hold one byte for each character of the line, its code in the
    page's font. -/
def ReadsAsWritten (document : ResumeDocument) (file : Bytes) (page : List (PageRow Double)) : Prop :=
  ∃ operations font code, Content.readContent (pageStream document page) = some operations ∧
    DeclaresFont file (pageStream document page) font ∧ fontEncoding font = some code ∧
    List.Forall₂ (Shows code) (shownStrings operations) ((pageDraws document id page).map (·.line.text))

def blockSources (rt : Runtime) (block : ResumeBlock) : List Str :=
  block.title :: (block.content.flatMap fun field => contentLines rt field.2).map (·.text)

def Prints (rt : Runtime) (document : ResumeDocument) (text : Str) : Prop :=
  ∃ page ∈ document.pages, ∃ row ∈ page.rows, ∃ column ∈ row.columns, ∃ id ∈ column.sectionIds, ∃ block,
    findBlock document id = some block ∧ block.visible = true ∧ text ∈ blockSources rt block

/-- `textwrap.wrap` drops nothing but white space and puts in nothing but spaces. -/
structure WrapsInk (rt : Runtime) : Prop where
  kept : ∀ text width, 0 < width → ∀ c ∈ text, isSpace c = false → ∃ chunk ∈ rt.wrap text width, c ∈ chunk
  made : ∀ text width, 0 < width → ∀ chunk ∈ rt.wrap text width, ∀ c ∈ chunk, c = ' ' ∨ c ∈ text

section Strings

variable (document : ResumeDocument)

theorem shownStrings_append (first second : List Content.Operation) :
    shownStrings (first ++ second) = shownStrings first ++ shownStrings second := List.filterMap_append

theorem shownStrings_draw (draw : Draw Double) (text : Bytes) :
    shownStrings (drawOperations document draw text) = [text] := by
  have color : ∀ value : Str, shownStrings [⟨(rgb value).map (number ∘ fixed 4), ascii "rg"⟩] = [] := by
    intro value
    have three := (rgb_shares value).1
    match rgb value, three with
    | [r, g, b], _ => rfl
  have split : drawOperations document draw text =
      [⟨(if draw.line.heading then rgb document.style.accentColor else rgb document.style.textColor).map
        (number ∘ fixed 4), ascii "rg"⟩] ++
        [⟨["1".toList, "0".toList, "0".toList, "1".toList, decimalInt draw.x, decimalInt draw.y].map number,
          ascii "Tm"⟩, ⟨[.string text], ascii "Tj"⟩] := rfl
  have shown : shownStrings
    [⟨["1".toList, "0".toList, "0".toList, "1".toList, decimalInt draw.x, decimalInt draw.y].map number,
    ascii "Tm"⟩,
      ⟨[.string text], ascii "Tj"⟩] = [text] := by
    simp [shownStrings, number]
  rw [split, shownStrings_append, shown]
  split
  · rw [color]
    rfl
  · rw [color]
    rfl

theorem shownStrings_page (draws : List (Draw Double)) (bytes : Draw Double → Bytes) :
    shownStrings (openOperations document ++ (draws.flatMap fun draw =>
      drawOperations document draw (bytes draw)) ++ [⟨[], ascii "ET"⟩]) =
      draws.map bytes := by
  have opened : shownStrings (openOperations document) = [] := rfl
  have closed : shownStrings [⟨[], ascii "ET"⟩] = [] := rfl
  rw [shownStrings_append, shownStrings_append, opened, closed, List.nil_append, List.append_nil]
  induction draws with
  | nil => rfl
  | cons draw draws ih =>
      rw [List.flatMap_cons, shownStrings_append, shownStrings_draw, ih, List.map_cons, List.singleton_append]

end Strings

theorem fontEntries_encoding (document : ResumeDocument) :
    fontEncoding (fontEntries document) = some standardCode := by
  have base : fontName document ∈ latinFonts.map String.toList := by
    unfold fontName
    cases document.style.fontFamily <;> decide
  have subtype : (fontEntries document).lookup "Subtype".toList = some (.name "Type1".toList) := rfl
  have encoding : (fontEntries document).lookup "Encoding".toList = none := rfl
  have named : (fontEntries document).lookup "BaseFont".toList = some (.name (fontName document)) := rfl
  simp only [fontEncoding, subtype, encoding, named]
  exact if_pos ⟨trivial, base⟩

theorem declaresFont (document : ResumeDocument) (streams : List Bytes) (page : List (PageRow Double)) :
    DeclaresFont (shiftedFile 1 document streams) (pageStream document page) (fontEntries document) where
  object := ⟨_, (pdfObjects_rest 1 document streams).1⟩
  typed := by simp [HasType, fontEntries, key]
  selected := ⟨fontName document, rfl, selectedFont_pageStream document page⟩

/-- A page reads as it was written where every character it draws is shown for its ASCII code. -/
theorem readsAsWritten_iff {document : ResumeDocument} (streams : List Bytes) {page : List (PageRow Double)}
    (whole : ∀ draw ∈ pageDraws document id page, draw.text = draw.line.text) :
    ReadsAsWritten document (shiftedFile 1 document streams) page ↔
      ∀ draw ∈ pageDraws document id page, ∀ c ∈ draw.line.text, showsItself c = true := by
  have read := pageStream_read document page
  have each : List.Forall₂ (Shows standardCode)
      ((pageDraws document id page).map fun draw => Content.readBreaks (encode draw.text))
        ((pageDraws document id page).map (·.line.text)) ↔
      ∀ draw ∈ pageDraws document id page, ∀ c ∈ draw.line.text, showsItself c = true := by
    rw [List.forall₂_map_left_iff, List.forall₂_map_right_iff, List.forall₂_same]
    apply forall₂_congr
    intro draw drawn
    rw [whole draw drawn]
    exact shows_read_iff draw.line.text
  constructor
  · rintro ⟨operations, font, code, content, _, encoding, shows⟩
    cases Option.some.inj (content.symm.trans read)
    rw [fontEncoding_standard encoding, shownStrings_page] at shows
    exact each.mp shows
  · intro all
    refine ⟨_, _, _, read, declaresFont document streams page, fontEntries_encoding document, ?_⟩
    rw [shownStrings_page]
    exact each.mpr all

section Texts

variable {rt : Runtime} {document : ResumeDocument} {good : Char → Prop}

theorem forall_mem_mapIdx {α β : Type} {items : List α} {make : Nat → α → β} {fine : β → Prop}
    {fine' : α → Prop} (same : ∀ i item, fine (make i item) ↔ fine' item) :
    (∀ made ∈ items.mapIdx make, fine made) ↔ ∀ item ∈ items, fine' item := by
  constructor
  · intro all item member
    obtain ⟨i, inside, rfl⟩ := List.mem_iff_getElem.mp member
    exact (same i _).mp (all _ (List.mem_mapIdx.mpr ⟨i, inside, rfl⟩))
  · intro all made member
    obtain ⟨i, inside, rfl⟩ := List.mem_mapIdx.mp member
    exact (same i _).mpr (all _ (List.getElem_mem inside))

theorem wrapLine_chars (width : Nat) (line : Line) :
    (∀ wrapped ∈ wrapLine rt width line, ∀ c ∈ wrapped.text, good c) ↔ ∀ chunk ∈ rt.wrap line.text width,
    ∀ c ∈ chunk, good c := by
  unfold wrapLine
  have each := @forall_mem_mapIdx Str Line
  rw [each (fun _ _ => Iff.rfl : ∀ (_ : Nat) (chunk : Str), _ ↔ ∀ c ∈ chunk, good c)]
  split
  · rename_i empty
    rw [List.isEmpty_iff.mp empty]
    simp
  · rfl

theorem blockLines_chars (block : ResumeBlock) (width : Nat) :
    (∀ line ∈ blockLines rt block width, ∀ c ∈ line.text, good c) ↔
      ∀ text ∈ blockSources rt block, ∀ chunk ∈ rt.wrap text width, ∀ c ∈ chunk, good c := by
  rw [blockLines, blockSources, List.forall_mem_append, List.forall_mem_singleton, List.forall_mem_flatMap,
    List.forall_mem_cons, List.forall_mem_cons, List.forall_mem_map, wrapLine_chars]
  simp only [wrapLine_chars, List.not_mem_nil, false_imp_iff, implies_true, and_true]

theorem visibleLines_chars :
    (∀ page ∈ document.pages, ∀ row ∈ page.rows, ∀ column ∈ row.columns,
      ∀ line ∈ visibleLines rt document column, ∀ c ∈ line.text, good c) ↔
      ∀ text, Prints rt document text → ∀ chunk ∈ rt.wrap text (maxChars document (pageSize document).1),
        ∀ c ∈ chunk, good c := by
  have inColumn : ∀ column : ResumeColumn,
    (∀ line ∈ visibleLines rt document column, ∀ c ∈ line.text, good c) ↔
      ∀ id ∈ column.sectionIds, ∀ block, findBlock document id = some block → block.visible = true →
        ∀ text ∈ blockSources rt block, ∀ chunk ∈ rt.wrap text (maxChars document (pageSize document).1),
            ∀ c ∈ chunk, good c := by
    intro column
    rw [visibleLines, List.forall_mem_flatMap]
    apply forall₂_congr
    intro id _
    cases found : findBlock document id with
    | none => simp
    | some block =>
      by_cases visible : block.visible = true
      · simp [visible, blockLines_chars]
      · simp [visible]
  simp only [inColumn]
  constructor
  · rintro all text ⟨page, onPage, row, inRow, column, inside, id, member, block, found, visible, shown⟩
    exact all page onPage row inRow column inside id member block found visible text shown
  · intro all page onPage row inRow column inside id member block found visible text shown
    exact all text ⟨page, onPage, row, inRow, column, inside, id, member, block, found, visible, shown⟩

/-- Where no white space but the space is printed, wrapping changes nothing for a class of characters with the
    space. -/
theorem wrapped_chars (ink : WrapsInk rt) (blank : good ' ') {width : Nat} (positive : 0 < width) {text : Str}
    (plain : ∀ c ∈ text, isSpace c = true → c = ' ') :
    (∀ chunk ∈ rt.wrap text width, ∀ c ∈ chunk, good c) ↔ ∀ c ∈ text, good c := by
  constructor
  · intro all c member
    cases white : isSpace c with
    | true => exact plain c member white ▸ blank
    | false =>
      obtain ⟨chunk, made, inside⟩ := ink.kept text width positive c member white
      exact all chunk made c inside
  · intro all chunk made c inside
    rcases ink.made text width positive chunk made c inside with rfl | member
    · exact blank
    · exact all c member

end Texts

theorem pages_read_iff {rt : Runtime} (wraps : WrapsWithin rt) {document : ResumeDocument}
    (valid : document.Valid rt) (streams : List Bytes) :
    (∀ page ∈ paginate (availableLines document (pageSize document).2) (sourcesOf rt document),
      ReadsAsWritten document (shiftedFile 1 document streams) page) ↔
      ∀ text, Prints rt document text → ∀ chunk ∈ rt.wrap text (maxChars document (pageSize document).1),
        ∀ c ∈ chunk, showsItself c = true := by
  rw [← visibleLines_chars, ← forall_drawn rt document fun line => ∀ c ∈ line.text, showsItself c = true]
  apply forall₂_congr
  intro page member
  exact readsAsWritten_iff streams (drawn_in_full wraps valid page member)

/-- An accepted document reads as it was written if and only if the wrapped texts hold nothing but the
    characters that ASCII and the font's encoding agree on; where no white space but the space is printed,
    this is a matter of the texts alone. -/
theorem reads_as_written_iff (rt : Runtime) (wraps : WrapsWithin rt) (document : ResumeDocument)
    (accepted : Accepted rt document) :
    ∃ pages file, paginateRows rt document (pageSize document).1 (pageSize document).2 = some pages ∧
      renderDocumentPdf rt document = some file ∧
      ((∀ page ∈ pages, ReadsAsWritten document file page) ↔
        ∀ text, Prints rt document text → ∀ chunk ∈ rt.wrap text (maxChars document (pageSize document).1),
          ∀ c ∈ chunk, showsItself c = true) ∧
      (WrapsInk rt → (∀ text, Prints rt document text → ∀ c ∈ text, isSpace c = true → c = ' ') →
        ((∀ page ∈ pages, ReadsAsWritten document file page) ↔ ∀ text, Prints rt document text → ∀ c ∈ text,
          showsItself c = true)) := by
  obtain ⟨streams, _, drawn, _⟩ := render_shifted accepted
  obtain ⟨payload, keyed, parsed⟩ := accepted
  obtain ⟨valid, _⟩ := validateDocument_sound keyed parsed
  have pages := pages_read_iff wraps valid streams
  refine ⟨_, _, paginateRows_accepted valid, drawn, pages, ?_⟩
  intro ink plain
  rw [pages]
  apply forall₂_congr
  intro text prints
  exact @wrapped_chars rt (fun c => showsItself c = true) ink rfl _ (maxChars_pos document _) text
    (plain text prints)

theorem plainRuntime_wrapsInk : WrapsInk plainRuntime where
  kept text width positive c member ink := by
    have covers := chunksOf_covers positive (strip_inside text).length_le
    have inside := mem_strip member ink
    rw [← covers, List.mem_flatten] at inside
    exact inside
  made text width positive chunk made c inside := by
    have covers := chunksOf_covers positive (strip_inside text).length_le
    have kept : c ∈ (chunksOf width text.length (strip text)).flatten := List.mem_flatten_of_mem made inside
    rw [covers] at kept
    exact .inr (mem_of_strip kept)

theorem onePager_prints {text printed : Str} (prints : Prints plainRuntime (onePager text) printed) :
    printed ∈ blockSources plainRuntime ⟨"summary".toList, .summary, "Summary".toList, true,
      [("text".toList, .str text)], [], []⟩ := by
  obtain ⟨page, onPage, row, inRow, column, inside, id, member, block, found, _, printed⟩ := prints
  rw [List.mem_singleton.mp onPage, List.mem_singleton] at inRow
  rw [inRow, List.mem_singleton] at inside
  rw [inside, List.mem_singleton] at member
  subst member
  cases found
  exact printed

theorem reads_as_written_iff_onePager : ∃ pages file,
    paginateRows plainRuntime (onePager "Engineer".toList) (pageSize (onePager "Engineer".toList)).1
      (pageSize (onePager "Engineer".toList)).2 = some pages ∧
    renderDocumentPdf plainRuntime (onePager "Engineer".toList) = some file ∧
    ∀ page ∈ pages, ReadsAsWritten (onePager "Engineer".toList) file page := by
  obtain ⟨pages, file, paginated, drawn, _, onTexts⟩ :=
    reads_as_written_iff plainRuntime plainRuntime_wraps _ onePager_accepted
  refine ⟨pages, file, paginated, drawn, (onTexts plainRuntime_wrapsInk ?_).mpr ?_⟩
  · intro text prints
    have ascii : ∀ text ∈ blockSources plainRuntime
        ⟨"summary".toList, .summary, "Summary".toList, true, [("text".toList, .str "Engineer".toList)],
          [], []⟩,
        text.all (fun c => !isSpace c || decide (c = ' ')) = true := by decide
    intro c inside space
    have each := List.all_eq_true.mp (ascii text (onePager_prints prints)) c inside
    rw [space] at each
    exact of_decide_eq_true each
  · intro text prints
    have ascii : ∀ text ∈ blockSources plainRuntime
        ⟨"summary".toList, .summary, "Summary".toList, true, [("text".toList, .str "Engineer".toList)],
          [], []⟩,
        text.all showsItself = true := by decide
    exact List.all_eq_true.mp (ascii text (onePager_prints prints))

/-- A page about Müller: the two bytes of the `ü` are two other characters, or none, in the font. -/
theorem umlaut_misread : ¬ ∀ document, Accepted plainRuntime document → ∀ pages file,
    paginateRows plainRuntime document (pageSize document).1 (pageSize document).2 = some pages →
    renderDocumentPdf plainRuntime document = some file → ∀ page ∈ pages,
      ReadsAsWritten document file page := by
  intro all
  let document := onePagerWith .summary "Summary".toList [("text".toList, .str "Müller".toList)]
  have titled : (bounded 1 120 "Summary".toList "title".toList).1 = true := by decide
  have keyed : (Json.obj [("text".toList, .str "Müller".toList)]).WellKeyed := by
    simp [Json.WellKeyed, Json.WellKeyedFields]
  have valid : document.Valid plainRuntime := onePagerWith_valid titled rfl
  have accepted : Accepted plainRuntime document := onePagerWith_accepted titled rfl keyed
  obtain ⟨streams, _, drawn, _⟩ := render_shifted accepted
  have read := (pages_read_iff plainRuntime_wraps valid streams).mp
    (all document accepted _ _ (paginateRows_accepted valid) drawn)
  have prints : Prints plainRuntime document "Müller".toList :=
    ⟨_, List.mem_cons_self, _, List.mem_cons_self, _, List.mem_cons_self, _, List.mem_cons_self,
      _, rfl, rfl, by decide⟩
  obtain ⟨chunk, made, inside⟩ :=
    plainRuntime_wrapsInk.kept "Müller".toList (maxChars document (pageSize document).1)
    (maxChars_pos document _) 'ü' (by decide) (by decide)
  exact absurd (read _ prints chunk made 'ü' inside) (by decide)

end ManifestCV.Render
