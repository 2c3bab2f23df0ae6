import ManifestCV.Document.Plain
import ManifestCV.Render.PageStream

namespace ManifestCV.Render

open Foundation Document

structure Place where
  page : Nat
  row : Nat
  column : Nat
  deriving DecidableEq

abbrev Placed := PageRow (Place × Double)

def placedRow (page row : Nat) (part : PageRow Double) : Placed :=
  ⟨part.columns.mapIdx fun column entry => ((⟨page, row, column⟩, entry.1), entry.2)⟩

def placedSources (sources : List (List (PageRow Double))) : List (List Placed) :=
  sources.mapIdx fun page rows => rows.mapIdx (placedRow page)

def forget (page : List Placed) : List (PageRow Double) := page.map (·.relabel Prod.snd)

def isAt (place : Place) (label : Place × Double) : Bool := decide (label.1 = place)

def drawsAt (document : ResumeDocument) (place : Place) (page : List Placed) : List (Draw (Place × Double)) :=
  drawsOf (isAt place) (pageDraws document Prod.snd page)

/-- The lines `_block_lines` gives for the visible blocks of a column, in section order. -/
def visibleLines (rt : Runtime) (document : ResumeDocument) (column : ResumeColumn) : List Line :=
  column.sectionIds.flatMap fun id =>
    match findBlock document id with
    | some block => if block.visible then blockLines rt block (maxChars document (pageSize document).1)
        else []
    | none => []

def columnAt (document : ResumeDocument) (place : Place) : Option ResumeColumn := do
  let page ← document.pages[place.page]?
  let row ← page.rows[place.row]?
  row.columns[place.column]?

/-- The pages with every column's place are those the renderer writes, and between them they draw the
    lines of every column once, in order and in full. -/
structure DrawsEveryLine (rt : Runtime) (document : ResumeDocument) (pages : List (List Placed)) : Prop where
  written : pageStreams rt document = some (pages.map fun page => pageStream document (forget page))
  drawn : ∀ page ∈ pages, pageDraws document id (forget page) =
    (pageDraws document Prod.snd page).map (·.relabel Prod.snd)
  placed : ∀ page ∈ pages, ∀ draw ∈ pageDraws document Prod.snd page,
    (columnAt document draw.column.1).map (·.width) = some draw.column.2
  texts : ∀ place column, columnAt document place = some column →
    (pages.flatMap fun page => (drawsAt document place page).map Draw.text) =
      (visibleLines rt document column).map (·.text)
  downward : ∀ page ∈ pages, ∀ place, (drawsAt document place page).Pairwise fun a b => b.y < a.y
  separate : ∀ page ∈ pages, ∀ a ∈ pageDraws document Prod.snd page, ∀ b ∈ pageDraws document Prod.snd page,
    a.column.1.page = b.column.1.page

theorem mapM_total {α β : Type} {f : α → Option β} {g : α → β} {items : List α}
    (total : ∀ item ∈ items, f item = some (g item)) : items.mapM f = some (items.map g) := by
  induction items with
  | nil => rfl
  | cons item items ih =>
    rw [List.mapM_cons, total item List.mem_cons_self, ih fun other member =>
      total other (List.mem_cons_of_mem _ member)]
    rfl

theorem findBlock_reference {document : ResumeDocument} (passes : Passes document.checks) {page : ResumePage}
    {row : ResumeRow} {column : ResumeColumn} {id : Str} (onPage : page ∈ document.pages)
    (onRow : row ∈ page.rows) (inRow : column ∈ row.columns) (inColumn : id ∈ column.sectionIds) :
    ∃ block, findBlock document id = some block := by
  have layout : (document.references.all (document.blockIds.contains ·) &&
      document.blockIds.all (document.references.contains ·)) = true :=
    passes (_, .value "layout must reference every block exactly once".toList)
      (by simp only [ResumeDocument.checks, List.mem_cons]; tauto)
  have reference : id ∈ document.references :=
    List.mem_flatMap.mpr
      ⟨page, onPage, List.mem_flatMap.mpr ⟨column, List.mem_flatMap.mpr ⟨row, onRow, inRow⟩, inColumn⟩⟩
  have known : id ∈ document.blockIds := by
    simp only [Bool.and_eq_true, List.all_eq_true, List.contains_iff_mem] at layout
    exact layout.1 id reference
  obtain ⟨block, member, same⟩ := List.mem_map.mp known
  have found : (findBlock document id).isSome = true := by
    rw [findBlock, List.find?_isSome]
    exact ⟨block, List.mem_reverse.mpr member, by simpa using same⟩
  exact Option.isSome_iff_exists.mp found

def sourceRow (rt : Runtime) (document : ResumeDocument) (row : ResumeRow) : PageRow Double :=
  ⟨row.columns.map fun column => (column.width, visibleLines rt document column)⟩

theorem sourceRows_accepted {rt : Runtime} {document : ResumeDocument} (passes : Passes document.checks) :
    sourceRows rt document (pageSize document).1 =
      some (document.pages.map fun page => page.rows.map (sourceRow rt document)) := by
  apply mapM_total
  intro page onPage
  apply mapM_total
  intro row onRow
  have columns : (row.columns.mapM fun column =>
      (columnLines rt document (maxChars document (pageSize document).1) column).map (column.width, ·)) =
        some (row.columns.map fun column => (column.width, visibleLines rt document column)) := by
    apply mapM_total
    intro column inRow
    have sections : column.sectionIds.mapM
      (sectionLines rt document (maxChars document (pageSize document).1)) =
        some (column.sectionIds.map fun id =>
          match findBlock document id with
          | some block => if block.visible then blockLines rt block (maxChars document (pageSize document).1)
              else []
          | none => []) := by
      apply mapM_total
      intro id inColumn
      obtain ⟨block, found⟩ := findBlock_reference passes onPage onRow inRow inColumn
      simp [sectionLines, found]
    rw [columnLines, sections]
    rfl
  rw [rowLines, columns]
  rfl

theorem style_margin {document : ResumeDocument} (passes : Passes document.style.checks) :
    0 ≤ margin document := by
  have bounded : (1 / 4 : ℚ) ≤ document.style.margin.val ∧ document.style.margin.val ≤ 5 / 4 := by
    have check := passes (within (1 / 4) (5 / 4) document.style.margin "margin".toList)
      (by simp only [ResumeStyle.checks, List.mem_cons]; tauto)
    simpa [within] using check
  apply Double.toInt_nonneg
  apply roundDouble_nonneg
  have points : 0 ≤ (Double.ofInt 72).val := roundDouble_nonneg (by norm_num)
  exact mul_nonneg (le_trans (by norm_num) bounded.1) points

theorem maxChars_pos (document : ResumeDocument) (width : Int) : 0 < maxChars document width := by
  unfold maxChars
  omega

theorem maxChars_le {document : ResumeDocument} (passes : Passes document.style.checks) :
    maxChars document (pageSize document).1 ≤ 180 := by
  have nonneg := style_margin passes
  have narrow : (pageSize document).1 ≤ 612 := by
    unfold pageSize
    split <;> decide
  unfold maxChars
  omega

/-- `textwrap.wrap` returns no chunk longer than the width it is given. -/
def WrapsWithin (rt : Runtime) : Prop := ∀ text width, 0 < width → ∀ chunk ∈ rt.wrap text width,
    chunk.length ≤ width

theorem blockLines_length {rt : Runtime} (wraps : WrapsWithin rt) (block : ResumeBlock) {width : Nat}
    (positive : 0 < width) : ∀ line ∈ blockLines rt block width, line.text.length ≤ width := by
  intro line member
  rcases List.mem_append.mp member with member | member
  · obtain ⟨whole, _, member⟩ := List.mem_flatMap.mp member
    obtain ⟨index, bound, rfl⟩ := List.mem_mapIdx.mp member
    have chunk := List.getElem_mem bound
    dsimp only
    split at chunk
    · rename_i nothing
      simp [nothing]
    · rename_i something
      simp only [something]
      exact wraps _ _ positive _ chunk
  · rw [List.mem_singleton.mp member]
    exact Nat.zero_le _

theorem visibleLines_uncut {rt : Runtime} (wraps : WrapsWithin rt) {document : ResumeDocument}
    (passes : Passes document.style.checks) (column : ResumeColumn) :
    ∀ line ∈ visibleLines rt document column, line.text.take 180 = line.text := by
  intro line member
  obtain ⟨id, _, member⟩ := List.mem_flatMap.mp member
  apply List.take_of_length_le
  split at member
  · split at member
    · exact le_trans (blockLines_length wraps _ (maxChars_pos document _) line member) (maxChars_le passes)
    · cases member
  · cases member

theorem map_mapIdx {α β γ : Type} (f : Nat → α → β) (g : β → γ) (items : List α) :
    (items.mapIdx f).map g = items.mapIdx fun i x => g (f i x) := by
  apply List.ext_getElem?
  intro i
  simp [Function.comp_def]

theorem flatMap_mapIdx_one {α β γ : Type} (f : Nat → α → β) (g : β → List γ) (items : List α)
    (k : Nat) (a : α) (here : items[k]? = some a) (elsewhere : ∀ i x, i ≠ k → g (f i x) = []) :
    (items.mapIdx f).flatMap g = g (f k a) := by
  induction items generalizing f k with
  | nil => cases here
  | cons item items ih =>
    rw [List.mapIdx_cons, List.flatMap_cons]
    cases k with
    | zero =>
      obtain rfl : item = a := by simpa using here
      have rest : (items.mapIdx fun i => f (i + 1)).flatMap g = [] := by
        rw [List.flatMap_eq_nil_iff]
        intro b member
        obtain ⟨i, bound, rfl⟩ := List.mem_mapIdx.mp member
        exact elsewhere (i + 1) _ (by omega)
      rw [rest, List.append_nil]
    | succ k =>
      rw [elsewhere 0 item (by omega), List.nil_append]
      exact ih (fun i => f (i + 1)) k (by simpa using here) fun i x other => elsewhere (i + 1) x (by omega)

theorem filter_flatMap_if {α β : Type} (p : α → Bool) (g : α → List β) (items : List α) :
    (items.filter p).flatMap g = items.flatMap fun item => if p item then g item else [] := by
  induction items with
  | nil => rfl
  | cons item items ih =>
    rw [List.filter_cons, List.flatMap_cons]
    split
    · rw [List.flatMap_cons, ih]
    · rw [ih, List.nil_append]

theorem linesOf_place (sources : List (List (PageRow Double))) (place : Place) {rows : List (PageRow Double)}
    {part : PageRow Double} {entry : Double × List Line} (hRows : sources[place.page]? = some rows)
    (hPart : rows[place.row]? = some part) (hEntry : part.columns[place.column]? = some entry) :
    linesOf (isAt place) (placedSources sources).flatten = entry.2 := by
  have column : linesOf (isAt place) [placedRow place.page place.row part] = entry.2 := by
    simp only [linesOf, List.flatMap_cons, List.flatMap_nil, List.append_nil, placedRow]
    rw [filter_flatMap_if, flatMap_mapIdx_one _ _ part.columns place.column entry hEntry]
    · simp [isAt]
    · intro i x other
      have apart : (⟨place.page, place.row, i⟩ : Place) ≠ place := by
        rintro same
        exact other (congrArg Place.column same)
      simp [isAt, apart]
  have otherRow : ∀ page row (part : PageRow Double), (page ≠ place.page ∨ row ≠ place.row) →
      linesOf (isAt place) [placedRow page row part] = [] := by
    intro page row part other
    simp only [linesOf, List.flatMap_cons, List.flatMap_nil, List.append_nil, placedRow]
    rw [filter_flatMap_if, List.flatMap_eq_nil_iff]
    intro item member
    obtain ⟨i, bound, rfl⟩ := List.mem_mapIdx.mp member
    have apart : (⟨page, row, i⟩ : Place) ≠ place := by
      rintro same
      rcases other with other | other
      · exact other (congrArg Place.page same)
      · exact other (congrArg Place.row same)
    simp [isAt, apart]
  have perRow : linesOf (isAt place) (placedSources sources).flatten =
      (placedSources sources).flatMap fun rows => rows.flatMap fun row => linesOf (isAt place) [row] := by
    simp [linesOf, List.flatMap_def, List.map_flatten, List.flatten_flatten, Function.comp_def]
  rw [perRow, placedSources, flatMap_mapIdx_one _ _ sources place.page rows hRows,
    flatMap_mapIdx_one _ _ rows place.row part hPart, column]
  · exact fun i x other => otherRow place.page i x (.inr other)
  · intro i x other
    rw [List.flatMap_eq_nil_iff]
    intro row member
    obtain ⟨j, bound, rfl⟩ := List.mem_mapIdx.mp member
    exact otherRow i j _ (.inl other)

theorem placedRow_single (place : Place) (page row : Nat) (part : PageRow Double) :
    Single (isAt place) (placedRow page row part).labels := by
  have distinct : ((placedRow page row part).labels.map Prod.fst).Nodup := by
    rw [PageRow.labels, placedRow, map_mapIdx, map_mapIdx, List.nodup_iff_getElem?_ne_getElem?]
    intro i j less bound same
    simp only [List.length_mapIdx] at bound
    simp only [List.getElem?_mapIdx, List.getElem?_eq_getElem (show i < part.columns.length by omega),
      List.getElem?_eq_getElem bound, Option.map_some, Option.some.injEq, Place.mk.injEq] at same
    omega
  have count : ((placedRow page row part).labels.filter (isAt place)).length =
      ((placedRow page row part).labels.map Prod.fst).count place := by
    rw [List.count_eq_length_filter, List.filter_map, List.length_map]
    congr 2
  rw [Single, count]
  exact List.nodup_iff_count_le_one.mp distinct place

theorem placedRow_relabel (page row : Nat) (part : PageRow Double) :
    (placedRow page row part).relabel Prod.snd = part := by
  obtain ⟨columns⟩ := part
  simp only [PageRow.relabel, placedRow, map_mapIdx]
  congr 1
  apply List.ext_getElem?
  intro i
  simp

theorem placedSources_forget (sources : List (List (PageRow Double))) :
    (placedSources sources).map (List.map (·.relabel Prod.snd)) = sources := by
  simp only [placedSources, map_mapIdx, placedRow_relabel]
  apply List.ext_getElem?
  intro i
  simp only [List.getElem?_mapIdx]
  cases sources[i]? with
  | none => rfl
  | some rows =>
    simp only [Option.map_some, Option.some.injEq]
    apply List.ext_getElem?
    intro j
    simp

theorem columnAt_some {document : ResumeDocument} {place : Place} {column : ResumeColumn}
    (found : columnAt document place = some column) :
    ∃ page row, document.pages[place.page]? = some page ∧ page.rows[place.row]? = some row ∧
      row.columns[place.column]? = some column := by
  unfold columnAt at found
  obtain ⟨page, onPage, found⟩ := Option.bind_eq_some_iff.mp found
  obtain ⟨row, onRow, found⟩ := Option.bind_eq_some_iff.mp found
  exact ⟨page, row, onPage, onRow, found⟩

theorem accepted_rows {rt : Runtime} {document : ResumeDocument} (valid : document.Valid rt) :
    ∃ page ∈ document.pages, page.rows ≠ [] := by
  have pages : 1 ≤ document.pages.length ∧ document.pages.length ≤ 10 := by
    have check := valid.checks (counted 1 10 document.pages "pages".toList) (by simp [ResumeDocument.checks])
    simpa [counted] using check
  cases shape : document.pages with
  | nil => simp [shape] at pages
  | cons page rest =>
    have member : page ∈ document.pages := by rw [shape]; exact List.mem_cons_self
    have rows : 1 ≤ page.rows.length ∧ page.rows.length ≤ 8 := by
      have check := (valid.pages page member).checks (counted 1 8 page.rows "rows".toList)
        (by simp [ResumePage.checks])
      simpa [counted] using check
    refine ⟨page, List.mem_cons_self, ?_⟩
    intro empty
    simp [empty] at rows

theorem paginate_ne_nil {ω : Type} (available : Int) {sources : List (List (PageRow ω))}
    {rows : List (PageRow ω)} (member : rows ∈ sources) (nonempty : rows ≠ []) :
    paginate available sources ≠ [] := by
  intro empty
  have none_there := List.flatten_eq_nil_iff.mp empty _ (List.mem_map_of_mem member)
  exact fillPages_ne_nil available rows [] available (.inl nonempty) none_there

theorem paginate_placed (available : Int) (sources : List (List (PageRow Double)))
    (good : Nat → List (Place × Double) → Prop)
    (each : ∀ i j, ∀ (rows : List (PageRow Double)) (part : PageRow Double), sources[i]? = some rows →
      rows[j]? = some part → good i (placedRow i j part).labels) :
    ∀ page ∈ paginate available (placedSources sources), ∃ i, ∀ row ∈ page, good i row.labels := by
  intro page member
  obtain ⟨rows, source, labels⟩ := labels_paginate available _ page member
  obtain ⟨i, boundI, rfl⟩ := List.mem_mapIdx.mp source
  refine ⟨i, labels (good i) fun row inside => ?_⟩
  obtain ⟨j, boundJ, rfl⟩ := List.mem_mapIdx.mp inside
  exact each i j _ _ (List.getElem?_eq_getElem boundI) (List.getElem?_eq_getElem boundJ)

theorem placedRow_labels {page row : Nat} {part : PageRow Double} {label : Place × Double}
    (member : label ∈ (placedRow page row part).labels) :
    ∃ column entry, part.columns[column]? = some entry ∧ label = (⟨page, row, column⟩, entry.1) := by
  rw [PageRow.labels, placedRow, map_mapIdx] at member
  obtain ⟨column, bound, rfl⟩ := List.mem_mapIdx.mp member
  exact ⟨column, _, List.getElem?_eq_getElem bound, rfl⟩

theorem drawsAt_texts (document : ResumeDocument) (place : Place) (pages : List (List Placed)) :
    (pages.flatMap fun page => (drawsAt document place page).map Draw.text) =
      (linesOf (isAt place) pages.flatten).map fun line => line.text.take 180 := by
  induction pages with
  | nil => rfl
  | cons page pages ih =>
    have first : (drawsAt document place page).map Draw.text =
        (linesOf (isAt place) page).map fun line => line.text.take 180 := by
      rw [← rowsDraws_lines document (isAt place) Prod.snd _ page, List.map_map]
      rfl
    rw [List.flatMap_cons, ih, first, List.flatten_cons, linesOf_append, List.map_append]

def sourcesOf (rt : Runtime) (document : ResumeDocument) : List (List (PageRow Double)) :=
  document.pages.map fun page => page.rows.map (sourceRow rt document)

def placedPages (rt : Runtime) (document : ResumeDocument) : List (List Placed) :=
  paginate (availableLines document (pageSize document).2) (placedSources (sourcesOf rt document))

theorem pageStreams_accepted {rt : Runtime} {document : ResumeDocument} (valid : document.Valid rt) :
    pageStreams rt document = some ((placedPages rt document).map fun page =>
      pageStream document (forget page)) := by
  have nonempty : paginate (availableLines document (pageSize document).2) (sourcesOf rt document) ≠ [] := by
    obtain ⟨page, member, some_rows⟩ := accepted_rows valid
    exact paginate_ne_nil _ (List.mem_map_of_mem member) (by simpa using some_rows)
  have erased := paginate_relabel Prod.snd (availableLines document (pageSize document).2)
    (placedSources (sourcesOf rt document))
  rw [placedSources_forget] at erased
  have rows : sourceRows rt document (pageSize document).1 = some (sourcesOf rt document) :=
    sourceRows_accepted valid.checks
  rw [pageStreams, paginateRows, rows, Option.map_some, Option.map_some]
  dsimp only
  rw [if_neg (by simpa using nonempty), erased, List.map_map]
  rfl

theorem placedPages_draw {rt : Runtime} (wraps : WrapsWithin rt) {document : ResumeDocument}
    (valid : document.Valid rt) :
    DrawsEveryLine rt document (placedPages rt document) := by
  have single : ∀ place page, page ∈ placedPages rt document → ∀ row ∈ page,
      Single (isAt place) row.labels := by
    intro place page member
    obtain ⟨_, all⟩ := paginate_placed _ _ (fun _ => Single (isAt place))
      (fun i j _ part _ _ => placedRow_single place i j part) page member
    exact all
  constructor
  case written => exact pageStreams_accepted valid
  case drawn => exact fun page _ => rowsDraws_relabel document Prod.snd id _ page
  case placed =>
    intro page member draw drawn
    obtain ⟨row, inside, label⟩ := rowsDraws_column document Prod.snd _ page draw drawn
    obtain ⟨_, all⟩ := paginate_placed _ _
      (fun _ labels => ∀ label ∈ labels, (columnAt document label.1).map (·.width) = some label.2) (by
        intro i j rows part hRows hPart label named
        obtain ⟨k, entry, hEntry, rfl⟩ := placedRow_labels named
        simp only [sourcesOf, List.getElem?_map, Option.map_eq_some_iff] at hRows
        obtain ⟨page, onPage, rfl⟩ := hRows
        simp only [List.getElem?_map, Option.map_eq_some_iff] at hPart
        obtain ⟨row, onRow, rfl⟩ := hPart
        simp only [sourceRow, List.getElem?_map, Option.map_eq_some_iff] at hEntry
        obtain ⟨column, inRow, rfl⟩ := hEntry
        simp [columnAt, onPage, onRow, inRow]) page member
    exact all row inside _ label
  case texts =>
    intro place column found
    obtain ⟨page, row, onPage, onRow, inRow⟩ := columnAt_some found
    have lines : linesOf (isAt place) (placedPages rt document).flatten =
        visibleLines rt document column := by
      have hRows : (sourcesOf rt document)[place.page]? = some (page.rows.map (sourceRow rt document)) := by
        simp [sourcesOf, onPage]
      have hPart : (page.rows.map (sourceRow rt document))[place.row]? =
          some (sourceRow rt document row) := by
        simp [onRow]
      have hEntry : (sourceRow rt document row).columns[place.column]? =
          some (column.width, visibleLines rt document column) := by
        simp [sourceRow, inRow]
      rw [placedPages, linesOf_paginate]
      · exact linesOf_place (sourcesOf rt document) place hRows hPart hEntry
      · intro rows member row inside
        obtain ⟨i, _, rfl⟩ := List.mem_mapIdx.mp member
        obtain ⟨j, _, rfl⟩ := List.mem_mapIdx.mp inside
        exact placedRow_single place i j _
    rw [drawsAt_texts, lines]
    exact List.map_congr_left (visibleLines_uncut wraps valid.style column)
  case downward =>
    intro page member place
    exact rowsDraws_descend document Prod.snd _ page (single place page member)
  case separate =>
    intro page member a drawnA b drawnB
    obtain ⟨rowA, insideA, labelA⟩ := rowsDraws_column document Prod.snd _ page a drawnA
    obtain ⟨rowB, insideB, labelB⟩ := rowsDraws_column document Prod.snd _ page b drawnB
    obtain ⟨source, same⟩ := paginate_placed _ _ (fun i labels => ∀ label ∈ labels, label.1.page = i) (by
      intro i j rows part _ _ label named
      obtain ⟨k, entry, _, rfl⟩ := placedRow_labels named
      rfl) page member
    rw [same rowA insideA _ labelA, same rowB insideB _ labelB]

/-- The renderer loses, repeats, reorders and cuts no line, and starts a new PDF page for each source page. -/
theorem render_draws_every_line (rt : Runtime) (wraps : WrapsWithin rt) (document : ResumeDocument)
    (accepted : Accepted rt document) : ∃ pages, DrawsEveryLine rt document pages := by
  obtain ⟨payload, keyed, parsed⟩ := accepted
  obtain ⟨valid, _⟩ := validateDocument_sound keyed parsed
  exact ⟨placedPages rt document, placedPages_draw wraps valid⟩

theorem render_draws_every_line_onePager :
    WrapsWithin plainRuntime ∧ ∃ pages, DrawsEveryLine plainRuntime (onePager "Engineer".toList) pages :=
  ⟨plainRuntime_wraps, render_draws_every_line plainRuntime plainRuntime_wraps _ onePager_accepted⟩

end ManifestCV.Render
