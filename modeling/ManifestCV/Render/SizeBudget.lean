import ManifestCV.Render.FileSize

namespace ManifestCV.Render

open Foundation Document Pdf

variable {rt : Runtime} {document : ResumeDocument}

def unhiddenBlocks (document : ResumeDocument) : List ResumeBlock := document.blocks.filter (·.visible)

def linesWeight (rt : Runtime) (document : ResumeDocument) (f : Line → Nat) : Nat :=
  ((unhiddenBlocks document).map fun block =>
    ((blockLines rt block (maxChars document (pageSize document).1)).map f).sum).sum

def drawnBudget (rt : Runtime) (document : ResumeDocument) : Nat :=
  4200 + linesWeight rt document fun line => 62 + textBytes line

def printedSize (rt : Runtime) (document : ResumeDocument) : Nat :=
  ((unhiddenBlocks document).map fun block =>
    block.title.length + ((Json.obj block.content).repr rt.floats rt.isPrintable).length).sum

section Layout

def sectionWeight (rt : Runtime) (document : ResumeDocument) (f : Line → Nat) (id : Str) : Nat :=
  match findBlock document id with
  | some block =>
    if block.visible then ((blockLines rt block (maxChars document (pageSize document).1)).map f).sum else 0
  | none => 0

theorem visibleLines_sum (f : Line → Nat) (column : ResumeColumn) :
    ((visibleLines rt document column).map f).sum =
    (column.sectionIds.map (sectionWeight rt document f)).sum := by
  rw [visibleLines, sum_map_flatMap]
  refine congrArg List.sum (List.map_congr_left fun id _ => ?_)
  rw [sectionWeight]
  cases findBlock document id with
  | none => rfl
  | some block => cases visible : block.visible <;> simp [visible]

theorem references_perm (passes : Passes document.checks) : document.references.Perm document.blockIds := by
  obtain ⟨ids, references, referenced⟩ := layout_checks passes
  refine (List.perm_ext_iff_of_nodup references ids).mpr fun id => ⟨fun inside => ?_, referenced id⟩
  obtain ⟨place, column, found, inColumn⟩ := reference_place inside
  obtain ⟨page, row, onPage, onRow, inRow⟩ := columnAt_some found
  obtain ⟨block, here⟩ := findBlock_reference passes (List.mem_of_getElem? onPage)
    (List.mem_of_getElem? onRow)
    (List.mem_of_getElem? inRow) inColumn
  obtain ⟨member, named⟩ := findBlock_some here
  exact named ▸ List.mem_map_of_mem member

theorem sources_weight (passes : Passes document.checks) (f : Line → Nat) :
    ((sourcesOf rt document).map (rowsWeight f)).sum = linesWeight rt document f := by
  have rows : ((sourcesOf rt document).map (rowsWeight f)).sum =
      (document.references.map (sectionWeight rt document f)).sum := by
    simp only [sourcesOf, List.map_map, ResumeDocument.references, ResumePage.columns, sum_map_flatMap]
    refine congrArg List.sum (List.map_congr_left fun page _ => ?_)
    simp only [Function.comp_apply, rowsWeight, List.map_map]
    refine congrArg List.sum (List.map_congr_left fun row _ => ?_)
    simp only [Function.comp_apply, PageRow.weight, sourceRow, List.map_map]
    exact congrArg List.sum (List.map_congr_left fun column _ => visibleLines_sum f column)
  have found : ∀ block ∈ document.blocks, sectionWeight rt document f block.id =
      if block.visible then ((blockLines rt block (maxChars document (pageSize document).1)).map f).sum
          else 0 := by
    intro block member
    rw [sectionWeight, findBlock_unique (layout_checks passes).1 member]
  have kept : ∀ blocks : List ResumeBlock, (blocks.map fun block =>
        if block.visible then ((blockLines rt block (maxChars document (pageSize document).1)).map f).sum
          else 0).sum =
      ((blocks.filter (·.visible)).map fun block =>
        ((blockLines rt block (maxChars document (pageSize document).1)).map f).sum).sum := by
    intro blocks
    induction blocks with
    | nil => rfl
    | cons block blocks ih =>
      rw [List.map_cons, List.sum_cons, ih, List.filter_cons]
      split
      · rw [List.map_cons, List.sum_cons]
      · rw [Nat.zero_add]
  rw [rows, ((references_perm passes).map _).sum_eq, ResumeDocument.blockIds, List.map_map, linesWeight,
    unhiddenBlocks, ← kept]
  exact congrArg List.sum (List.map_congr_left found)

theorem linesWeight_add (f g : Line → Nat) :
    linesWeight rt document (fun line => f line + g line) = linesWeight rt document f +
      linesWeight rt document g := by
  simp only [linesWeight, List.sum_map_add]

theorem linesWeight_mul (k : Nat) :
    linesWeight rt document (fun _ => k) = k * linesWeight rt document fun _ => 1 := by
  have sums : ∀ blocks : List ResumeBlock, ∀ count : ResumeBlock → Nat,
      (blocks.map fun block => k * count block).sum = k * (blocks.map count).sum := by
    intro blocks count
    induction blocks with
    | nil => rfl
    | cons block blocks ih => rw [List.map_cons, List.sum_cons, ih, List.map_cons, List.sum_cons, Nat.mul_add]
  simp only [linesWeight, List.map_const', List.sum_replicate, nsmul_eq_mul, Nat.cast_id, mul_one,
    Nat.mul_comm _ k, sums]

theorem height_le_weight {ω : Type} {row : PageRow ω} (columns : row.columns ≠ []) :
    row.height ≤ row.weight fun _ => 1 := by
  have sums : ∀ lengths : List Nat, lengths.foldr max 0 ≤ lengths.sum := by
    intro lengths
    induction lengths with
    | nil => exact Nat.le_refl _
    | cons length lengths ih =>
      rw [List.foldr_cons, List.sum_cons]
      omega
  rw [PageRow.height, if_neg (by simpa using columns), PageRow.weight]
  simpa using sums (row.columns.map (·.2.length))

theorem rowsCost_le {ω : Type} {rows : List (PageRow ω)} (columns : ∀ row ∈ rows, row.columns ≠ []) :
    rowsCost rows ≤ rowsWeight (fun _ => 1) rows + rows.length := by
  rw [rowsCost, sum_map_const_add, Nat.one_mul]
  exact Nat.add_le_add_right (List.sum_le_sum fun row member => height_le_weight (columns row member)) _

theorem row_columns (valid : document.Valid rt) {page : ResumePage} {row : ResumeRow}
    (onPage : page ∈ document.pages) (onRow : row ∈ page.rows) :
    1 ≤ row.columns.length ∧ row.columns.length ≤ 4 ∧
      ∀ column ∈ row.columns, 0 < column.width.val ∧ column.width.val ≤ 1 := by
  have rowValid := (valid.pages page onPage).rows row onRow
  have counts : 1 ≤ row.columns.length ∧ row.columns.length ≤ 4 := by
    have check := rowValid.checks (counted 1 4 row.columns "columns".toList) (by simp [ResumeRow.checks])
    simpa [counted] using check
  refine ⟨counts.1, counts.2, fun column inRow => ?_⟩
  have check := rowValid.columns column inRow (asUnitInterval column.width "width".toList)
    (by simp [ResumeColumn.checks])
  simpa [asUnitInterval] using check

theorem sources_length (valid : document.Valid rt) :
    (sourcesOf rt document).length ≤ 10 ∧ ((sourcesOf rt document).map List.length).sum ≤ 80 := by
  have pages : document.pages.length ≤ 10 := by
    have check := valid.checks (counted 1 10 document.pages "pages".toList) (by simp [ResumeDocument.checks])
    simp only [counted, decide_eq_true_eq] at check
    exact check.2
  have rows : ∀ size ∈ (sourcesOf rt document).map List.length, size ≤ 8 := by
    intro size member
    simp only [sourcesOf, List.map_map, List.mem_map, Function.comp_apply, List.length_map] at member
    obtain ⟨page, onPage, rfl⟩ := member
    have check := (valid.pages page onPage).checks (counted 1 8 page.rows "rows".toList)
      (by simp [ResumePage.checks])
    simp only [counted, decide_eq_true_eq] at check
    exact check.2
  have sum := List.sum_le_card_nsmul _ 8 rows
  rw [nsmul_eq_mul, Nat.cast_id, List.length_map] at sum
  have count : (sourcesOf rt document).length = document.pages.length := List.length_map _
  omega

theorem page_count (valid : document.Valid rt) :
    26 * (paginate (availableLines document (pageSize document).2) (sourcesOf rt document)).length ≤
      linesWeight rt document (fun _ => 1) + 340 := by
  have several := availableLines_ge valid.style
  obtain ⟨pages, rows⟩ := sources_length valid
  have cost : ((sourcesOf rt document).map rowsCost).sum ≤ linesWeight rt document (fun _ => 1) + 80 := by
    have each : ((sourcesOf rt document).map rowsCost).sum ≤
        ((sourcesOf rt document).map fun rows => rowsWeight (fun _ => 1) rows + rows.length).sum := by
      refine List.sum_le_sum fun rows member => rowsCost_le fun row inside => ?_
      obtain ⟨page, onPage, rfl⟩ := List.mem_map.mp member
      obtain ⟨original, onRow, rfl⟩ := List.mem_map.mp inside
      have some_column := (row_columns valid onPage onRow).1
      intro none
      rw [sourceRow, List.map_eq_nil_iff] at none
      simp [none] at some_column
    rw [List.sum_map_add, sources_weight valid.checks] at each
    omega
  have count := paginate_count (show 0 < availableLines document (pageSize document).2 by omega)
    (sourcesOf rt document)
  generalize (paginate (availableLines document (pageSize document).2) (sourcesOf rt document)).length =
    n at count ⊢
  generalize (sourcesOf rt document).length = p at count pages
  obtain ⟨a, same⟩ := Int.eq_ofNat_of_zero_le
    (show 0 ≤ availableLines document (pageSize document).2 - 27 by omega)
  have precise : availableLines document (pageSize document).2 - 1 = 26 + a := by omega
  rw [precise] at count
  -- a page more than the source pages needs at least 26 further lines
  by_cases more : n ≤ p
  · omega
  · have apart : (26 : Int) * (n - p) ≤ (26 + a) * (n - p) :=
      Int.mul_le_mul_of_nonneg_right (by omega) (by omega)
    have spread : (26 + (a : Int)) * n = (26 + a) * p + (26 + a) * (n - p) := by ring
    omega

end Layout

section Files

theorem pages_regular (valid : document.Valid rt) :
    ∀ page ∈ paginate (availableLines document (pageSize document).2) (sourcesOf rt document), ∀ row ∈ page,
      RegularWidths row.labels := by
  intro page member
  obtain ⟨rows, source, labels⟩ := labels_paginate _ _ page member
  obtain ⟨original, onPage, rfl⟩ := List.mem_map.mp source
  refine labels RegularWidths fun row inside => ?_
  obtain ⟨originalRow, onRow, rfl⟩ := List.mem_map.mp inside
  obtain ⟨_, few, widths⟩ := row_columns valid onPage onRow
  refine ⟨by simpa [sourceRow, PageRow.labels] using few, fun width named => ?_⟩
  simp only [sourceRow, PageRow.labels, List.map_map, List.mem_map, Function.comp_apply] at named
  obtain ⟨column, inRow, rfl⟩ := named
  exact ⟨(widths column inRow).1.le, (widths column inRow).2⟩

theorem renderDocumentPdf_pages (valid : document.Valid rt) {pages : List (List (PageRow Double))}
    (paged : pages = paginate (availableLines document (pageSize document).2) (sourcesOf rt document)) :
    renderDocumentPdf rt document =
      some (writeFile ((pdfObjects 1 document (pages.map (pageStream document))).map Indirect.body)
      (catalogNumber 1 (pages.map (pageStream document)))) := by
  refine renderDocumentPdf_writeFile ?_
  rw [pageStreams, paginateRows_accepted valid, ← paged]
  rfl

theorem pdf_length_le (valid : document.Valid rt) (within : drawnBudget rt document ≤ 12 * 10 ^ 6) :
    ∃ pdf, renderDocumentPdf rt document = some pdf ∧ pdf.length ≤ drawnBudget rt document := by
  obtain ⟨pages, paged⟩ : ∃ pages, pages = paginate (availableLines document (pageSize document).2)
      (sourcesOf rt document) :=
    ⟨_, rfl⟩
  have count := page_count valid
  have weight := paginate_weight (fun line => 50 + textBytes line)
    (availableLines document (pageSize document).2) (sourcesOf rt document)
  have regular := pages_regular valid
  have lengths : ∀ page ∈ pages, (pageStream document page).length ≤ 30 + rowsWeight (fun line =>
      50 + textBytes line) page := by
    intro page member
    rw [paged] at member
    exact pageStream_length_le valid.style member (regular page member)
  rw [← paged] at count weight
  rw [sources_weight valid.checks] at weight
  have budget : drawnBudget rt document = 4200 + (linesWeight rt document (fun line => 50 + textBytes line) +
      12 * linesWeight rt document fun _ => 1) := by
    rw [drawnBudget, ← linesWeight_mul, ← linesWeight_add]
    refine congrArg (4200 + linesWeight rt document ·) (funext fun line => ?_)
    omega
  have parts : linesWeight rt document (fun line => 50 + textBytes line) =
      50 * linesWeight rt document (fun _ => 1) + linesWeight rt document textBytes := by
    rw [← linesWeight_mul, ← linesWeight_add]
  have total : ((pages.map (pageStream document)).map fun stream : Bytes => stream.length + 260).sum ≤
      linesWeight rt document (fun line => 50 + textBytes line) + 290 * pages.length := by
    rw [List.map_map, ← weight, ← sum_map_const_add]
    refine List.sum_le_sum fun page member => ?_
    have one := lengths page member
    exact show (pageStream document page).length + 260 ≤ rowsWeight (fun line => 50 + textBytes line) page +
      290 by omega
  have small : ∀ stream ∈ pages.map (pageStream document), stream.length < 10 ^ 8 := by
    intro stream member
    have one := List.single_le_sum (fun size _ => Nat.zero_le size) (stream.length + 260)
      (List.mem_map_of_mem (f := fun stream : Bytes => stream.length + 260) member)
    omega
  have file := @file_length_le document (pages.map (pageStream document)) (by rw [List.length_map]; omega)
    small (by omega)
  exact ⟨_, renderDocumentPdf_pages valid paged, by omega⟩

theorem pdf_length_ge (valid : document.Valid rt) :
    ∃ pdf, renderDocumentPdf rt document = some pdf ∧ 45 * linesWeight rt document (fun _ => 1) ≤
      pdf.length := by
  refine ⟨_, renderDocumentPdf_pages valid rfl, ?_⟩
  have weight := paginate_weight (fun _ => 45) (availableLines document (pageSize document).2)
    (sourcesOf rt document)
  rw [sources_weight valid.checks] at weight
  rw [← linesWeight_mul, ← weight]
  refine le_trans ?_ (file_length_ge document _)
  rw [List.map_map]
  exact List.sum_le_sum fun page _ => pageStream_length_ge page

end Files

end ManifestCV.Render
