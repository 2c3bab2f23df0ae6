import ManifestCV.Foundation.Boxes
import ManifestCV.Render.Margins
import ManifestCV.Render.PageBreaks
import ManifestCV.Render.StreamSize

namespace ManifestCV.Render

open Foundation Document

variable {ω : Type}

def Draw.box (document : ResumeDocument) (draw : Draw ω) : Box ℚ :=
  ⟨draw.x, draw.y, 5 * draw.text.length, document.style.fontSize.val⟩

structure PageColumn (ω : Type) where
  left : Int
  width : Int
  draws : List (Draw ω)

section Columns

variable (document : ResumeDocument) (width : ω → Double)

def rowColumns (x y : Int) : List (ω × List Line) → List (PageColumn ω)
  | [] => []
  | column :: columns =>
    ⟨x, columnWidth document width column.1, columnDraws document column.1 x y column.2⟩ ::
      rowColumns (x + columnWidth document width column.1) y columns

def rowsColumns (y : Int) : List (PageRow ω) → List (PageColumn ω)
  | [] => []
  | row :: rows =>
    rowColumns document width (margin document) y row.columns ++
      rowsColumns (y - (row.height * lineHeight document + lineHeight document)) rows

def pageColumns (rows : List (PageRow ω)) : List (PageColumn ω) :=
  rowsColumns document width ((pageSize document).2 - margin document) rows

/-- Lines keep apart, each inside its column, and the columns between the left and the right margin. -/
structure KeepsApart (rows : List (PageRow ω)) : Prop where
  apart : (pageDraws document width rows).Pairwise fun a b => (a.box document).Apart (b.box document)
  inside : ∀ column ∈ pageColumns document width rows, ∀ draw ∈ column.draws,
    (draw.box document).region ⊆ Box.strip (column.left : ℚ) (column.left + column.width)
  within : ∀ column ∈ pageColumns document width rows,
    margin document ≤ column.left ∧ column.left + column.width ≤ (pageSize document).1 - margin document

def PageRow.IsNarrow (row : PageRow ω) : Prop :=
  ∀ column ∈ row.columns, ∀ line ∈ column.2, 5 * (line.text.take 180).length ≤
    columnWidth document width column.1

def LabelsFit (labels : List ω) : Prop :=
  margin document + (labels.map (columnWidth document width)).sum ≤ (pageSize document).1 - margin document

end Columns

def Touching (lines : List Line) (i : Nat) : Prop :=
  ∃ above below, lines[i]? = some above ∧ lines[i + 1]? = some below ∧ above.text ≠ [] ∧ below.text ≠ []

def PageRow.IsSpaced (row : PageRow ω) : Prop := ∀ column ∈ row.columns, ∀ i, ¬ Touching column.2 i

section Places

variable (document : ResumeDocument) (width : ω → Double)

theorem columnDraws_mapIdx (column : ω) (x y : Int) (lines : List Line) :
    columnDraws document column x y lines = lines.mapIdx fun i line =>
      ⟨column, x, y - i * lineHeight document, line⟩ := by
  induction lines generalizing y with
  | nil => rfl
  | cons line lines ih =>
    rw [columnDraws, ih, List.mapIdx_cons]
    congr 1
    · simp
    · congr 1
      funext i line
      congr 1
      push_cast
      ring

theorem pageDraws_columns (rows : List (PageRow ω)) :
    pageDraws document width rows = (pageColumns document width rows).flatMap (·.draws) := by
  have inRow : ∀ x y columns, rowDraws document width x y columns =
      (rowColumns document width x y columns).flatMap (·.draws) := by
    intro x y columns
    induction columns generalizing x with
    | nil => rfl
    | cons column columns ih => rw [rowDraws, rowColumns, List.flatMap_cons, ih]
  have onPage : ∀ y, rowsDraws document width y rows = (rowsColumns document width y rows).flatMap
      (·.draws) := by
    induction rows with
    | nil => exact fun _ => rfl
    | cons row rows ih =>
      intro y
      rw [rowsDraws, rowsColumns, List.flatMap_append, inRow, ih]
  exact onPage _

theorem mem_rowColumns {x y : Int} {columns : List (ω × List Line)} {column : PageColumn ω}
    (member : column ∈ rowColumns document width x y columns) : x ≤ column.left ∧ ∃ entry ∈ columns,
      column = ⟨column.left, columnWidth document width entry.1,
        columnDraws document entry.1 column.left y entry.2⟩ := by
  induction columns generalizing x with
  | nil => cases member
  | cons entry columns ih =>
    rcases List.mem_cons.mp member with rfl | member
    · exact ⟨le_refl _, entry, List.mem_cons_self, rfl⟩
    · have wide : 40 ≤ columnWidth document width entry.1 := le_max_left _ _
      obtain ⟨further, other, inside, same⟩ := ih member
      exact ⟨by omega, other, List.mem_cons_of_mem _ inside, same⟩

theorem rowColumns_mem (x y : Int) {columns : List (ω × List Line)} {entry : ω × List Line}
    (member : entry ∈ columns) :
    ∃ left, ⟨left, columnWidth document width entry.1, columnDraws document entry.1 left y entry.2⟩ ∈
      rowColumns document width x y columns := by
  induction columns generalizing x with
  | nil => cases member
  | cons first columns ih =>
    rcases List.mem_cons.mp member with rfl | member
    · exact ⟨x, List.mem_cons_self⟩
    · obtain ⟨left, inside⟩ := ih (x + columnWidth document width first.1) member
      exact ⟨left, List.mem_cons_of_mem _ inside⟩

theorem mem_rowsColumns {y : Int} {rows : List (PageRow ω)} {column : PageColumn ω} :
    column ∈ rowsColumns document width y rows → ∃ row ∈ rows, ∃ top, column ∈ rowColumns document width
      (margin document) top row.columns := by
  induction rows generalizing y with
  | nil => exact fun member => nomatch member
  | cons row rows ih =>
    intro member
    rcases List.mem_append.mp member with member | member
    · exact ⟨row, List.mem_cons_self, y, member⟩
    · obtain ⟨other, inside, top, there⟩ := ih member
      exact ⟨other, List.mem_cons_of_mem _ inside, top, there⟩

theorem rowsColumns_mem (y : Int) {rows : List (PageRow ω)} {row : PageRow ω} (member : row ∈ rows) :
    ∃ top, ∀ column ∈ rowColumns document width (margin document) top row.columns,
      column ∈ rowsColumns document width y rows := by
  induction rows generalizing y with
  | nil => cases member
  | cons first rows ih =>
    rcases List.mem_cons.mp member with rfl | member
    · exact ⟨y, fun column inside => List.mem_append_left _ inside⟩
    · obtain ⟨top, all⟩ := ih _ member
      exact ⟨top, fun column inside => List.mem_append_right _ (all column inside)⟩

/-- A property of a page's columns is one of the entries of its rows, where the place does not matter. -/
theorem forall_pageColumns {good : PageColumn ω → Prop} {fine : ω × List Line → Prop}
    (rows : List (PageRow ω))
    (same : ∀ entry left top,
      good ⟨left, columnWidth document width entry.1, columnDraws document entry.1 left top entry.2⟩ ↔
      fine entry) :
    (∀ column ∈ pageColumns document width rows, good column) ↔ ∀ row ∈ rows, ∀ entry ∈ row.columns,
    fine entry := by
  constructor
  · intro all row member entry inside
    obtain ⟨top, onPage⟩ := rowsColumns_mem document width ((pageSize document).2 - margin document) member
    obtain ⟨left, inRow⟩ := rowColumns_mem document width (margin document) top inside
    exact (same entry left top).mp (all _ (onPage _ inRow))
  · intro all column member
    obtain ⟨row, inside, top, inRow⟩ := mem_rowsColumns document width member
    obtain ⟨_, entry, onRow, shape⟩ := mem_rowColumns document width inRow
    rw [shape]
    exact (same entry _ top).mpr (all row inside entry onRow)

end Places

section Apart

variable (document : ResumeDocument) (width : ω → Double)

theorem text_nonempty {ω : Type} (draw : Draw ω) : draw.line.text ≠ [] ↔ 0 < (draw.box document).width := by
  have width : (draw.box document).width = 5 * (min 180 draw.line.text.length : Nat) := by
    rw [Draw.box, Draw.text, List.length_take]
  rw [width, ← List.length_pos_iff]
  constructor
  · intro some_text
    have positive : 0 < min 180 draw.line.text.length := by omega
    have cast : (0 : ℚ) < (min 180 draw.line.text.length : Nat) := by exact_mod_cast positive
    linarith
  · intro wide
    by_contra none
    have zero : min 180 draw.line.text.length = 0 := by omega
    rw [zero] at wide
    norm_num at wide

theorem no_text (draw : Draw ω) : draw.line.text = [] ↔ (draw.box document).width = 0 := by
  have least : 0 ≤ (draw.box document).width := by
    rw [Draw.box]
    positivity
  have shown := text_nonempty document draw
  rw [← not_iff_not]
  exact ⟨fun some_text => (ne_of_lt (shown.mp some_text)).symm, fun wide =>
    shown.mpr (lt_of_le_of_ne least (Ne.symm wide))⟩

/-- Lines two or more apart never overlap; of two neighbours one must be empty when the font is higher than a
    line. -/
theorem below_apart (passes : Passes document.style.checks) {above below : Draw ω} {d : Nat}
    (positive : 0 < d) (column : above.x = below.x) (distance : below.y = above.y - d * lineHeight document) :
    (above.box document).Apart (below.box document) ↔
      ((lineHeight document : ℚ) < document.style.fontSize.val → d = 1 → above.line.text = [] ∨
        below.line.text = []) := by
  obtain ⟨least, most⟩ := style_fontSize passes
  have step : (9 : ℚ) ≤ lineHeight document := by exact_mod_cast lineHeight_pos document
  have lower : (below.y : ℚ) = above.y - d * lineHeight document := by
    rw [distance]
    push_cast
    rfl
  constructor
  · intro apart tight neighbours
    by_contra both
    rw [not_or] at both
    rw [neighbours, Nat.cast_one, one_mul] at lower
    refine Box.not_apart ?_ ((text_nonempty document _).mp both.1) ((text_nonempty document _).mp both.2)
      ?_ ?_ ?_ apart
    · show (above.x : ℚ) = below.x
      rw [column]
    · show (0 : ℚ) < document.style.fontSize.val
      linarith
    · show (below.y : ℚ) ≤ above.y
      linarith
    · show (above.y : ℚ) < below.y + document.style.fontSize.val
      linarith
  · intro spaced
    have one : (1 : ℚ) ≤ d := by exact_mod_cast positive
    by_cases loose : document.style.fontSize.val ≤ d * (lineHeight document : ℚ)
    · apply Box.apart_of_above
      show (below.y : ℚ) + document.style.fontSize.val ≤ above.y
      linarith
    · have neighbours : d = 1 := by
        by_contra further
        have two : (2 : ℚ) ≤ d := by exact_mod_cast (show 2 ≤ d by omega)
        apply loose
        nlinarith
      have tight : (lineHeight document : ℚ) < document.style.fontSize.val := by
        rw [neighbours, Nat.cast_one, one_mul, not_le] at loose
        exact loose
      refine Box.apart_of_thin ((spaced tight neighbours).imp ?_ ?_)
      · exact (no_text document above).mp
      · exact (no_text document below).mp

theorem columnDraws_apart (passes : Passes document.style.checks) (column : ω) (x y : Int)
    (lines : List Line) :
    ((columnDraws document column x y lines).Pairwise fun a b => (a.box document).Apart (b.box document)) ↔
      ((lineHeight document : ℚ) < document.style.fontSize.val → ∀ i, ¬ Touching lines i) := by
  rw [columnDraws_mapIdx, List.pairwise_iff_getElem]
  simp only [List.length_mapIdx, List.getElem_mapIdx]
  have pair : ∀ i j (insideI : i < lines.length) (insideJ : j < lines.length), i < j →
      ((Draw.box document ⟨column, x, y - i * lineHeight document, lines[i]⟩).Apart
        (Draw.box document ⟨column, x, y - j * lineHeight document, lines[j]⟩) ↔
      ((lineHeight document : ℚ) < document.style.fontSize.val → j - i = 1 → lines[i].text = [] ∨
          lines[j].text = [])) := by
    intro i j insideI insideJ before
    refine below_apart document passes (by omega) rfl ?_
    show y - j * lineHeight document = y - i * lineHeight document - (j - i : Nat) * lineHeight document
    rw [Nat.cast_sub (le_of_lt before)]
    ring
  constructor
  · rintro apart tight i ⟨above, below, foundAbove, foundBelow, textAbove, textBelow⟩
    obtain ⟨insideAbove, rfl⟩ := List.getElem?_eq_some_iff.mp foundAbove
    obtain ⟨insideBelow, rfl⟩ := List.getElem?_eq_some_iff.mp foundBelow
    have one := (pair i (i + 1) insideAbove insideBelow (Nat.lt_succ_self i)).mp
      (apart i (i + 1) insideAbove insideBelow (Nat.lt_succ_self i)) tight (by omega)
    exact one.elim textAbove textBelow
  · intro spaced i j insideI insideJ before
    refine (pair i j insideI insideJ before).mpr fun tight neighbours => ?_
    obtain rfl : j = i + 1 := by omega
    by_contra both
    rw [not_or] at both
    exact spaced tight i ⟨_, _, List.getElem?_eq_getElem insideI, List.getElem?_eq_getElem insideJ,
      both.1, both.2⟩

end Apart

section Pages

variable (document : ResumeDocument) (width : ω → Double)

theorem rowColumns_beside (x y : Int) (columns : List (ω × List Line)) :
    (rowColumns document width x y columns).Pairwise fun a b => a.left + a.width ≤ b.left := by
  induction columns generalizing x with
  | nil => exact .nil
  | cons entry columns ih => exact .cons (fun other member => (mem_rowColumns document width member).1) (ih _)

theorem rowColumns_floor {x y : Int} {row : PageRow ω} {column : PageColumn ω} {draw : Draw ω}
    (member : column ∈ rowColumns document width x y row.columns) (drawn : draw ∈ column.draws) :
    y - row.height * lineHeight document + lineHeight document ≤ draw.y := by
  obtain ⟨_, entry, inside, shape⟩ := mem_rowColumns document width member
  rw [shape, columnDraws_mapIdx] at drawn
  obtain ⟨i, short, rfl⟩ := List.mem_mapIdx.mp drawn
  have positive := lineHeight_pos document
  have tall := row.length_le_height entry inside
  have steps : (i : Int) + 1 ≤ row.height := by exact_mod_cast (show i + 1 ≤ row.height by omega)
  have down := Int.mul_le_mul_of_nonneg_right steps (show 0 ≤ lineHeight document by omega)
  rw [Int.add_mul, Int.one_mul] at down
  show _ ≤ y - i * lineHeight document
  omega

theorem rowsColumns_below {y : Int} {rows : List (PageRow ω)} {column : PageColumn ω} {draw : Draw ω}
    (member : column ∈ rowsColumns document width y rows) (drawn : draw ∈ column.draws) : draw.y ≤ y := by
  have positive := lineHeight_pos document
  induction rows generalizing y with
  | nil => cases member
  | cons row rows ih =>
    rcases List.mem_append.mp member with member | member
    · obtain ⟨_, entry, _, shape⟩ := mem_rowColumns document width member
      rw [shape] at drawn
      exact (columnDraws_band document _ _ _ _ draw drawn).1
    · have lower := ih member
      have grow : 0 ≤ (row.height : Int) * lineHeight document := Int.mul_nonneg (by omega) (by omega)
      omega

theorem rowsColumns_beside (y : Int) (rows : List (PageRow ω)) :
    (rowsColumns document width y rows).Pairwise fun a b => a.left + a.width ≤ b.left ∨
      ∀ above ∈ a.draws, ∀ below ∈ b.draws, below.y + 2 * lineHeight document ≤ above.y := by
  induction rows generalizing y with
  | nil => exact .nil
  | cons row rows ih =>
    refine List.pairwise_append.mpr ⟨(rowColumns_beside document width _ y row.columns).imp .inl, ih _, ?_⟩
    intro first inFirst second inSecond
    refine .inr fun above drawnAbove below drawnBelow => ?_
    have floor := rowColumns_floor document width inFirst drawnAbove
    have top := rowsColumns_below document width inSecond drawnBelow
    omega

theorem forall_draws (column : ω) (left top : Int) (lines : List Line) (fine : Line → Prop) :
    (∀ draw ∈ columnDraws document column left top lines, fine draw.line) ↔ ∀ line ∈ lines, fine line := by
  have same := columnDraws_lines document column left top lines
  constructor
  · intro all line member
    rw [← same] at member
    obtain ⟨draw, drawn, rfl⟩ := List.mem_map.mp member
    exact all draw drawn
  · intro all draw drawn
    refine all draw.line ?_
    rw [← same]
    exact List.mem_map_of_mem drawn

theorem narrow_columns (rows : List (PageRow ω)) :
    (∀ column ∈ pageColumns document width rows, ∀ draw ∈ column.draws,
    draw.x = column.left ∧ 5 * (draw.text.length : Int) ≤ column.width) ↔ ∀ row ∈ rows,
      row.IsNarrow document width := by
  refine forall_pageColumns document width rows fun entry left top => ?_
  have places := columnDraws_x document entry.1 left top entry.2
  refine Iff.trans ?_ (forall_draws document entry.1 left top entry.2 fun line =>
    5 * ((line.text.take 180).length : Int) ≤ columnWidth document width entry.1)
  exact forall_congr' fun draw => imp_congr_right fun drawn => and_iff_right (places draw drawn)

/-- On a page whose lines stay inside their columns, lines overlap only below each other. -/
theorem pageDraws_apart (passes : Passes document.style.checks) {rows : List (PageRow ω)}
    (narrow : ∀ row ∈ rows, row.IsNarrow document width) :
    ((pageDraws document width rows).Pairwise fun a b => (a.box document).Apart (b.box document)) ↔
      ((lineHeight document : ℚ) < document.style.fontSize.val → ∀ row ∈ rows, row.IsSpaced) := by
  obtain ⟨_, most⟩ := style_fontSize passes
  have step : (9 : ℚ) ≤ lineHeight document := by exact_mod_cast lineHeight_pos document
  have columns : (∀ column ∈ pageColumns document width rows, column.draws.Pairwise fun a b =>
    (a.box document).Apart (b.box document)) ↔
      ∀ row ∈ rows, ∀ entry ∈ row.columns, (lineHeight document : ℚ) < document.style.fontSize.val →
          ∀ i, ¬ Touching entry.2 i :=
    forall_pageColumns document width rows fun entry left top =>
      columnDraws_apart document passes entry.1 left top entry.2
  have slim := (narrow_columns document width rows).mpr narrow
  have between : (pageColumns document width rows).Pairwise fun a b =>
      ∀ above ∈ a.draws, ∀ below ∈ b.draws, (above.box document).Apart (below.box document) := by
    refine (rowsColumns_beside document width _ rows).imp_of_mem ?_
    intro first second inFirst inSecond beside above drawnAbove below drawnBelow
    obtain ⟨placeAbove, fits⟩ := slim first inFirst above drawnAbove
    obtain ⟨placeBelow, _⟩ := slim second inSecond below drawnBelow
    rcases beside with right | lower
    · apply Box.apart_of_left
      show (above.x : ℚ) + 5 * above.text.length ≤ below.x
      exact_mod_cast (show above.x + 5 * (above.text.length : Int) ≤ below.x by omega)
    · have gap : (below.y : ℚ) + 2 * lineHeight document ≤ above.y :=
        by exact_mod_cast lower above drawnAbove below drawnBelow
      apply Box.apart_of_above
      show (below.y : ℚ) + document.style.fontSize.val ≤ above.y
      linarith
  rw [pageDraws_columns, List.pairwise_flatMap, and_iff_left between, columns]
  constructor
  · exact fun all tight row member entry inside => all row member entry inside tight
  · exact fun all row member entry inside tight => all tight row member entry inside

theorem rowColumns_within {x y right : Int} {columns : List (ω × List Line)} (start : x ≤ right) :
    (∀ column ∈ rowColumns document width x y columns, column.left + column.width ≤ right) ↔
      x + ((columns.map (·.1)).map (columnWidth document width)).sum ≤ right := by
  induction columns generalizing x with
  | nil => simpa [rowColumns] using start
  | cons entry columns ih =>
    have sum : x + (((entry :: columns).map (·.1)).map (columnWidth document width)).sum =
        x + columnWidth document width entry.1 +
            ((columns.map (·.1)).map (columnWidth document width)).sum := by
      rw [List.map_cons, List.map_cons, List.sum_cons, Int.add_assoc]
    have nonneg : 0 ≤ ((columns.map (·.1)).map (columnWidth document width)).sum := by
      refine List.sum_nonneg fun n member => ?_
      obtain ⟨label, _, rfl⟩ := List.mem_map.mp member
      exact le_trans (by decide) (le_max_left 40 _)
    rw [rowColumns, List.forall_mem_cons, sum]
    constructor
    · rintro ⟨first, others⟩
      exact (ih first).mp others
    · intro whole
      have first : x + columnWidth document width entry.1 ≤ right := by omega
      exact ⟨first, (ih first).mpr whole⟩

theorem rows_within (passes : Passes document.style.checks) (rows : List (PageRow ω)) :
    (∀ column ∈ pageColumns document width rows,
      margin document ≤ column.left ∧ column.left + column.width ≤ (pageSize document).1 - margin document) ↔
      ∀ row ∈ rows, LabelsFit document width row.labels := by
  have narrow := margin_le passes
  have wide : 595 ≤ (pageSize document).1 := by
    unfold pageSize
    split <;> decide
  have start : margin document ≤ (pageSize document).1 - margin document := by omega
  constructor
  · intro all row member
    obtain ⟨top, onPage⟩ := rowsColumns_mem document width ((pageSize document).2 - margin document) member
    exact (rowColumns_within document width start).mp fun column inRow => (all column (onPage column inRow)).2
  · intro all column member
    obtain ⟨row, inside, top, inRow⟩ := mem_rowsColumns document width member
    refine ⟨(mem_rowColumns document width inRow).1, ?_⟩
    exact (rowColumns_within document width start).mpr (all row inside) column inRow

theorem rows_inside (passes : Passes document.style.checks) (rows : List (PageRow ω)) :
    (∀ column ∈ pageColumns document width rows, ∀ draw ∈ column.draws,
      (draw.box document).region ⊆ Box.strip (column.left : ℚ) (column.left + column.width)) ↔
      ∀ row ∈ rows, row.IsNarrow document width := by
  have tall : 0 < document.style.fontSize.val := lt_of_lt_of_le (by norm_num) (style_fontSize passes).1
  rw [← narrow_columns]
  refine forall_congr' fun column => imp_congr_right fun member => forall_congr' fun draw =>
    imp_congr_right fun drawn => ?_
  obtain ⟨row, _, top, inRow⟩ := mem_rowsColumns document width member
  obtain ⟨_, entry, _, shape⟩ := mem_rowColumns document width inRow
  have place : draw.x = column.left := by
    rw [shape] at drawn
    exact columnDraws_x document _ _ _ _ draw drawn
  have wide : 40 ≤ column.width := by
    rw [shape]
    exact le_max_left _ _
  have inside := (draw.box document).region_subset_strip tall
    (show (0 : ℚ) ≤ column.width by exact_mod_cast (by omega : 0 ≤ column.width))
  have left : (draw.box document).left = column.left := congrArg Int.cast place
  rw [left] at inside
  rw [inside, and_iff_right place]
  show (5 * draw.text.length : ℚ) ≤ column.width ↔ _
  norm_cast

theorem keepsApart_iff (passes : Passes document.style.checks) (rows : List (PageRow ω)) :
    KeepsApart document width rows ↔ (∀ row ∈ rows, row.IsNarrow document width) ∧
      (∀ row ∈ rows, LabelsFit document width row.labels) ∧
      ((lineHeight document : ℚ) < document.style.fontSize.val → ∀ row ∈ rows, row.IsSpaced) := by
  have inside := rows_inside document width passes rows
  have within := rows_within document width passes rows
  constructor
  · rintro ⟨apart, stays, margins⟩
    have narrow := inside.mp stays
    exact ⟨narrow, within.mp margins, (pageDraws_apart document width passes narrow).mp apart⟩
  · rintro ⟨narrow, fits, spaced⟩
    exact ⟨(pageDraws_apart document width passes narrow).mpr spaced, inside.mpr narrow, within.mpr fits⟩

end Pages

end ManifestCV.Render
