import Mathlib.Algebra.BigOperators.Group.List.Basic
import Mathlib.Algebra.Order.Ring.Rat
import Mathlib.Tactic.Linarith
import ManifestCV.Editor.Operations

namespace ManifestCV.Editor

open Foundation Document

def EditorColumn.Within (column : EditorColumn ℚ) : Prop :=
  column.minWidth ≤ column.width ∧ column.width ≤ column.maxWidth

def EditorRow.Within (row : EditorRow ℚ) : Prop := ∀ column ∈ row.columns, column.Within

def EditorRow.shape (row : EditorRow ℚ) : Str × Nat × ℚ :=
  (row.id, row.columns.length, (row.columns.map (·.width)).sum)

def EditorPage.Extends (before after : EditorPage ℚ) : Prop :=
  ∃ added, after.rows.map (·.shape) = before.rows.map (·.shape) ++ added ∧ ∀ shape ∈ added, shape.2 = (1, 1)

structure Steady (pages pages' : List (EditorPage ℚ)) : Prop where
  extended : List.Forall₂ EditorPage.Extends pages pages'
  within : (∀ page ∈ pages, ∀ row ∈ page.rows, row.Within) → ∀ page ∈ pages', ∀ row ∈ page.rows, row.Within

def SameWidths (column column' : EditorColumn ℚ) : Prop :=
  column'.width = column.width ∧ column'.minWidth = column.minWidth ∧ column'.maxWidth = column.maxWidth

def RowSteady (row row' : EditorRow ℚ) : Prop := row'.shape = row.shape ∧ (row.Within → row'.Within)

theorem SameWidths.refl (column : EditorColumn ℚ) : SameWidths column column := ⟨rfl, rfl, rfl⟩

theorem RowSteady.refl (row : EditorRow ℚ) : RowSteady row row := ⟨rfl, id⟩

theorem EditorPage.Extends.refl (page : EditorPage ℚ) : page.Extends page :=
  ⟨[], (List.append_nil _).symm, fun _ member => nomatch member⟩

theorem Steady.refl (pages : List (EditorPage ℚ)) : Steady pages pages :=
  ⟨List.forall₂_same.mpr fun page _ => .refl page, id⟩

theorem rowSteady_of_columns {row : EditorRow ℚ} {columns : List (EditorColumn ℚ)}
    (each : List.Forall₂ SameWidths row.columns columns) : RowSteady row { row with columns } := by
  refine ⟨?_, ?_⟩
  · have widths : columns.map (·.width) = row.columns.map (·.width) :=
      map_eq_of_forall (each.imp fun _ _ same => same.1)
    simp only [EditorRow.shape, widths, each.length_eq]
  · intro within column member
    obtain ⟨old, inside, width, low, high⟩ := forall_mem_right each member
    rw [EditorColumn.Within, width, low, high]
    exact within old inside

theorem steady_of_rows {pages pages' : List (EditorPage ℚ)}
    (each : List.Forall₂ (fun page page' => List.Forall₂ RowSteady page.rows page'.rows) pages pages') :
    Steady pages pages' := by
  constructor
  · refine each.imp fun page page' rows => ⟨[], ?_, fun _ member => nomatch member⟩
    rw [List.append_nil]
    exact map_eq_of_forall (rows.imp fun _ _ steady => steady.1)
  · intro within page' member row' inside
    obtain ⟨page, pageMember, rows⟩ := forall_mem_right each member
    obtain ⟨row, rowMember, _, kept⟩ := forall_mem_right rows inside
    exact kept (within page pageMember row rowMember)

theorem sameRows (page : EditorPage ℚ) : List.Forall₂ RowSteady page.rows page.rows :=
  List.forall₂_same.mpr fun row _ => .refl row

theorem mapColumns_steady {f : EditorColumn ℚ → EditorColumn ℚ}
    (same : ∀ column, SameWidths column (f column)) (pages : List (EditorPage ℚ)) :
    Steady pages (mapColumns f pages) := by
  apply steady_of_rows
  refine map_forall (fun page => ?_) pages
  refine map_forall (fun row => ?_) page.rows
  exact rowSteady_of_columns (map_forall same row.columns)

theorem modifyColumn_steady {f : EditorColumn ℚ → EditorColumn ℚ}
    (same : ∀ column, SameWidths column (f column)) (pages : List (EditorPage ℚ)) (place : Place) :
    Steady pages (modifyColumn pages place f) := by
  apply steady_of_rows
  refine modify_forall sameRows (fun page => ?_) pages place.1
  refine modify_forall RowSteady.refl (fun row => ?_) page.rows place.2.1
  exact rowSteady_of_columns (modify_forall SameWidths.refl same row.columns place.2.2)

theorem modifyFirstRow_rows {related : EditorRow ℚ → EditorRow ℚ → Prop} (same : ∀ row, related row row)
    {f : EditorRow ℚ → Option (EditorRow ℚ)} (changed : ∀ {row row'}, f row = some row' → related row row')
    {pages pages' : List (EditorPage ℚ)} (done : modifyFirstRow f pages = some pages') :
    List.Forall₂ (fun page page' => List.Forall₂ related page.rows page'.rows) pages pages' := by
  have pageSame : ∀ page : EditorPage ℚ, List.Forall₂ related page.rows page.rows :=
    fun page => List.forall₂_same.mpr fun row _ => same row
  refine modifyFirst_forall pageSame ?_ done
  intro page page' step
  obtain ⟨rows, inner, rfl⟩ := Option.map_eq_some_iff.mp step
  exact modifyFirst_forall same changed inner

theorem setSectionIds_widths (column : EditorColumn ℚ) (sectionIds : List Str) :
    SameWidths column (column.setSectionIds sectionIds) := ⟨rfl, rfl, rfl⟩

theorem swapInColumn_widths (direction : Direction) (column : EditorColumn ℚ) (index : Nat) :
    SameWidths column (EditorDocument.swapInColumn direction column index) := by
  simp only [EditorDocument.swapInColumn]
  split <;> exact ⟨rfl, rfl, rfl⟩

theorem insertAfter_widths (blockId new : Str) (column : EditorColumn ℚ) :
    SameWidths column (EditorDocument.insertAfter blockId new column) := by
  rw [EditorDocument.insertAfter]
  split <;> exact ⟨rfl, rfl, rfl⟩

section Moves

variable {K : Type} {blockId : Str} {direction : Direction} {row row' : EditorRow K}

inductive Moved (blockId : Str) (direction : Direction) (row : EditorRow K) : EditorRow K → Prop
  | stays : Moved blockId direction row row
  | swapped {i column index} (found : row.columns[i]? = some column) : Moved blockId direction row
      { row with columns := row.columns.set i (EditorDocument.swapInColumn direction column index) }
  | beside {i j column target} (apart : j ≠ i) (found : row.columns[i]? = some column)
      (toward : row.columns[j]? = some target)
      (inside : blockId ∈ column.sectionIds) : Moved blockId direction row { row with
        columns := (row.columns.set i (column.setSectionIds (column.sectionIds.erase blockId))).set j
          (target.push blockId) }

theorem beside_moved {i : Nat} {column : EditorColumn K} (found : row.columns[i]? = some column)
    (inside : blockId ∈ column.sectionIds) {neighbor : Option Nat} (apart : ∀ j, neighbor = some j → j ≠ i)
    (moved : (match neighbor.bind fun target => row.columns[target]?.map ((target, ·)) with
      | none => some row
      | some (targetIndex, target) => some { row with
          columns := (row.columns.set i (column.setSectionIds
            (column.sectionIds.eraseIdx (column.sectionIds.idxOf blockId)))).set targetIndex
              (target.push blockId) }) = some row') : Moved blockId direction row row' := by
  split at moved
  · cases moved
    exact .stays
  · rename_i j target chosen
    cases moved
    obtain ⟨j', isNeighbor, there⟩ := Option.bind_eq_some_iff.mp chosen
    obtain ⟨target', atTarget, same⟩ := Option.map_eq_some_iff.mp there
    cases same
    rw [← List.erase_eq_eraseIdx_of_idxOf rfl]
    exact .beside (apart j isNeighbor) found atTarget inside

theorem moveInRow_moved (moved : EditorDocument.moveInRow blockId direction row = some row') :
    Moved blockId direction row row' := by
  rw [EditorDocument.moveInRow] at moved
  split at moved
  · cases moved
  rename_i i atColumn
  obtain ⟨bound, holds, _⟩ := List.findIdx?_eq_some_iff_getElem.mp atColumn
  have found : row.columns[i]? = some row.columns[i] := List.getElem?_eq_getElem bound
  rw [found] at moved
  have inside : blockId ∈ row.columns[i].sectionIds := List.contains_iff_mem.mp holds
  cases direction with
  | up =>
    cases moved
    exact .swapped found
  | down =>
    cases moved
    exact .swapped found
  | left =>
    refine @beside_moved _ _ _ _ _ _ _ found inside (if i = 0 then none else some (i - 1)) ?_ moved
    intro j same
    split at same
    · cases same
    · cases same
      omega
  | right =>
    refine @beside_moved _ _ _ _ _ _ _ found inside (some (i + 1)) ?_ moved
    intro j same
    cases same
    omega

theorem swapInColumn_count (direction : Direction) (column : EditorColumn K) (index : Nat) (x : Str) :
    (EditorDocument.swapInColumn direction column index).sectionIds.count x = column.sectionIds.count x := by
  simp only [EditorDocument.swapInColumn]
  split
  · rename_i here next there atHere chosen
    obtain ⟨next', isNext, there'⟩ := Option.bind_eq_some_iff.mp chosen
    obtain ⟨value, atThere, same⟩ := Option.map_eq_some_iff.mp there'
    cases same
    refine count_swap atHere atThere ?_ x
    rintro rfl
    cases direction with
    | up =>
      simp only at isNext
      split at isNext
      · cases isNext
      · have same := Option.some.inj isNext
        omega
    | _ =>
      have same := Option.some.inj isNext
      omega
  · rfl

theorem Moved.count (moved : Moved blockId direction row row') (x : Str) :
    (row'.columns.flatMap (·.sectionIds)).count x = (row.columns.flatMap (·.sectionIds)).count x := by
  cases moved with
  | stays => rfl
  | swapped found =>
    rename_i i column index
    have change := count_set found (EditorDocument.swapInColumn direction column index) (fun column =>
      column.sectionIds) x
    rw [swapInColumn_count] at change
    exact Nat.add_right_cancel change
  | beside apart found toward inside =>
    rename_i i j column target
    have first := count_set found (column.setSectionIds (column.sectionIds.erase blockId)) (fun column =>
      column.sectionIds) x
    have still : (row.columns.set i (column.setSectionIds (column.sectionIds.erase blockId)))[j]? =
        some target := by
      rw [List.getElem?_set_ne (Ne.symm apart)]
      exact toward
    have second := count_set still (target.push blockId) (fun column => column.sectionIds) x
    have there : 1 ≤ column.sectionIds.count blockId := List.one_le_count_iff.mpr inside
    have taken : (column.setSectionIds (column.sectionIds.erase blockId)).sectionIds.count x =
        column.sectionIds.count x - if blockId == x then 1 else 0 := List.count_erase
    have given : (target.push blockId).sectionIds.count x = target.sectionIds.count x + if blockId == x then
        1 else 0 := by
      simp only [EditorColumn.push, EditorColumn.setSectionIds, List.count_append, List.count_singleton]
    dsimp only
    by_cases same : blockId = x
    · subst same
      simp only [beq_self_eq_true, if_true] at taken given
      omega
    · simp only [beq_iff_eq, same, if_false] at taken given
      omega

end Moves

theorem Moved.steady {blockId : Str} {direction : Direction} {row row' : EditorRow ℚ}
    (moved : Moved blockId direction row row') :
    RowSteady row row' := by
  cases moved with
  | stays => exact .refl row
  | swapped found =>
    exact rowSteady_of_columns (set_forall SameWidths.refl found (swapInColumn_widths direction _ _))
  | beside apart found toward inside =>
    rename_i i j column target
    have first := set_forall SameWidths.refl found
      (setSectionIds_widths column (column.sectionIds.erase blockId))
    have still : (row.columns.set i (column.setSectionIds (column.sectionIds.erase blockId)))[j]? =
        some target := by
      rw [List.getElem?_set_ne (Ne.symm apart)]
      exact toward
    have second := set_forall SameWidths.refl still
      (setSectionIds_widths target (target.sectionIds ++ [blockId]))
    have before := rowSteady_of_columns first
    have after := @rowSteady_of_columns { row with columns := _ } _ second
    exact ⟨after.1.trans before.1, fun within => after.2 (before.2 within)⟩

section Resizing

variable {columnId : Str} {width : ℚ} {row row' : EditorRow ℚ}

inductive Resized (row : EditorRow ℚ) : EditorRow ℚ → Prop
  | stays : Resized row row
  | shared {i j column neighbor width} (apart : j ≠ i) (found : row.columns[i]? = some column)
      (beside : row.columns[j]? = some neighbor)
      (fits : column.minWidth ≤ column.maxWidth → column.minWidth ≤ width ∧ width ≤ column.maxWidth)
      (leaves : neighbor.minWidth ≤ neighbor.width - (width - column.width) ∧
        neighbor.width - (width - column.width) ≤ neighbor.maxWidth) : Resized row { row with
        columns := (row.columns.set i { column with width }).set j
          { neighbor with width := neighbor.width - (width - column.width) } }

theorem resizeInRow_resized (resized : EditorDocument.resizeInRow columnId width row = some row') :
    Resized row row' := by
  rw [EditorDocument.resizeInRow] at resized
  split at resized
  · cases resized
  rename_i i atColumn
  have bound := (List.findIdx?_eq_some_iff_getElem.mp atColumn).1
  split at resized
  · cases resized
  rename_i several
  simp only at resized
  split at resized
  · rename_i column neighbor found beside
    split at resized
    · cases resized
      exact .stays
    · rename_i leaves
      cases resized
      rw [not_or, not_lt, not_lt] at leaves
      refine .shared ?_ found beside ?_ leaves
      · split <;> omega
      · intro order
        exact ⟨le_max_left _ _, max_le order (min_le_left _ _)⟩
  · cases resized

theorem Resized.steady (resized : Resized row row') : RowSteady row row' := by
  cases resized with
  | stays => exact .refl row
  | shared apart found beside fits leaves =>
    rename_i i j column neighbor width
    have still : (row.columns.set i { column with width })[j]? = some neighbor := by
      rw [List.getElem?_set_ne (Ne.symm apart)]
      exact beside
    constructor
    · have first := sum_set found { column with width } (·.width)
      have second := sum_set still { neighbor with width := neighbor.width - (width - column.width) }
        (·.width)
      have total : (((row.columns.set i { column with width }).set j
          { neighbor with width := neighbor.width - (width - column.width) }).map (·.width)).sum =
            (row.columns.map (·.width)).sum := by
        simp only at first second
        linarith
      simp only [EditorRow.shape, List.length_set, total]
    · intro within other member
      rcases List.mem_or_eq_of_mem_set member with member | rfl
      · rcases List.mem_or_eq_of_mem_set member with member | rfl
        · exact within other member
        · obtain ⟨low, high⟩ := within column (List.mem_of_getElem? found)
          exact fits (low.trans high)
      · exact leaves

theorem Resized.count (resized : Resized row row') (x : Str) :
    (row'.columns.flatMap (·.sectionIds)).count x = (row.columns.flatMap (·.sectionIds)).count x := by
  cases resized with
  | stays => rfl
  | shared apart found beside fits leaves =>
    rename_i i j column neighbor width
    have still : (row.columns.set i { column with width })[j]? = some neighbor := by
      rw [List.getElem?_set_ne (Ne.symm apart)]
      exact beside
    have first := count_set found { column with width } (fun column => column.sectionIds) x
    have second := count_set still { neighbor with width := neighbor.width - (width - column.width) }
      (fun column => column.sectionIds) x
    dsimp only at first second ⊢
    omega

end Resizing

section Places

variable {pages : List (EditorPage ℚ)} {place other : Place} {column : EditorColumn ℚ}

def columnAt (pages : List (EditorPage ℚ)) (place : Place) : Option (EditorColumn ℚ) := do
  let page ← pages[place.1]?
  let row ← page.rows[place.2.1]?
  row.columns[place.2.2]?

theorem mem_cells : (place, column) ∈ cells pages ↔ columnAt pages place = some column := by
  obtain ⟨i, j, k⟩ := place
  simp only [cells, List.mem_flatMap, List.mem_map, Prod.exists, Prod.mk.injEq,
    List.mk_mem_zipIdx_iff_getElem?, columnAt, Option.bind_eq_bind, Option.bind_eq_some_iff]
  constructor
  · rintro ⟨page, i', hPage, row, j', hRow, found, k', hColumn, ⟨rfl, rfl, rfl⟩, rfl⟩
    exact ⟨page, hPage, row, hRow, hColumn⟩
  · rintro ⟨page, hPage, row, hRow, hColumn⟩
    exact ⟨page, i, hPage, row, j, hRow, column, k, hColumn, ⟨rfl, rfl, rfl⟩, rfl⟩

def pageReferences (page : EditorPage ℚ) : List Str :=
  page.rows.flatMap fun row => row.columns.flatMap (·.sectionIds)

theorem references_pages (pages : List (EditorPage ℚ)) :
    (columnsOf pages).flatMap (·.sectionIds) = pages.flatMap pageReferences := by
  rw [columnsOf, List.flatMap_assoc]
  congr 1
  funext page
  rw [List.flatMap_assoc]
  rfl

theorem count_modifyColumn (found : columnAt pages place = some column) (f : EditorColumn ℚ → EditorColumn ℚ)
    (x : Str) :
    ((columnsOf (modifyColumn pages place f)).flatMap (·.sectionIds)).count x + column.sectionIds.count x =
      ((columnsOf pages).flatMap (·.sectionIds)).count x + (f column).sectionIds.count x := by
  obtain ⟨page, hPage, found⟩ := Option.bind_eq_some_iff.mp found
  obtain ⟨row, hRow, hColumn⟩ := Option.bind_eq_some_iff.mp found
  have inRow := count_set hColumn (f column) (fun column => column.sectionIds) x
  have inPage := count_set hRow { row with columns := row.columns.set place.2.2 (f column) }
    (fun row => row.columns.flatMap (·.sectionIds)) x
  have inPages := count_set hPage
    { page with rows := page.rows.set place.2.1 { row with columns := row.columns.set place.2.2 (f column) } }
      pageReferences x
  rw [references_pages, references_pages, modifyColumn, modify_found hPage, modify_found hRow,
    modify_found hColumn]
  simp only [pageReferences] at inRow inPage inPages ⊢
  omega

theorem columnAt_modifyColumn (apart : other ≠ place) (f : EditorColumn ℚ → EditorColumn ℚ) :
    columnAt (modifyColumn pages place f) other = columnAt pages other := by
  obtain ⟨i, j, k⟩ := place
  obtain ⟨i', j', k'⟩ := other
  refine modify_bind fun samePage page => ?_
  refine modify_bind fun sameRow row => ?_
  have differ : k ≠ k' := by
    rintro rfl
    exact apart (Prod.ext samePage.symm (Prod.ext sameRow.symm rfl))
  exact List.getElem?_modify_ne f row.columns differ

end Places

end ManifestCV.Editor
