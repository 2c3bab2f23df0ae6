import ManifestCV.Render.BlankPages
import ManifestCV.Render.Columns

namespace ManifestCV.Render

open Foundation Document

variable {ω : Type}

section Breaks

def PageRow.IsBroken (capacity room : Nat) (row : PageRow ω) : Prop :=
  ∀ column ∈ row.columns, ∀ i, Touching column.2 i → turn capacity room i ≠ turn capacity room (i + 1)

theorem touching_take {lines : List Line} {n i : Nat} :
    Touching (lines.take n) i ↔ i + 1 < n ∧ Touching lines i := by
  constructor
  · rintro ⟨above, below, foundAbove, foundBelow, texts⟩
    rw [List.getElem?_take] at foundAbove foundBelow
    split at foundBelow
    · rename_i early
      rw [if_pos (by omega)] at foundAbove
      exact ⟨early, above, below, foundAbove, foundBelow, texts⟩
    · cases foundBelow
  · rintro ⟨early, above, below, foundAbove, foundBelow, texts⟩
    refine ⟨above, below, ?_, ?_, texts⟩
    · exact (List.getElem?_take_of_lt (by omega)).trans foundAbove
    · exact (List.getElem?_take_of_lt early).trans foundBelow

theorem touching_drop {lines : List Line} {n i : Nat} :
    Touching (lines.drop n) i ↔ Touching lines (n + i) := by
  unfold Touching
  simp only [List.getElem?_drop, Nat.add_assoc]

theorem touching_length {lines : List Line} {i : Nat} (touching : Touching lines i) :
    i + 1 < lines.length := by
  obtain ⟨_, _, _, found, _⟩ := touching
  exact (List.getElem?_eq_some_iff.mp found).1

variable {capacity : Nat}

theorem isBroken_fits {room : Nat} {row : PageRow ω} (fits : row.height ≤ room) :
    row.IsBroken capacity room ↔ row.IsSpaced := by
  refine forall_congr' fun column => imp_congr_right fun member => forall_congr' fun i => ?_
  have tall := row.length_le_height column member
  constructor
  · intro broken touching
    have inside := touching_length touching
    apply broken touching
    rw [turn, turn, if_pos (by omega), if_pos (by omega)]
  · exact fun none touching => absurd touching none

/-- Of a row that is cut, the lines that stay must keep apart, and what is left goes on to be cut. -/
theorem isBroken_cuts (positive : 0 < capacity) {room : Nat} (row : PageRow ω) :
    row.IsBroken capacity room ↔ (row.take room).IsSpaced ∧ (row.drop room).IsBroken capacity capacity := by
  unfold PageRow.IsBroken PageRow.IsSpaced PageRow.take PageRow.drop
  simp only [List.forall_mem_map, touching_take, touching_drop]
  rw [← forall₂_and]
  refine forall_congr' fun column => imp_congr_right fun _ => ?_
  constructor
  · intro broken
    constructor
    · rintro i ⟨early, touching⟩
      apply broken i touching
      rw [turn, turn, if_pos (by omega), if_pos early]
    · intro i touching same
      apply broken (room + i) touching
      rw [turn_cut positive (by omega : room ≤ room + i), turn_cut positive (by omega : room ≤ room + i + 1),
        Nat.add_assoc room i 1, Nat.add_sub_cancel_left, Nat.add_sub_cancel_left, same]
  · rintro ⟨spaced, broken⟩ i touching
    by_cases early : i + 1 < room
    · exact absurd ⟨early, touching⟩ (spaced i)
    · by_cases between : i < room
      · rw [turn, turn, if_pos between, if_neg early]
        generalize (i + 1 - room) / capacity = turns
        omega
      · obtain ⟨n, rfl⟩ : ∃ n, i = room + n := ⟨i - room, by omega⟩
        have apart := broken n touching
        rw [turn_cut positive (by omega : room ≤ room + n),
          turn_cut positive (by omega : room ≤ room + n + 1),
          Nat.add_assoc room n 1, Nat.add_sub_cancel_left, Nat.add_sub_cancel_left]
        omega

/-- The rows of the pages keep their lines apart just when the rows they are made of are cut wherever that is
    needed. -/
theorem paged_isSpaced {used : Nat} (positive : 0 < capacity) {current pending : List (PageRow ω)}
    {pages : List (List (PageRow ω))} (paged : Paged capacity used current pending pages) (p : Nat) :
    (∀ page ∈ pages, ∀ row ∈ page, row.IsSpaced) ↔ (∀ row ∈ current, row.IsSpaced) ∧
      ∀ entry ∈ rowStarts capacity ⟨p, used⟩ pending,
        entry.1.IsBroken capacity (room capacity entry.2.used) := by
  induction paged generalizing p with
  | done => simp [rowStarts]
  | last something => simp [rowStarts]
  | @fits used current rest row pages short more _ ih =>
    have next : Start.after capacity ⟨p, used⟩ row.height = ⟨p, used + row.height + 1⟩ := by
      rw [after_fits short, if_neg (Nat.not_le.mpr more)]
    rw [ih p, rowStarts, List.forall_mem_cons, next, List.forall_mem_append, List.forall_mem_singleton,
      isBroken_fits short, and_assoc]
  | @fills used current rest row pages short ends _ ih =>
    have next : Start.after capacity ⟨p, used⟩ row.height = ⟨p + 1, 0⟩ := by
      rw [after_fits short, if_pos ends]
    rw [List.forall_mem_cons, ih (p + 1), rowStarts, List.forall_mem_cons, next, List.forall_mem_append,
      List.forall_mem_singleton, isBroken_fits short, and_assoc]
    simp
  | @cuts used current rest row pages cut _ ih =>
    have next : Start.after capacity ⟨p, used⟩ row.height =
        Start.after capacity ⟨p + 1, 0⟩ (row.drop (room capacity used)).height := by
      rw [after_cut positive cut, PageRow.height_drop (columns_of_cut positive cut)]
    have fresh : room capacity 0 = capacity := rfl
    rw [List.forall_mem_cons, ih (p + 1), rowStarts, rowStarts, List.forall_mem_cons, List.forall_mem_cons,
      ← next, List.forall_mem_append, List.forall_mem_singleton, isBroken_cuts positive row]
    dsimp only
    rw [fresh]
    simp [and_assoc]

end Breaks

section Parts

variable (document : ResumeDocument) (width : ω → Double)

theorem isNarrow_parts (row : PageRow ω) (n : Nat) :
    row.IsNarrow document width ↔ (row.take n).IsNarrow document width ∧
      (row.drop n).IsNarrow document width :=
  PageRow.lines_parts (fun column line => 5 * (line.text.take 180).length ≤ columnWidth document width column)
    row n

theorem labelsFit_parts (row : PageRow ω) (n : Nat) :
    LabelsFit document width row.labels ↔ LabelsFit document width (row.take n).labels ∧
      LabelsFit document width (row.drop n).labels := by
  rw [labels_take, labels_drop, and_self]

end Parts

/-- The widths and lines of a document leave each printed line a place of its own. -/
structure HasRoom (rt : Runtime) (document : ResumeDocument) : Prop where
  /-- No line of a column is longer than the column is wide. -/
  narrow : ∀ page ∈ document.pages, ∀ row ∈ page.rows, ∀ column ∈ row.columns,
    ∀ line ∈ visibleLines rt document column,
    5 * (line.text.take 180).length ≤ columnWidth document id column.width
  /-- The columns of a row take no more than the page's width between its margins. -/
  fit : ∀ page ∈ document.pages, ∀ row ∈ page.rows, margin document +
    (row.columns.map fun column => columnWidth document id column.width).sum ≤
      (pageSize document).1 - margin document
  /-- Where a line is lower than the font, a page break stands between any neighbouring lines with text. -/
  broken : (lineHeight document : ℚ) < document.style.fontSize.val → ∀ page ∈ document.pages,
    ∀ entry ∈ rowStarts (pageLines document) ⟨0, 0⟩ (page.rows.map (sourceRow rt document)),
      entry.1.IsBroken (pageLines document) (room (pageLines document) entry.2.used)

theorem sourcePages_keepApart (document : ResumeDocument) (width : ω → Double)
    (passes : Passes document.style.checks) (rows : List (PageRow ω)) :
    (∀ page ∈ sourcePages document rows, KeepsApart document width page) ↔
      (∀ row ∈ rows, row.IsNarrow document width) ∧ (∀ row ∈ rows, LabelsFit document width row.labels) ∧
        ((lineHeight document : ℚ) < document.style.fontSize.val →
          ∀ entry ∈ rowStarts (pageLines document) ⟨0, 0⟩ rows,
          entry.1.IsBroken (pageLines document) (room (pageLines document) entry.2.used)) := by
  have paged := sourcePages_paged document rows
  have narrow := paged_forall paged (isNarrow_parts document width)
  have fit := paged_forall paged (labelsFit_parts document width)
  have spaced := paged_isSpaced (pageLines_pos document) paged 0
  simp only [List.not_mem_nil, false_implies, implies_true, true_and] at narrow fit spaced
  rw [← narrow, ← fit, ← spaced]
  simp only [keepsApart_iff document width passes]
  constructor
  · intro all
    exact ⟨fun page member => (all page member).1, fun page member => (all page member).2.1,
      fun tight page member => (all page member).2.2 tight⟩
  · rintro ⟨narrow, fit, spaced⟩ page member
    exact ⟨narrow page member, fit page member, fun tight => spaced tight page member⟩

theorem isNarrow_source (rt : Runtime) (document : ResumeDocument) (row : ResumeRow) :
    (sourceRow rt document row).IsNarrow document id ↔ ∀ column ∈ row.columns,
    ∀ line ∈ visibleLines rt document column,
      5 * (line.text.take 180).length ≤ columnWidth document id column.width := by
  rw [PageRow.IsNarrow, sourceRow, List.forall_mem_map]

theorem labelsFit_source (rt : Runtime) (document : ResumeDocument) (row : ResumeRow) :
    LabelsFit document id (sourceRow rt document row).labels ↔ margin document +
      (row.columns.map fun column => columnWidth document id column.width).sum ≤
    (pageSize document).1 - margin document := by
  rw [LabelsFit, PageRow.labels, sourceRow, List.map_map, List.map_map]
  rfl

theorem forall_printed (rt : Runtime) (document : ResumeDocument) {good : List (PageRow Double) → Prop} :
    (∀ page ∈ paginate (availableLines document (pageSize document).2) (sourcesOf rt document), good page) ↔
      ∀ page ∈ document.pages, ∀ printed ∈ sourcePages document (page.rows.map (sourceRow rt document)),
        good printed := by
  simp only [paginate, sourcesOf, sourcePages, List.map_map, List.mem_flatten, List.mem_map,
    Function.comp_apply]
  constructor
  · exact fun all page member printed inside => all printed ⟨_, ⟨page, member, rfl⟩, inside⟩
  · rintro all printed ⟨_, ⟨page, member, rfl⟩, inside⟩
    exact all page member printed inside

theorem printed_apart_iff (rt : Runtime) (document : ResumeDocument) (accepted : Accepted rt document) :
    ∃ pages, paginateRows rt document (pageSize document).1 (pageSize document).2 = some pages ∧
      ((∀ page ∈ pages, KeepsApart document id page) ↔ HasRoom rt document) := by
  obtain ⟨payload, keyed, parsed⟩ := accepted
  obtain ⟨valid, _⟩ := validateDocument_sound keyed parsed
  refine ⟨_, paginateRows_accepted valid, ?_⟩
  rw [forall_printed]
  simp only [sourcePages_keepApart document id valid.style, List.forall_mem_map, isNarrow_source,
    labelsFit_source]
  constructor
  · exact fun all => ⟨fun page member => (all page member).1, fun page member => (all page member).2.1,
      fun tight page member => (all page member).2.2 tight⟩
  · exact fun has page member => ⟨has.narrow page member, has.fit page member, fun tight =>
      has.broken tight page member⟩

theorem printed_apart_iff_onePager :
    ∃ pages, paginateRows plainRuntime (onePager "Engineer".toList) (pageSize (onePager "Engineer".toList)).1
        (pageSize (onePager "Engineer".toList)).2 = some pages ∧
      ((∀ page ∈ pages, KeepsApart (onePager "Engineer".toList) id page) ↔
        HasRoom plainRuntime (onePager "Engineer".toList)) :=
  printed_apart_iff plainRuntime _ onePager_accepted

def halvesRow : ResumeRow := ⟨"row-1".toList, [
  ⟨"left".toList, Double.ofRat (1 / 2), Double.ofRat (1 / 2), Double.ofRat (1 / 2), ["summary".toList]⟩,
  ⟨"right".toList, Double.ofRat (1 / 2), Double.ofRat (1 / 2), Double.ofRat (1 / 2), []⟩]⟩

def halvesPage : ResumeDocument :=
  { onePager (List.replicate 60 'a') with pages := [⟨"page-1".toList, [halvesRow]⟩] }

theorem halvesPage_valid : halvesPage.Valid plainRuntime := by
  refine ⟨by unfold Passes; with_unfolding_all decide, ?_, ?_, onePager_valid.style⟩
  · intro page member
    rw [List.mem_singleton.mp member]
    refine ⟨by unfold Passes; decide, ?_⟩
    intro row inside
    rw [List.mem_singleton.mp inside]
    refine ⟨by unfold Passes; with_unfolding_all decide, ?_⟩
    intro column inner
    rcases List.mem_cons.mp inner with rfl | inner
    · unfold Passes
      with_unfolding_all decide
    · rw [List.mem_singleton.mp inner]
      unfold Passes
      with_unfolding_all decide
  · intro block member
    rw [List.mem_singleton.mp member]
    unfold Passes
    decide

/-- The line is wrapped for the width of the whole page and runs into the right column. -/
theorem long_line_leaves_column : Accepted plainRuntime halvesPage ∧
    ∃ pages, paginateRows plainRuntime halvesPage (pageSize halvesPage).1 (pageSize halvesPage).2 =
      some pages ∧
      ¬ ∀ page ∈ pages, KeepsApart halvesPage id page := by
  refine ⟨accepted_of_valid halvesPage_valid (onePager_wellKeyed _) rfl, _,
    paginateRows_accepted halvesPage_valid, fun all => ?_⟩
  have printed := (forall_printed plainRuntime halvesPage).mp all _ (List.mem_singleton_self _)
  have narrow := ((sourcePages_keepApart halvesPage id halvesPage_valid.style _).mp printed).1
  have long : ¬ (sourceRow plainRuntime halvesPage halvesRow).IsNarrow halvesPage id := by
    rw [isNarrow_source]
    with_unfolding_all decide
  exact long (narrow _ (List.mem_singleton_self _))

end ManifestCV.Render
