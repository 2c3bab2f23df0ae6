import ManifestCV.Foundation.Splitting
import ManifestCV.Render.Margins
import ManifestCV.Render.PageBreaks

namespace ManifestCV.Render

open Foundation Document

variable {ω : Type}

def Line.isShown (line : Line) : Bool := !isBlank line.text

def PageRow.Shows (row : PageRow ω) (i : Nat) : Prop :=
  ∃ column ∈ row.columns, ∃ line, column.2[i]? = some line ∧ line.isShown = true

def ShowsText (rows : List (PageRow ω)) : Prop := ∃ row ∈ rows, ∃ i, row.Shows i

/-- A visible line of one of the rows falls on the page with this number. -/
def ShownOn (capacity : Nat) (entries : List (PageRow ω × Start)) (page : Nat) : Prop :=
  ∃ entry ∈ entries, ∃ i, entry.1.Shows i ∧ entry.2.page + turn capacity (room capacity entry.2.used) i = page

section Rows

theorem shows_lt_height {row : PageRow ω} {i : Nat} (shows' : row.Shows i) : i < row.height := by
  obtain ⟨column, member, line, found, _⟩ := shows'
  obtain ⟨inside, _⟩ := List.getElem?_eq_some_iff.mp found
  exact lt_of_lt_of_le inside (row.length_le_height column member)

theorem shows_take {row : PageRow ω} {n i : Nat} : (row.take n).Shows i ↔ i < n ∧ row.Shows i := by
  constructor
  · rintro ⟨_, member, line, found, shown⟩
    obtain ⟨column, inside, rfl⟩ := List.mem_map.mp member
    rw [List.getElem?_take] at found
    split at found
    · rename_i early
      exact ⟨early, column, inside, line, found, shown⟩
    · cases found
  · rintro ⟨early, column, inside, line, found, shown⟩
    exact ⟨_, List.mem_map_of_mem inside, line, (List.getElem?_take_of_lt early).trans found, shown⟩

theorem shows_drop {row : PageRow ω} {n i : Nat} : (row.drop n).Shows i ↔ row.Shows (n + i) := by
  constructor
  · rintro ⟨_, member, line, found, shown⟩
    obtain ⟨column, inside, rfl⟩ := List.mem_map.mp member
    rw [List.getElem?_drop] at found
    exact ⟨column, inside, line, found, shown⟩
  · rintro ⟨column, inside, line, found, shown⟩
    exact ⟨_, List.mem_map_of_mem inside, line, List.getElem?_drop.trans found, shown⟩

theorem showsText_append {first second : List (PageRow ω)} :
    ShowsText (first ++ second) ↔ ShowsText first ∨ ShowsText second := by
  simp only [ShowsText, List.mem_append, or_and_right, exists_or]

theorem showsText_single {row : PageRow ω} : ShowsText [row] ↔ ∃ i, row.Shows i := by
  simp [ShowsText]

theorem not_showsText_nil : ¬ ShowsText ([] : List (PageRow ω)) := by
  simp [ShowsText]

end Rows

section Numbers

variable {capacity : Nat} {row : PageRow ω} {rest : List (PageRow ω)} {used page : Nat}

theorem shownOn_cons {start : Start} : ShownOn capacity (rowStarts capacity start (row :: rest)) page ↔
    (∃ i, row.Shows i ∧ start.page + turn capacity (room capacity start.used) i = page) ∨
      ShownOn capacity (rowStarts capacity (start.after capacity row.height) rest) page := by
  simp only [ShownOn, rowStarts, List.mem_cons, or_and_right, exists_or, exists_eq_left]

theorem shownOn_page {start : Start} {rows : List (PageRow ω)}
    (shown : ShownOn capacity (rowStarts capacity start rows) page) :
    start.page ≤ page := by
  obtain ⟨entry, member, i, _, rfl⟩ := shown
  exact le_trans (rowStarts_page start rows entry member) (Nat.le_add_right _ _)

theorem shownOn_fits {q : Nat} (fits : row.height ≤ room capacity used) :
    (∃ i, row.Shows i ∧ page + turn capacity (room capacity used) i = q) ↔ q = page ∧ ∃ i, row.Shows i := by
  have none : ∀ i, row.Shows i → turn capacity (room capacity used) i = 0 :=
    fun i shows' => if_pos (lt_of_lt_of_le (shows_lt_height shows') fits)
  constructor
  · rintro ⟨i, shows', rfl⟩
    exact ⟨by rw [none i shows', Nat.add_zero], i, shows'⟩
  · rintro ⟨rfl, i, shows'⟩
    exact ⟨i, shows', by rw [none i shows', Nat.add_zero]⟩

/-- A row that is cut has its first lines here, and the others where what is left of it has them. -/
theorem shownOn_cuts (positive : 0 < capacity) {q : Nat} (cut : room capacity used < row.height) :
    ShownOn capacity (rowStarts capacity ⟨page, used⟩ (row :: rest)) q ↔
      q = page ∧ (∃ i, (row.take (room capacity used)).Shows i) ∨
        ShownOn capacity (rowStarts capacity ⟨page + 1, 0⟩ (row.drop (room capacity used) :: rest)) q := by
  have columns : row.columns ≠ [] := columns_of_cut positive cut
  have shorter := PageRow.height_drop columns (room capacity used)
  have fresh : room capacity 0 = capacity := rfl
  rw [shownOn_cons, shownOn_cons, after_cut positive cut, shorter, ← or_assoc]
  refine or_congr ?_ Iff.rfl
  dsimp only
  rw [fresh]
  constructor
  · rintro ⟨i, shows', rfl⟩
    by_cases early : i < room capacity used
    · exact .inl ⟨by rw [turn, if_pos early, Nat.add_zero], i, shows_take.mpr ⟨early, shows'⟩⟩
    · have later : room capacity used + (i - room capacity used) = i := by omega
      refine .inr ⟨i - room capacity used, ?_, ?_⟩
      · rw [shows_drop, later]
        exact shows'
      · rw [turn_cut positive (not_lt.mp early), Nat.add_assoc]
  · rintro (⟨rfl, i, shows'⟩ | ⟨i, shows', rfl⟩)
    · obtain ⟨early, shows'⟩ := shows_take.mp shows'
      exact ⟨i, shows', by rw [turn, if_pos early, Nat.add_zero]⟩
    · refine ⟨room capacity used + i, shows_drop.mp shows', ?_⟩
      rw [turn_cut positive (Nat.le_add_right _ _), Nat.add_sub_cancel_left, Nat.add_assoc]

end Numbers

/-- When the page with this number is finished, it and the pages after it can be looked at apart. -/
theorem showsText_break {current : List (PageRow ω)} {piece : PageRow ω} {now later : Nat → Prop}
    {p count : Nat} (more : p + 1 ≤ count) (lands : ∀ q, now q ↔ q = p ∧ (∃ i, piece.Shows i) ∨ later q)
    (after : ∀ q, later q → p + 1 ≤ q) :
    (ShowsText (current ++ [piece]) ∧ ∀ q, p + 1 ≤ q → q < count →
      (q = p + 1 ∧ ShowsText ([] : List (PageRow ω))) ∨ later q) ↔
      ∀ q, p ≤ q → q < count → (q = p ∧ ShowsText current) ∨ now q := by
  constructor
  · rintro ⟨shows', others⟩ q least most
    by_cases here : q = p
    · rcases showsText_append.mp shows' with shows' | shows'
      · exact .inl ⟨here, shows'⟩
      · exact .inr ((lands q).mpr (.inl ⟨here, showsText_single.mp shows'⟩))
    · rcases others q (by omega) most with ⟨_, nothing⟩ | there
      · exact absurd nothing not_showsText_nil
      · exact .inr ((lands q).mpr (.inr there))
  · intro each
    constructor
    · rcases each p (le_refl _) more with ⟨_, shows'⟩ | here
      · exact showsText_append.mpr (.inl shows')
      · rcases (lands p).mp here with ⟨_, shows'⟩ | there
        · exact showsText_append.mpr (.inr (showsText_single.mpr shows'))
        · exact absurd (after p there) (Nat.not_succ_le_self p)
    · intro q least most
      rcases each q (by omega) most with ⟨here, _⟩ | there
      · omega
      · rcases (lands q).mp there with ⟨here, _⟩ | there
        · omega
        · exact .inr there

/-- Where the page being filled has this number, a page shows text when a line that falls on it is visible. -/
theorem paged_showsText {capacity used : Nat} (positive : 0 < capacity) {current pending : List (PageRow ω)}
    {pages : List (List (PageRow ω))} (paged : Paged capacity used current pending pages) (p : Nat) :
    (∀ page ∈ pages, ShowsText page) ↔ ∀ q, p ≤ q → q < pageCount capacity ⟨p, used⟩ pending →
      (q = p ∧ ShowsText current) ∨ ShownOn capacity (rowStarts capacity ⟨p, used⟩ pending) q := by
  induction paged generalizing p with
  | done =>
    have none : pageCount capacity ⟨p, 0⟩ ([] : List (PageRow ω)) = p := rfl
    rw [none]
    constructor
    · intro _ q least most
      omega
    · exact fun _ page member => nomatch member
  | @last used current something =>
    have one : pageCount capacity ⟨p, used⟩ ([] : List (PageRow ω)) = p + 1 := by
      rw [pageCount, List.foldl_nil]
      dsimp only
      rw [if_neg (Nat.ne_of_gt something)]
    rw [one, List.forall_mem_singleton]
    constructor
    · intro shows' q least most
      exact .inl ⟨by omega, shows'⟩
    · intro each
      rcases each p (le_refl _) (Nat.lt_succ_self _) with ⟨_, shows'⟩ | ⟨entry, member, _⟩
      · exact shows'
      · cases member
  | @fits used current rest row pages short more _ ih =>
    have next : Start.after capacity ⟨p, used⟩ row.height = ⟨p, used + row.height + 1⟩ := by
      rw [after_fits short, if_neg (Nat.not_le.mpr more)]
    rw [ih p, pageCount_cons, next]
    refine forall_congr' fun q => imp_congr_right fun _ => imp_congr_right fun _ => ?_
    rw [shownOn_cons, shownOn_fits short, next, showsText_append, showsText_single, and_or_left, or_assoc]
  | @fills used current rest row pages short ends _ ih =>
    have next : Start.after capacity ⟨p, used⟩ row.height = ⟨p + 1, 0⟩ := by
      rw [after_fits short, if_pos ends]
    rw [List.forall_mem_cons, ih (p + 1), pageCount_cons, next]
    refine showsText_break (pageCount_ge ⟨p + 1, 0⟩ rest) (fun q => ?_) fun q => shownOn_page
    rw [shownOn_cons, shownOn_fits short, next]
  | @cuts used current rest row pages cut _ ih =>
    have columns : row.columns ≠ [] := columns_of_cut positive cut
    have next : Start.after capacity ⟨p, used⟩ row.height =
        Start.after capacity ⟨p + 1, 0⟩ (row.drop (room capacity used)).height := by
      rw [after_cut positive cut, PageRow.height_drop columns]
    have count : pageCount capacity ⟨p, used⟩ (row :: rest) =
        pageCount capacity ⟨p + 1, 0⟩ (row.drop (room capacity used) :: rest) := by
      rw [pageCount_cons, pageCount_cons, next]
    rw [List.forall_mem_cons, ih (p + 1), count]
    exact showsText_break (pageCount_ge ⟨p + 1, 0⟩ _) (fun q => shownOn_cuts positive cut) fun q =>
      shownOn_page

section Document

def sourcePages (document : ResumeDocument) (rows : List (PageRow ω)) : List (List (PageRow ω)) :=
  fillPages (availableLines document (pageSize document).2) rows []
    (availableLines document (pageSize document).2)

def pageLines (document : ResumeDocument) : Nat := (availableLines document (pageSize document).2).toNat

theorem pageLines_pos (document : ResumeDocument) : 0 < pageLines document := by
  have positive : 1 ≤ availableLines document (pageSize document).2 := le_max_left _ _
  unfold pageLines
  omega

theorem sourcePages_paged (document : ResumeDocument) (rows : List (PageRow ω)) :
    Paged (pageLines document) 0 [] rows (sourcePages document rows) := by
  have positive := pageLines_pos document
  have lines : availableLines document (pageSize document).2 = (pageLines document : Int) := by
    unfold pageLines at positive ⊢
    omega
  unfold sourcePages
  rw [lines]
  exact fillPages_paged rows [] _ 0 positive (by omega) ⟨fun _ => rfl, fun _ => rfl⟩

/-- A source page gives no blank page just when some visible line falls on each of its page numbers. -/
theorem sourcePages_showText (document : ResumeDocument) (rows : List (PageRow ω)) :
    (∀ page ∈ sourcePages document rows, ShowsText page) ↔
      ∀ q, q < pageCount (pageLines document) ⟨0, 0⟩ rows →
        ShownOn (pageLines document) (rowStarts (pageLines document) ⟨0, 0⟩ rows) q := by
  rw [paged_showsText (pageLines_pos document) (sourcePages_paged document rows) 0]
  refine forall_congr' fun q => ⟨fun each inside => ?_, fun each _ inside => .inr (each inside)⟩
  rcases each (Nat.zero_le q) inside with ⟨_, nothing⟩ | shown
  · exact absurd nothing not_showsText_nil
  · exact shown

theorem no_blank_page_iff (rt : Runtime) (document : ResumeDocument) (accepted : Accepted rt document) :
    paginateRows rt document (pageSize document).1 (pageSize document).2 =
        some ((sourcesOf rt document).map (sourcePages document)).flatten ∧
      ((∀ rows ∈ sourcesOf rt document, ShowsText rows → ∀ page ∈ sourcePages document rows, ShowsText page) ↔
        ∀ rows ∈ sourcesOf rt document, ShowsText rows → ∀ q, q < pageCount (pageLines document) ⟨0, 0⟩ rows →
          ShownOn (pageLines document) (rowStarts (pageLines document) ⟨0, 0⟩ rows) q) := by
  obtain ⟨payload, keyed, parsed⟩ := accepted
  obtain ⟨valid, _⟩ := validateDocument_sound keyed parsed
  refine ⟨paginateRows_accepted valid, ?_⟩
  exact forall_congr' fun rows => imp_congr_right fun _ => imp_congr_right fun _ =>
    sourcePages_showText document rows

theorem no_blank_page_iff_onePager :
    paginateRows plainRuntime (onePager "Engineer".toList) (pageSize (onePager "Engineer".toList)).1
          (pageSize (onePager "Engineer".toList)).2 =
        some ((sourcesOf plainRuntime (onePager "Engineer".toList)).map
          (sourcePages (onePager "Engineer".toList))).flatten ∧
      ((∀ rows ∈ sourcesOf plainRuntime (onePager "Engineer".toList), ShowsText rows →
          ∀ page ∈ sourcePages (onePager "Engineer".toList) rows, ShowsText page) ↔
        ∀ rows ∈ sourcesOf plainRuntime (onePager "Engineer".toList), ShowsText rows →
          ∀ q, q < pageCount (pageLines (onePager "Engineer".toList)) ⟨0, 0⟩ rows →
            ShownOn (pageLines (onePager "Engineer".toList))
              (rowStarts (pageLines (onePager "Engineer".toList)) ⟨0, 0⟩ rows) q) :=
  no_blank_page_iff plainRuntime _ onePager_accepted

def brimfulPage : ResumeDocument :=
  onePagerWith .skills "Skills".toList [("items".toList, .arr (List.replicate 62 (.str "Go".toList)))]

def brimfulRow : PageRow Double :=
  ⟨[(Double.ofInt 1, { text := "Skills".toList, heading := true } :: List.replicate 62
    { text := "- Go".toList } ++ [{ text := [] }])]⟩

theorem brimfulPage_rows : sourcesOf plainRuntime brimfulPage = [[brimfulRow]] := by with_unfolding_all decide

theorem brimfulPage_pages : sourcePages brimfulPage [brimfulRow] =
    [[brimfulRow.take 63], [⟨[(Double.ofInt 1, [{ text := [] }])]⟩]] := by
  have lines : availableLines brimfulPage (pageSize brimfulPage).2 = 63 := by with_unfolding_all decide
  have cut : afterTake 63 brimfulRow [] = [⟨[(Double.ofInt 1, [{ text := [] }])]⟩] :=
    by with_unfolding_all decide
  have count : takeCount brimfulRow [] 63 = 63 := by decide
  have last : afterTake 1 (⟨[(Double.ofInt 1, [{ text := [] }])]⟩ : PageRow Double) [] = [] := by decide
  have one : takeCount (⟨[(Double.ofInt 1, [{ text := [] }])]⟩ : PageRow Double) [] 63 = 1 := by decide
  unfold sourcePages
  rw [lines, fillPages, count, if_pos (.inl (by decide)), cut, fillPages, one, last, if_neg (by decide),
    fillPages, if_neg (by decide)]
  rfl

set_option maxRecDepth 20000 in
theorem brimful_blank_page : Accepted plainRuntime brimfulPage ∧
    ¬ ∀ rows ∈ sourcesOf plainRuntime brimfulPage, ShowsText rows → ∀ page ∈ sourcePages brimfulPage rows,
      ShowsText page := by
  refine ⟨onePagerWith_accepted rfl (by with_unfolding_all decide) ?_, ?_⟩
  · refine ⟨List.nodup_singleton _, (Json.wellKeyedItems_iff _).mpr fun item member => ?_, trivial⟩
    rw [List.eq_of_mem_replicate member]
    trivial
  · intro each
    have shown : ShowsText [brimfulRow] := by
      refine ⟨brimfulRow, List.mem_singleton_self _, 0, _, List.mem_singleton_self _, _, rfl, ?_⟩
      decide
    rw [brimfulPage_rows] at each
    have blank := each _ (List.mem_singleton_self _) shown [⟨[(Double.ofInt 1, [{ text := [] }])]⟩]
      (by simp [brimfulPage_pages])
    obtain ⟨i, column, member, line, found, visible⟩ := showsText_single.mp blank
    rw [List.mem_singleton.mp member] at found
    rw [List.mem_singleton.mp (List.mem_of_getElem? found)] at visible
    cases visible

end Document

end ManifestCV.Render
