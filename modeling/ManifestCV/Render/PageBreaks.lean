import ManifestCV.Render.PageCount

namespace ManifestCV.Render

variable {ω : Type}

section Arithmetic

/-- The lines a page still has for a row when some are used: the first row may take all, others leave one to
    keep apart. -/
def room (capacity used : Nat) : Nat := if used = 0 then capacity else max 1 (capacity - used - 1)

def turn (capacity room line : Nat) : Nat := if line < room then 0 else 1 + (line - room) / capacity

structure Start where
  page : Nat
  used : Nat

def Start.after (capacity : Nat) (start : Start) (height : Nat) : Start :=
  let last : Start :=
    if height ≤ room capacity start.used then ⟨start.page, start.used + height + 1⟩
    else
      ⟨start.page + 1 + (height - room capacity start.used - 1) / capacity,
        (height - room capacity start.used - 1) % capacity + 2⟩
  if capacity ≤ last.used then ⟨last.page + 1, 0⟩ else last

def rowStarts (capacity : Nat) : Start → List (PageRow ω) → List (PageRow ω × Start)
  | _, [] => []
  | start, row :: rows => (row, start) :: rowStarts capacity (start.after capacity row.height) rows

def pageCount (capacity : Nat) (start : Start) (rows : List (PageRow ω)) : Nat :=
  let last := rows.foldl (fun start row => start.after capacity row.height) start
  last.page + if last.used = 0 then 0 else 1

variable {capacity : Nat}

theorem room_pos (positive : 0 < capacity) (used : Nat) : 0 < room capacity used := by
  unfold room
  split <;> omega

theorem turn_cut (positive : 0 < capacity) {room line : Nat} (below : room ≤ line) :
    turn capacity room line = 1 + turn capacity capacity (line - room) := by
  have whole : turn capacity capacity (line - room) = (line - room) / capacity := by
    unfold turn
    split
    · rename_i few
      exact (Nat.div_eq_of_lt few).symm
    · rename_i many
      rw [Nat.div_eq_sub_div positive (Nat.not_lt.mp many), Nat.add_comm]
  rw [whole, turn, if_neg (Nat.not_lt.mpr below)]

theorem after_fits {start : Start} {height : Nat} (fits : height ≤ room capacity start.used) :
    start.after capacity height =
      if capacity ≤ start.used + height + 1 then ⟨start.page + 1, 0⟩ else
        ⟨start.page, start.used + height + 1⟩ := by
  unfold Start.after
  rw [if_pos fits]

theorem after_cut (positive : 0 < capacity) {start : Start} {height : Nat}
    (cut : room capacity start.used < height) :
    start.after capacity height = Start.after capacity ⟨start.page + 1, 0⟩
      (height - room capacity start.used) := by
  have fresh : room capacity 0 = capacity := rfl
  obtain ⟨more, rfl⟩ : ∃ n, height = room capacity start.used + n + 1 :=
    ⟨height - room capacity start.used - 1, by omega⟩
  have left : room capacity start.used + more + 1 - room capacity start.used = more + 1 := by omega
  have last : room capacity start.used + more + 1 - room capacity start.used - 1 = more := by omega
  have beyond : ¬ room capacity start.used + more + 1 ≤ room capacity start.used := by omega
  unfold Start.after
  rw [if_neg beyond, last, left, fresh]
  by_cases few : more + 1 ≤ capacity
  · have less : more < capacity := few
    rw [if_pos few, Nat.div_eq_of_lt less, Nat.mod_eq_of_lt less, Nat.add_zero, Nat.zero_add]
  · have many : capacity ≤ more := by omega
    have rest : more + 1 - capacity - 1 = more - capacity := by omega
    have pages : start.page + 1 + ((more - capacity) / capacity + 1) = start.page + 1 + 1 +
        (more - capacity) / capacity := by
      omega
    rw [if_neg few, rest, Nat.div_eq_sub_div positive many, Nat.mod_eq_sub_mod many, pages]

theorem after_page (start : Start) (height : Nat) : start.page ≤ (start.after capacity height).page := by
  unfold Start.after
  generalize (height - room capacity start.used - 1) / capacity = turns
  by_cases fits : height ≤ room capacity start.used
  · rw [if_pos fits]
    dsimp only
    split
    · exact Nat.le_succ _
    · exact le_refl _
  · rw [if_neg fits]
    dsimp only
    split <;> dsimp only <;> omega

theorem pageCount_cons (start : Start) (row : PageRow ω) (rows : List (PageRow ω)) :
    pageCount capacity start (row :: rows) = pageCount capacity (start.after capacity row.height) rows := rfl

theorem pageCount_ge (start : Start) (rows : List (PageRow ω)) :
    start.page ≤ pageCount capacity start rows := by
  induction rows generalizing start with
  | nil => exact Nat.le_add_right _ _
  | cons row rows ih =>
    rw [pageCount_cons]
    exact le_trans (after_page start row.height) (ih _)

theorem rowStarts_page (start : Start) (rows : List (PageRow ω)) :
    ∀ entry ∈ rowStarts capacity start rows, start.page ≤ entry.2.page := by
  induction rows generalizing start with
  | nil => exact fun _ none => nomatch none
  | cons row rows ih =>
    intro entry member
    rcases List.mem_cons.mp member with rfl | member
    · exact le_refl _
    · exact le_trans (after_page start row.height) (ih _ entry member)

end Arithmetic

inductive Paged (capacity : Nat) : Nat → List (PageRow ω) → List (PageRow ω) → List (List (PageRow ω)) → Prop
  | done : Paged capacity 0 [] [] []
  | last {used : Nat} {current : List (PageRow ω)} : 0 < used → Paged capacity used current [] [current]
  | fits {used : Nat} {current rest : List (PageRow ω)} {row : PageRow ω} {pages : List (List (PageRow ω))} :
      row.height ≤ room capacity used → used + row.height + 1 < capacity →
      Paged capacity (used + row.height + 1) (current ++ [row]) rest pages →
        Paged capacity used current (row :: rest) pages
  | fills {used : Nat} {current rest : List (PageRow ω)} {row : PageRow ω} {pages : List (List (PageRow ω))} :
      row.height ≤ room capacity used → capacity ≤ used + row.height + 1 →
      Paged capacity 0 [] rest pages → Paged capacity used current (row :: rest) ((current ++ [row]) :: pages)
  | cuts {used : Nat} {current rest : List (PageRow ω)} {row : PageRow ω} {pages : List (List (PageRow ω))} :
      room capacity used < row.height → Paged capacity 0 [] (row.drop (room capacity used) :: rest) pages →
      Paged capacity used current (row :: rest) ((current ++ [row.take (room capacity used)]) :: pages)

namespace PageRow

theorem height_done {row : PageRow ω} (columns : row.columns ≠ []) (done : row.isDone = true) :
    row.height = 0 := by
  have empty : ∀ column ∈ row.columns, column.2 = [] := by simpa [isDone] using done
  have lengths : row.columns.map (·.2.length) = row.columns.map fun _ => 0 :=
    List.map_congr_left fun column member => by rw [empty column member, List.length_nil]
  rw [height, if_neg (by simpa using columns), lengths]
  induction row.columns with
  | nil => rfl
  | cons column columns ih => rw [List.map_cons, List.foldr_cons, ih, max_self]

theorem take_height (row : PageRow ω) : row.take row.height = row := by
  have same : row.columns.map (fun column => (column.1, column.2.take row.height)) = row.columns.map id := by
    refine List.map_congr_left fun column member => ?_
    rw [List.take_of_length_le (length_le_height row column member)]
    rfl
  rw [take, same, List.map_id]

theorem lines_parts (good : ω → Line → Prop) (row : PageRow ω) (n : Nat) :
    (∀ column ∈ row.columns, ∀ line ∈ column.2, good column.1 line) ↔
    (∀ column ∈ (row.take n).columns, ∀ line ∈ column.2, good column.1 line) ∧
      ∀ column ∈ (row.drop n).columns, ∀ line ∈ column.2, good column.1 line := by
  unfold take drop
  simp only [List.forall_mem_map]
  rw [← forall₂_and]
  refine forall_congr' fun column => imp_congr_right fun _ => ?_
  rw [← List.forall_mem_append, List.take_append_drop]

end PageRow

section Loop

variable {capacity : Nat}

theorem takeCount_room_eq {used : Nat} {current : List (PageRow ω)} (row : PageRow ω)
    (inside : used < capacity) (fresh : current = [] ↔ used = 0) :
    takeCount row current (capacity - used : Int) = min row.height (room capacity used) := by
  unfold takeCount room
  by_cases first : used = 0
  · have none : current.isEmpty = true := List.isEmpty_iff.mpr (fresh.mpr first)
    dsimp only
    rw [if_pos first, none]
    simp only [if_true]
    omega
  · have some : current.isEmpty = false := by
      rw [Bool.eq_false_iff]
      exact fun empty => first (fresh.mp (List.isEmpty_iff.mp empty))
    dsimp only
    rw [if_neg first, some]
    simp only [Bool.false_eq_true, if_false]
    omega

theorem columns_of_cut (positive : 0 < capacity) {used : Nat} {row : PageRow ω}
    (cut : room capacity used < row.height) : row.columns ≠ [] := by
  intro none
  have one := (PageRow.height_empty none 0).1
  have least := room_pos positive used
  omega

theorem afterTake_room {row : PageRow ω} {n : Nat} (cut : n < row.height) (positive : 0 < n)
    (rest : List (PageRow ω)) :
    afterTake n row rest = row.drop n :: rest := by
  have left : (row.drop n).isDone = false := by
    by_cases columns : row.columns = []
    · have one := (PageRow.height_empty columns n).1
      omega
    · have height := PageRow.height_drop columns n
      rw [Bool.eq_false_iff]
      intro done
      have still : (row.drop n).columns ≠ [] := by simpa [PageRow.drop] using columns
      have none : (row.drop n).height = 0 := PageRow.height_done still done
      omega
  rw [afterTake, left, if_neg Bool.false_ne_true]

/-- The loop of one source page, seen from the number of lines used on the page being filled. -/
theorem fillPages_paged (pending current : List (PageRow ω)) (remaining : Int) :
    ∀ used : Nat, used < capacity →
    remaining = capacity - used → (current = [] ↔ used = 0) →
    Paged capacity used current pending (fillPages capacity pending current remaining) := by
  induction pending, current, remaining using fillPages.induct (capacity : Int) with
  | case1 current remaining empty =>
    intro used inside left fresh
    rw [fillPages, if_pos empty]
    have none := List.isEmpty_iff.mp empty
    rw [none, fresh.mp none]
    exact .done
  | case2 current remaining nonempty =>
    intro used inside left fresh
    rw [fillPages, if_neg nonempty]
    exact .last (Nat.pos_of_ne_zero fun zero => nonempty (List.isEmpty_iff.mpr (fresh.mpr zero)))
  | case3 current remaining row rest count gap smaller full ih =>
    intro used inside left fresh
    have counted : count = min row.height (room capacity used) := by
      have counted := takeCount_room_eq row inside fresh
      rw [← left] at counted
      exact counted
    have next := ih 0 (by omega) (by omega) ⟨fun _ => rfl, fun _ => rfl⟩
    rw [fillPages, if_pos full]
    by_cases cut : room capacity used < row.height
    · have broken : count = room capacity used := by omega
      change Paged capacity used current (row :: rest)
        ((current ++ [row.take count]) :: fillPages _ (afterTake count row rest) [] _)
      rw [broken, afterTake_room cut (room_pos (by omega) used)] at next ⊢
      exact .cuts cut next
    · have whole : count = row.height := by omega
      change Paged capacity used current (row :: rest)
        ((current ++ [row.take count]) :: fillPages _ (afterTake count row rest) [] _)
      rw [whole, afterTake_whole row rest (le_refl _)] at next ⊢
      rw [PageRow.take_height]
      have ends : capacity ≤ used + row.height + 1 := by
        rcases full with beyond | ⟨_, short⟩ <;> omega
      exact .fills (not_lt.mp cut) ends next
  | case4 current remaining row rest count placed gap smaller more ih =>
    intro used inside left fresh
    have counted : count = min row.height (room capacity used) := by
      have counted := takeCount_room_eq row inside fresh
      rw [← left] at counted
      exact counted
    have unfilled : ¬ gap ≤ 0 := fun beyond => more (.inl beyond)
    have fits : row.height ≤ room capacity used := by
      have most : capacity - used ≤ room capacity used + 1 := by
        unfold room
        split <;> omega
      omega
    have whole : count = row.height := by omega
    have next := ih (used + row.height + 1) (by omega) (by omega) (by simp [placed])
    rw [fillPages, if_neg more]
    change Paged capacity used current (row :: rest) (fillPages _ (afterTake count row rest) placed gap)
    have placedWhole : placed = current ++ [row] := by
      change current ++ [row.take count] = current ++ [row]
      rw [whole, PageRow.take_height]
    rw [whole, afterTake_whole row rest (le_refl _)] at next ⊢
    rw [placedWhole] at next ⊢
    exact .fits fits (by omega) next

/-- A property that a row has when both of its parts have it passes between the rows and the pages made of
    them. -/
theorem paged_forall {used : Nat} {current pending : List (PageRow ω)} {pages : List (List (PageRow ω))}
    (paged : Paged capacity used current pending pages) {good : PageRow ω → Prop}
    (parts : ∀ row n, good row ↔ good (row.take n) ∧ good (row.drop n)) :
    (∀ page ∈ pages, ∀ row ∈ page, good row) ↔ (∀ row ∈ current, good row) ∧ ∀ row ∈ pending, good row := by
  induction paged with
  | done => simp
  | last something => simp
  | fits short more _ ih =>
      rw [ih, List.forall_mem_append, List.forall_mem_singleton, List.forall_mem_cons, and_assoc]
  | fills short ends _ ih =>
    rw [List.forall_mem_cons, ih, List.forall_mem_append, List.forall_mem_singleton, List.forall_mem_cons,
      and_assoc]
    simp
  | @cuts used current rest row pages cut _ ih =>
    rw [List.forall_mem_cons, ih, List.forall_mem_append, List.forall_mem_singleton, List.forall_mem_cons,
      List.forall_mem_cons, parts row (room capacity used)]
    simp [and_assoc]

end Loop

end ManifestCV.Render
