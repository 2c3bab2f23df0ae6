import ManifestCV.Render.Paginate

namespace ManifestCV.Render

variable {ω : Type}

namespace PageRow

theorem foldr_max_sub (lengths : List Nat) (n : Nat) :
    (lengths.map (· - n)).foldr max 0 = lengths.foldr max 0 - n := by
  induction lengths with
  | nil => exact (Nat.zero_sub n).symm
  | cons length lengths ih =>
    rw [List.map_cons, List.foldr_cons, List.foldr_cons, ih]
    omega

theorem foldr_max_min (lengths : List Nat) (n : Nat) :
    (lengths.map (min n)).foldr max 0 = min n (lengths.foldr max 0) := by
  induction lengths with
  | nil => exact (Nat.min_zero n).symm
  | cons length lengths ih =>
    rw [List.map_cons, List.foldr_cons, List.foldr_cons, ih]
    omega

theorem height_drop {row : PageRow ω} (columns : row.columns ≠ []) (n : Nat) :
    (row.drop n).height = row.height - n := by
  have lengths : (row.drop n).columns.map (·.2.length) = (row.columns.map (·.2.length)).map (· - n) := by
    simp [drop, List.map_map, Function.comp_def]
  have still : (row.drop n).columns ≠ [] := by simpa [drop] using columns
  rw [height, height, if_neg (by simpa using still), if_neg (by simpa using columns), lengths, foldr_max_sub]

theorem height_take {row : PageRow ω} (columns : row.columns ≠ []) (n : Nat) :
    (row.take n).height = min n row.height := by
  have lengths : (row.take n).columns.map (·.2.length) = (row.columns.map (·.2.length)).map (min n) := by
    simp [take, List.map_map, Function.comp_def]
  have still : (row.take n).columns ≠ [] := by simpa [take] using columns
  rw [height, height, if_neg (by simpa using still), if_neg (by simpa using columns), lengths, foldr_max_min]

theorem height_empty {row : PageRow ω} (columns : row.columns = []) (n : Nat) :
    row.height = 1 ∧ (row.take n).height = 1 := by
  simp [height, take, columns]

theorem columns_of_left {row : PageRow ω} {n : Nat} (left : (row.drop n).isDone = false) :
    row.columns ≠ [] := by
  rintro none
  simp [isDone, drop, none] at left

theorem done_whole {row : PageRow ω} {n : Nat} (whole : row.height ≤ n) : (row.drop n).isDone = true := by
  rw [isDone, List.all_eq_true]
  intro column member
  obtain ⟨original, inside, rfl⟩ := List.mem_map.mp member
  rw [List.isEmpty_iff, List.drop_eq_nil_iff]
  exact le_trans (length_le_height row original inside) whole

end PageRow

section Cost

def rowsCost (rows : List (PageRow ω)) : Nat := (rows.map fun row => row.height + 1).sum

theorem rowsCost_append (rows : List (PageRow ω)) (row : PageRow ω) :
    rowsCost (rows ++ [row]) = rowsCost rows + (row.height + 1) := by
  simp [rowsCost]

theorem rowsCost_cons (row : PageRow ω) (rows : List (PageRow ω)) :
    rowsCost (row :: rows) = row.height + 1 + rowsCost rows := by
  simp [rowsCost]

variable (row : PageRow ω) (rest current : List (PageRow ω)) (remaining : Int)

theorem takeCount_le : takeCount row current remaining ≤ row.height := Nat.min_le_left _ _

theorem takeCount_room (positive : 0 < remaining) : (takeCount row current remaining : Int) ≤ remaining := by
  unfold takeCount
  dsimp only
  split <;> omega

theorem takeCount_cut (cut : takeCount row current remaining < row.height) :
    remaining ≤ takeCount row current remaining + 1 := by
  unfold takeCount at cut ⊢
  dsimp only at cut ⊢
  split at cut <;> omega

theorem taken_height :
    (row.take (takeCount row current remaining)).height ≤ takeCount row current remaining := by
  by_cases columns : row.columns = []
  · obtain ⟨whole, taken⟩ := PageRow.height_empty columns (takeCount row current remaining)
    rw [taken, takeCount, whole]
    split <;> omega
  · rw [PageRow.height_take columns]
    exact Nat.min_le_left _ _

theorem afterTake_whole {n : Nat} (whole : row.height ≤ n) : afterTake n row rest = rest := by
  rw [afterTake, PageRow.done_whole whole, if_pos rfl]

theorem afterTake_cost {n : Nat} (fits : n ≤ row.height) :
    rowsCost (afterTake n row rest) + n ≤ rowsCost (row :: rest) := by
  rw [rowsCost_cons]
  unfold afterTake
  cases left : (row.drop n).isDone with
  | true =>
    rw [if_pos rfl]
    omega
  | false =>
    rw [if_neg Bool.false_ne_true, rowsCost_cons, PageRow.height_drop (PageRow.columns_of_left left)]
    omega

/-- Every page but the last is full: the lines of a page, less one for the row that is cut there, are paid for
    by rows. -/
theorem fillPages_count {available : Int} (positive : 0 < available) (pending current : List (PageRow ω))
    (remaining : Int) (within : remaining ≤ available) :
    (available - 1) * (fillPages available pending current remaining).length ≤
      rowsCost pending + (available - remaining) + (available - 1) := by
  induction pending, current, remaining using fillPages.induct available with
  | case1 current remaining empty =>
    rw [fillPages, if_pos empty, List.length_nil]
    omega
  | case2 current remaining nonempty =>
    rw [fillPages, if_neg nonempty, List.length_singleton]
    have free : rowsCost ([] : List (PageRow ω)) = 0 := rfl
    omega
  | case3 current remaining row rest take left _ full ih =>
    have spent := afterTake_cost row rest (takeCount_le row current remaining)
    have tight : remaining ≤ takeCount row current remaining + 1 := by
      rcases full with beyond | ⟨_, cut⟩
      · exact sub_nonpos.mp beyond
      · exact takeCount_cut row current remaining cut
    have later : (available - 1) * (fillPages available (afterTake (takeCount row current remaining) row rest)
      [] available).length ≤
        rowsCost (afterTake (takeCount row current remaining) row rest) + (available - available) +
          (available - 1) := ih (le_refl _)
    rw [fillPages, if_pos full, List.length_cons, Nat.cast_succ, mul_add, mul_one]
    omega
  | case4 current remaining row rest take placed left _ room ih =>
    have fits := takeCount_le row current remaining
    have spent : rowsCost (afterTake (takeCount row current remaining) row rest) + takeCount row
      current remaining + 1 ≤
        rowsCost (row :: rest) := by
      have whole := room
      rw [not_or, not_and_or, not_not] at whole
      rw [rowsCost_cons]
      rcases whole.2 with none | whole
      · have free : rowsCost ([] : List (PageRow ω)) = 0 := rfl
        rw [none, free]
        omega
      · rw [afterTake_whole row rest (not_lt.mp whole)]
        have least := not_lt.mp whole
        omega
    have later := ih (by omega)
    change _ ≤ (rowsCost (afterTake (takeCount row current remaining) row rest) : Int) +
      (available - (remaining - (takeCount row current remaining + 1))) + (available - 1) at later
    rw [fillPages, if_neg room]
    exact le_trans later (by omega)

theorem fillPages_cost {available : Int} (positive : 0 < available) (pending current : List (PageRow ω))
    (remaining : Int) (spent : rowsCost current + remaining ≤ available) (free : 0 < remaining) :
    ∀ page ∈ fillPages available pending current remaining, (rowsCost page : Int) ≤ available + 1 := by
  induction pending, current, remaining using fillPages.induct available with
  | case1 current remaining empty =>
    rw [fillPages, if_pos empty]
    exact fun _ member => absurd member List.not_mem_nil
  | case2 current remaining nonempty =>
    rw [fillPages, if_neg nonempty]
    intro page member
    rw [List.mem_singleton.mp member]
    omega
  | case3 current remaining row rest take left _ full ih =>
    have height := taken_height row current remaining
    have fits := takeCount_room row current remaining free
    have empty : rowsCost ([] : List (PageRow ω)) = 0 := rfl
    rw [fillPages, if_pos full]
    intro page member
    rcases List.mem_cons.mp member with same | member
    · rw [same, rowsCost_append]
      omega
    · exact ih (by omega) positive page member
  | case4 current remaining row rest take placed left _ room ih =>
    have height := taken_height row current remaining
    have added : rowsCost placed =
        rowsCost current + ((row.take (takeCount row current remaining)).height + 1) :=
      rowsCost_append current _
    rw [not_or] at room
    rw [fillPages, if_neg (not_or.mpr room)]
    exact ih (by omega) (by omega)

end Cost

section Weight

variable (f : Line → Nat)

def PageRow.weight (row : PageRow ω) : Nat := (row.columns.map fun column => (column.2.map f).sum).sum

def rowsWeight (rows : List (PageRow ω)) : Nat := (rows.map (PageRow.weight f)).sum

theorem weight_split (row : PageRow ω) (n : Nat) :
    (row.take n).weight f + (row.drop n).weight f = row.weight f := by
  obtain ⟨columns⟩ := row
  simp only [PageRow.weight, PageRow.take, PageRow.drop, List.map_map, Function.comp_def]
  induction columns with
  | nil => rfl
  | cons column columns ih =>
    have cut : ((column.2.take n).map f).sum + ((column.2.drop n).map f).sum = (column.2.map f).sum := by
      rw [← List.sum_append, ← List.map_append, List.take_append_drop]
    simp only [List.map_cons, List.sum_cons]
    omega

theorem weight_done {row : PageRow ω} (done : row.isDone = true) : row.weight f = 0 := by
  have empty : ∀ column ∈ row.columns, column.2 = [] := by simpa [PageRow.isDone] using done
  rw [PageRow.weight, List.sum_eq_zero]
  intro weight member
  obtain ⟨column, inside, rfl⟩ := List.mem_map.mp member
  rw [empty column inside]
  rfl

theorem rowsWeight_append (first second : List (PageRow ω)) :
    rowsWeight f (first ++ second) = rowsWeight f first + rowsWeight f second := by
  simp [rowsWeight]

theorem rowsWeight_cons (row : PageRow ω) (rows : List (PageRow ω)) :
    rowsWeight f (row :: rows) = row.weight f + rowsWeight f rows := by
  simp [rowsWeight]

theorem afterTake_weight (row : PageRow ω) (rest : List (PageRow ω)) (n : Nat) :
    (row.take n).weight f + rowsWeight f (afterTake n row rest) = rowsWeight f (row :: rest) := by
  have split := weight_split f row n
  rw [rowsWeight_cons]
  unfold afterTake
  split
  · rename_i done
    have nothing := weight_done f done
    omega
  · rw [rowsWeight_cons]
    omega

theorem fillPages_weight (available : Int) (pending current : List (PageRow ω)) (remaining : Int) :
    ((fillPages available pending current remaining).map (rowsWeight f)).sum = rowsWeight f current +
    rowsWeight f pending := by
  induction pending, current, remaining using fillPages.induct available with
  | case1 current remaining empty =>
    rw [fillPages, if_pos empty, List.isEmpty_iff.mp empty]
    rfl
  | case2 current remaining nonempty =>
    rw [fillPages, if_neg nonempty]
    simp [rowsWeight]
  | case3 current remaining row rest take left _ full ih =>
    have split := afterTake_weight f row rest take
    have single : rowsWeight f [row.take take] = (row.take take).weight f := by simp [rowsWeight]
    have none : rowsWeight f ([] : List (PageRow ω)) = 0 := rfl
    rw [fillPages, if_pos full, List.map_cons, List.sum_cons, ih, rowsWeight_append, single]
    omega
  | case4 current remaining row rest take placed left _ room ih =>
    have split := afterTake_weight f row rest take
    have single : rowsWeight f [row.take take] = (row.take take).weight f := by simp [rowsWeight]
    rw [fillPages, if_neg room, ih, rowsWeight_append, single]
    omega

theorem paginate_weight (available : Int) (sources : List (List (PageRow ω))) :
    ((paginate available sources).map (rowsWeight f)).sum = (sources.map (rowsWeight f)).sum := by
  induction sources with
  | nil => rfl
  | cons rows sources ih =>
    have unfolded : paginate available (rows :: sources) = fillPages available rows [] available ++ paginate
      available sources := rfl
    have none : rowsWeight f ([] : List (PageRow ω)) = 0 := rfl
    rw [unfolded, List.map_append, List.sum_append, fillPages_weight, ih, none, Nat.zero_add, List.map_cons,
      List.sum_cons]

end Weight

theorem paginate_cost {available : Int} (positive : 0 < available) (sources : List (List (PageRow ω))) :
    ∀ page ∈ paginate available sources, (rowsCost page : Int) ≤ available + 1 := by
  intro page member
  obtain ⟨filled, inside, onPage⟩ := List.mem_flatten.mp member
  obtain ⟨rows, _, rfl⟩ := List.mem_map.mp inside
  have none : rowsCost ([] : List (PageRow ω)) = 0 := rfl
  exact fillPages_cost positive rows [] available (by omega) positive page onPage

theorem paginate_count {available : Int} (positive : 0 < available) (sources : List (List (PageRow ω))) :
    (available - 1) * (paginate available sources).length ≤ (sources.map rowsCost).sum +
    (available - 1) * sources.length := by
  induction sources with
  | nil => simp [paginate]
  | cons rows sources ih =>
    have unfolded : paginate available (rows :: sources) = fillPages available rows [] available ++ paginate
      available sources := rfl
    have first := fillPages_count positive rows [] available (le_refl _)
    rw [unfolded, List.length_append, List.map_cons, List.sum_cons, List.length_cons]
    simp only [Nat.cast_add, Nat.cast_one]
    rw [mul_add, mul_add, mul_one]
    omega

end ManifestCV.Render
