import ManifestCV.Render.Margins

namespace ManifestCV.Render

open Foundation Document

variable {ω : Type}

structure Filling (ω : Type) where
  pending : List (PageRow ω)
  current : List (PageRow ω)
  remaining : Int
  pages : List (List (PageRow ω))

namespace Filling

def iteration (available : Int) (state : Filling ω) : Option (Filling ω) :=
  match state.pending with
  | [] => none
  | row :: rest =>
    let take := takeCount row state.current state.remaining
    let placed := state.current ++ [row.take take]
    let left := state.remaining - (take + 1)
    if left ≤ 0 ∨ (afterTake take row rest ≠ [] ∧ take < row.height) then
      some ⟨afterTake take row rest, [], available, state.pages ++ [placed]⟩
    else some ⟨afterTake take row rest, placed, left, state.pages⟩

def run (available : Int) : Nat → Filling ω → Filling ω
  | 0, state => state
  | n + 1, state =>
    match state.iteration available with
    | none => state
    | some next => run available n next

def finish (state : Filling ω) : List (List (PageRow ω)) :=
  if state.current.isEmpty then state.pages else state.pages ++ [state.current]

end Filling

def pendingLines (pending : List (PageRow ω)) : Nat := (pending.map PageRow.size).sum

def PageRow.longest (row : PageRow ω) : Nat := (row.columns.map (·.2.length)).foldr max 0

def iterationsBound (pending : List (PageRow ω)) : Nat := pending.length + (pending.map PageRow.longest).sum

section Progress

theorem longest_drop (row : PageRow ω) (n : Nat) : (row.drop n).longest = row.longest - n := by
  have lengths : (row.drop n).columns.map (·.2.length) = (row.columns.map (·.2.length)).map (· - n) := by
    simp [PageRow.drop, List.map_map, Function.comp_def]
  rw [PageRow.longest, lengths, PageRow.foldr_max_sub]
  rfl

theorem longest_left {row : PageRow ω} {n : Nat} (left : (row.drop n).isDone = false) : n < row.longest := by
  have columns := PageRow.columns_of_left left
  have height : row.height = row.longest := by
    rw [PageRow.height, if_neg (by simpa using columns)]
    rfl
  rw [← height]
  by_contra short
  have done := PageRow.done_whole (Nat.le_of_not_lt short)
  rw [left] at done
  cases done

theorem afterTake_progress (row : PageRow ω) (rest current : List (PageRow ω)) (remaining : Int) :
    ((afterTake (takeCount row current remaining) row rest).length < (row :: rest).length ∧
      pendingLines (afterTake (takeCount row current remaining) row rest) ≤ pendingLines (row :: rest)) ∨
    ((afterTake (takeCount row current remaining) row rest).length = (row :: rest).length ∧
      pendingLines (afterTake (takeCount row current remaining) row rest) < pendingLines (row :: rest)) := by
  unfold afterTake
  cases left : (row.drop (takeCount row current remaining)).isDone with
  | true =>
    left
    simp only [if_true, pendingLines, List.map_cons, List.sum_cons, List.length_cons]
    omega
  | false =>
    right
    have shorter := PageRow.drop_size_lt (takeCount_pos left current remaining) left
    simp only [Bool.false_eq_true, if_false, pendingLines, List.map_cons, List.sum_cons,
      List.length_cons, true_and]
    omega

theorem afterTake_bound (row : PageRow ω) (rest current : List (PageRow ω)) (remaining : Int) :
    iterationsBound (afterTake (takeCount row current remaining) row rest) <
      iterationsBound (row :: rest) := by
  unfold afterTake
  cases left : (row.drop (takeCount row current remaining)).isDone with
  | true =>
    simp only [if_true, iterationsBound, List.map_cons, List.sum_cons, List.length_cons]
    omega
  | false =>
    have positive := takeCount_pos left current remaining
    have below := longest_left left
    simp only [Bool.false_eq_true, if_false, iterationsBound, List.map_cons, List.sum_cons, List.length_cons,
      longest_drop]
    omega

variable {available : Int} {state next : Filling ω}

theorem iteration_pending (taken : state.iteration available = some next) :
    ∃ row rest, state.pending = row :: rest ∧
      next.pending = afterTake (takeCount row state.current state.remaining) row rest := by
  rw [Filling.iteration] at taken
  split at taken
  · cases taken
  · rename_i row rest same
    refine ⟨row, rest, same, ?_⟩
    dsimp only at taken
    split at taken <;> cases taken <;> rfl

theorem iteration_none (ended : state.iteration available = none) : state.pending = [] := by
  rw [Filling.iteration] at ended
  split at ended
  · assumption
  · dsimp only at ended
    split at ended <;> cases ended

theorem iteration_result (taken : state.iteration available = some next) :
    state.pages ++ fillPages available state.pending state.current state.remaining =
      next.pages ++ fillPages available next.pending next.current next.remaining := by
  rw [Filling.iteration] at taken
  split at taken
  · cases taken
  · rename_i row rest same
    rw [same, fillPages]
    dsimp only at taken ⊢
    split at taken
    · rename_i full
      cases taken
      rw [if_pos full, List.append_assoc]
      rfl
    · rename_i room
      cases taken
      rw [if_neg room]

/-- The loop ends within as many iterations as there are rows and lines of their longest columns. -/
theorem run_ends {n : Nat} (enough : iterationsBound state.pending ≤ n) :
    (state.run available n).pending = [] ∧
      (state.run available n).finish = state.pages ++ fillPages available state.pending state.current
    state.remaining := by
  have stops : ∀ state : Filling ω, state.pending = [] →
      state.finish = state.pages ++ fillPages available state.pending state.current state.remaining := by
    intro state empty
    rw [empty, fillPages, Filling.finish]
    split
    · rw [List.append_nil]
    · rfl
  induction n generalizing state with
  | zero =>
    have empty : state.pending = [] := by
      rw [← List.length_eq_zero_iff]
      unfold iterationsBound at enough
      omega
    exact ⟨empty, stops state empty⟩
  | succ n ih =>
    rw [Filling.run]
    cases taken : state.iteration available with
    | none => exact ⟨iteration_none taken, stops state (iteration_none taken)⟩
    | some next =>
      obtain ⟨row, rest, same, pending⟩ := iteration_pending taken
      have fewer := afterTake_bound row rest state.current state.remaining
      rw [← pending, ← same] at fewer
      rw [iteration_result taken]
      exact ih (by omega)

theorem fillPages_length (available : Int) (pending current : List (PageRow ω)) (remaining : Int) :
    (fillPages available pending current remaining).length ≤ iterationsBound pending + if current.isEmpty then
    0 else 1 := by
  induction pending, current, remaining using fillPages.induct available with
  | case1 current remaining empty =>
    rw [fillPages, if_pos empty]
    exact Nat.zero_le _
  | case2 current remaining nonempty =>
    rw [fillPages, if_neg nonempty, if_neg nonempty]
    exact Nat.le_add_left _ _
  | case3 current remaining row rest take left _ full ih =>
    have fewer : iterationsBound (afterTake take row rest) < iterationsBound (row :: rest) :=
      afterTake_bound row rest current remaining
    rw [fillPages, if_pos full, List.length_cons]
    show (fillPages available (afterTake take row rest) [] available).length + 1 ≤ _
    simp only [List.isEmpty_nil, if_true] at ih
    omega
  | case4 current remaining row rest take placed left _ room ih =>
    have fewer : iterationsBound (afterTake take row rest) < iterationsBound (row :: rest) :=
      afterTake_bound row rest current remaining
    rw [fillPages, if_neg room]
    show (fillPages available (afterTake take row rest) placed left).length ≤ _
    split at ih <;> omega

end Progress

theorem page_rows_ne_nil {rt : Runtime} {document : ResumeDocument} (valid : document.Valid rt) :
    ∀ rows ∈ sourcesOf rt document, rows ≠ [] := by
  intro rows member
  obtain ⟨page, onPage, rfl⟩ := List.mem_map.mp member
  have check := (valid.pages page onPage).checks (counted 1 8 page.rows "rows".toList)
    (by simp [ResumePage.checks])
  have some_rows : 1 ≤ page.rows.length := by
    have both : 1 ≤ page.rows.length ∧ page.rows.length ≤ 8 := by simpa [counted] using check
    exact both.1
  intro empty
  rw [List.map_eq_nil_iff] at empty
  simp [empty] at some_rows

/-- The loop makes progress in every iteration and ends, and a source page with rows becomes at least one page
    and at most one for each of its rows and each line of their longest columns; the pages of an accepted
    document have rows. -/
theorem pagination_ends (available : Int) :
    (∀ state next : Filling ω, state.iteration available = some next →
      ¬ (pendingLines next.pending = pendingLines state.pending ∧ next.pending.length =
        state.pending.length)) ∧
    (∀ state : Filling ω, ∀ n ≥ iterationsBound state.pending, (state.run available n).pending = [] ∧
      (state.run available n).finish = state.pages ++ fillPages available state.pending state.current
    state.remaining) ∧
    (∀ rows : List (PageRow ω), (fillPages available rows [] available).length ≤
      rows.length + (rows.map PageRow.longest).sum ∧
      (rows ≠ [] → 1 ≤ (fillPages available rows [] available).length)) ∧
    ∀ rt document, Accepted rt document →
      paginateRows rt document (pageSize document).1 (pageSize document).2 =
        some ((sourcesOf rt document).map fun rows =>
          fillPages (availableLines document (pageSize document).2) rows []
          (availableLines document (pageSize document).2)).flatten ∧
      ∀ rows ∈ sourcesOf rt document, rows ≠ [] := by
  refine ⟨?_, fun state n => run_ends, ?_, ?_⟩
  · intro state next taken
    obtain ⟨row, rest, same, pending⟩ := iteration_pending taken
    have progress := afterTake_progress row rest state.current state.remaining
    rw [← pending, ← same] at progress
    omega
  · intro rows
    constructor
    · have bound := fillPages_length available rows [] available
      rw [iterationsBound] at bound
      simpa using bound
    · intro some_rows
      exact List.length_pos_iff.mpr (fillPages_ne_nil available rows [] available (.inl some_rows))
  · intro rt document accepted
    obtain ⟨payload, keyed, parsed⟩ := accepted
    obtain ⟨valid, _⟩ := validateDocument_sound keyed parsed
    exact ⟨paginateRows_accepted valid, page_rows_ne_nil valid⟩

theorem pagination_ends_onePager :
    (¬ (pendingLines ([] : List (PageRow Unit)) = pendingLines [⟨[((), [])]⟩] ∧ 0 = 1)) ∧
      1 ≤ (fillPages 5 [⟨[((), [])]⟩] [] 5).length ∧
      paginateRows plainRuntime (onePager "Engineer".toList) (pageSize (onePager "Engineer".toList)).1
          (pageSize (onePager "Engineer".toList)).2 =
        some ((sourcesOf plainRuntime (onePager "Engineer".toList)).map fun rows =>
          fillPages (availableLines (onePager "Engineer".toList) (pageSize (onePager "Engineer".toList)).2)
            rows []
            (availableLines (onePager "Engineer".toList)
                (pageSize (onePager "Engineer".toList)).2)).flatten := by
  obtain ⟨progress, _, pages, documents⟩ := pagination_ends (ω := Unit) 5
  exact ⟨progress ⟨[⟨[((), [])]⟩], [], 5, []⟩ ⟨[], [⟨[((), [])]⟩], 4, []⟩ rfl,
    (pages _).2 (List.cons_ne_nil _ _), (documents plainRuntime _ onePager_accepted).1⟩

end ManifestCV.Render
