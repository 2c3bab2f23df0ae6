import Mathlib.Algebra.Order.BigOperators.Group.List
import ManifestCV.Render.Lines

namespace ManifestCV.Render

open Foundation Document

variable {ω : Type}

namespace PageRow

/-- `max((len(lines) for _width, lines in row), default=1)`. -/
def height (row : PageRow ω) : Nat :=
  if row.columns.isEmpty then 1 else (row.columns.map (·.2.length)).foldr max 0

def take (n : Nat) (row : PageRow ω) : PageRow ω :=
  ⟨row.columns.map fun column => (column.1, column.2.take n)⟩

def drop (n : Nat) (row : PageRow ω) : PageRow ω :=
  ⟨row.columns.map fun column => (column.1, column.2.drop n)⟩

def isDone (row : PageRow ω) : Bool := row.columns.all (·.2.isEmpty)

def size (row : PageRow ω) : Nat := (row.columns.map (·.2.length)).sum

theorem length_le_height (row : PageRow ω) : ∀ column ∈ row.columns, column.2.length ≤ row.height := by
  intro column member
  have largest : ∀ lengths : List Nat, ∀ n ∈ lengths, n ≤ lengths.foldr max 0 := by
    intro lengths n inside
    induction lengths with
    | nil => cases inside
    | cons first lengths ih =>
      rcases List.mem_cons.mp inside with rfl | inside
      · exact le_max_left _ _
      · exact le_trans (ih inside) (le_max_right _ _)
  have nonempty : row.columns.isEmpty = false := List.isEmpty_eq_false_iff_exists_mem.mpr ⟨column, member⟩
  rw [height, nonempty]
  exact largest _ _ (List.mem_map_of_mem member)

theorem not_done {row : PageRow ω} (left : row.isDone = false) : ∃ column ∈ row.columns, column.2 ≠ [] := by
  simpa [isDone] using left

theorem height_pos {n : Nat} {row : PageRow ω} (left : (row.drop n).isDone = false) : 0 < row.height := by
  obtain ⟨column, member, nonempty⟩ := not_done left
  obtain ⟨original, inside, rfl⟩ := List.mem_map.mp member
  have length := length_le_height row original inside
  have positive : 0 < (original.2.drop n).length := List.length_pos_iff.mpr nonempty
  rw [List.length_drop] at positive
  omega

theorem drop_size_lt {n : Nat} {row : PageRow ω} (positive : 0 < n) (left : (row.drop n).isDone = false) :
    (row.drop n).size < row.size := by
  obtain ⟨column, member, nonempty⟩ := not_done left
  obtain ⟨original, inside, rfl⟩ := List.mem_map.mp member
  have some_shorter : ∃ column ∈ row.columns, (column.2.drop n).length < column.2.length := by
    refine ⟨original, inside, ?_⟩
    have remains : 0 < (original.2.drop n).length := List.length_pos_iff.mpr nonempty
    rw [List.length_drop] at remains ⊢
    omega
  have all_shorter : ∀ column ∈ row.columns, (column.2.drop n).length ≤ column.2.length := by
    intro column _
    rw [List.length_drop]
    exact Nat.sub_le _ _
  have below := List.sum_lt_sum (fun column : ω × List Line => (column.2.drop n).length)
    (fun column => column.2.length)
    all_shorter some_shorter
  have same : (row.drop n).columns.map (fun column => column.2.length) =
      row.columns.map fun column => (column.2.drop n).length := by
    simp [drop, List.map_map, Function.comp_def]
  rw [size, size, same]
  exact below

end PageRow

def takeCount (row : PageRow ω) (current : List (PageRow ω)) (remaining : Int) : Nat :=
  let capacity := max 1 (remaining - if current.isEmpty then 0 else 1)
  min row.height capacity.toNat

def afterTake (n : Nat) (row : PageRow ω) (rest : List (PageRow ω)) : List (PageRow ω) :=
  if (row.drop n).isDone then rest else row.drop n :: rest

def pendingSize (pending : List (PageRow ω)) : Nat := (pending.map fun row => row.size + 1).sum

theorem takeCount_pos {row : PageRow ω} {n : Nat} (left : (row.drop n).isDone = false)
    (current : List (PageRow ω)) (remaining : Int) : 0 < takeCount row current remaining := by
  have height := PageRow.height_pos left
  have capacity : 0 < (max 1 (remaining - if current.isEmpty then 0 else 1)).toNat := by omega
  exact Nat.lt_min.mpr ⟨height, capacity⟩

theorem afterTake_smaller (row : PageRow ω) (rest current : List (PageRow ω)) (remaining : Int) :
    pendingSize (afterTake (takeCount row current remaining) row rest) < pendingSize (row :: rest) := by
  unfold afterTake
  cases left : (row.drop (takeCount row current remaining)).isDone with
  | true =>
    simp only [if_true, pendingSize, List.map_cons, List.sum_cons]
    omega
  | false =>
    have shorter := PageRow.drop_size_lt (takeCount_pos left current remaining) left
    simp only [Bool.false_eq_true, if_false, pendingSize, List.map_cons, List.sum_cons]
    omega

/-- The `while pending` loop of one source page, with the rows of the page being filled. -/
def fillPages (available : Int) (pending current : List (PageRow ω)) (remaining : Int) :
    List (List (PageRow ω)) :=
  match pending with
  | [] => if current.isEmpty then [] else [current]
  | row :: rest =>
    let take := takeCount row current remaining
    let placed := current ++ [row.take take]
    let left := remaining - (take + 1)
    have := afterTake_smaller row rest current remaining
    if left ≤ 0 ∨ (afterTake take row rest ≠ [] ∧ take < row.height) then
      placed :: fillPages available (afterTake take row rest) [] available
    else fillPages available (afterTake take row rest) placed left
termination_by pendingSize pending

def pageSize (document : ResumeDocument) : Int × Int :=
  match document.paper with
  | .letter => (612, 792)
  | .a4 => (595, 842)

def margin (document : ResumeDocument) : Int := (Double.mul document.style.margin (Double.ofInt 72)).toInt

def lineHeight (document : ResumeDocument) : Int :=
  max 9 (Double.mul (Double.ofInt 11) document.style.spacing.toDouble).toInt

def availableLines (document : ResumeDocument) (pageHeight : Int) : Int :=
  max 1 ((pageHeight - 2 * margin document) / lineHeight document)

def maxChars (document : ResumeDocument) (pageWidth : Int) : Nat :=
  (max 12 ((pageWidth - 2 * margin document) / 5)).toNat

def sourceRows (rt : Runtime) (document : ResumeDocument) (pageWidth : Int) :
    Option (List (List (PageRow Double))) :=
  document.pages.mapM fun page => page.rows.mapM (rowLines rt document (maxChars document pageWidth))

def paginate (available : Int) (sources : List (List (PageRow ω))) : List (List (PageRow ω)) :=
  (sources.map fun pending => fillPages available pending [] available).flatten

def paginateRows (rt : Runtime) (document : ResumeDocument) (pageWidth pageHeight : Int) :
    Option (List (List (PageRow Double))) :=
  (sourceRows rt document pageWidth).map fun sources =>
    let pages := paginate (availableLines document pageHeight) sources
    if pages.isEmpty then [[]] else pages

def PageRow.labels (row : PageRow ω) : List ω := row.columns.map (·.1)

theorem labels_drop (n : Nat) (row : PageRow ω) : (row.drop n).labels = row.labels := by
  simp [PageRow.labels, PageRow.drop, List.map_map, Function.comp_def]

theorem labels_take (n : Nat) (row : PageRow ω) : (row.take n).labels = row.labels := by
  simp [PageRow.labels, PageRow.take, List.map_map, Function.comp_def]

theorem mem_afterTake {n : Nat} {row other : PageRow ω} {rest : List (PageRow ω)}
    (member : other ∈ afterTake n row rest) : other = row.drop n ∨ other ∈ rest := by
  unfold afterTake at member
  split at member
  · exact .inr member
  · exact List.mem_cons.mp member

theorem good_afterTake {good : List ω → Prop} {n : Nat} {row : PageRow ω} {rest : List (PageRow ω)}
    (source : ∀ other ∈ row :: rest, good other.labels) :
    ∀ other ∈ afterTake n row rest, good other.labels := by
  intro other member
  rcases mem_afterTake member with rfl | member
  · rw [labels_drop]
    exact source row List.mem_cons_self
  · exact source other (List.mem_cons_of_mem _ member)

theorem good_placed {good : List ω → Prop} {row : PageRow ω} {current : List (PageRow ω)} (n : Nat)
    (first : good row.labels) (placed : ∀ other ∈ current, good other.labels) :
    ∀ other ∈ current ++ [row.take n], good other.labels := by
  intro other member
  rcases List.mem_append.mp member with member | member
  · exact placed other member
  · rw [List.mem_singleton.mp member, labels_take]
    exact first

section Lines

variable (p : ω → Bool)

def linesOf (rows : List (PageRow ω)) : List Line :=
  rows.flatMap fun row => (row.columns.filter (p ·.1)).flatMap (·.2)

def Single (labels : List ω) : Prop := (labels.filter p).length ≤ 1

theorem linesOf_append (first second : List (PageRow ω)) :
    linesOf p (first ++ second) = linesOf p first ++ linesOf p second := by
  simp [linesOf]

theorem linesOf_cons (row : PageRow ω) (rows : List (PageRow ω)) :
    linesOf p (row :: rows) = linesOf p [row] ++ linesOf p rows :=
  linesOf_append p [row] rows

theorem linesOf_done {row : PageRow ω} (done : row.isDone = true) : linesOf p [row] = [] := by
  have empty : ∀ column ∈ row.columns, column.2 = [] := by simpa [PageRow.isDone] using done
  simp only [linesOf, List.flatMap_cons, List.flatMap_nil, List.append_nil, List.flatMap_eq_nil_iff]
  intro column member
  exact empty column (List.mem_filter.mp member).1

variable {p}

theorem single_cons {label : ω} {labels : List ω} (single : Single p (label :: labels)) :
    Single p labels ∧ (p label = true → ∀ other ∈ labels, p other = false) := by
  unfold Single at single ⊢
  rw [List.filter_cons] at single
  split at single
  · rename_i chosen
    have nothing : labels.filter p = [] := by
      rw [← List.length_eq_zero_iff]
      rw [List.length_cons] at single
      omega
    refine ⟨by simp [nothing], fun _ other member => ?_⟩
    simpa using List.filter_eq_nil_iff.mp nothing other member
  · rename_i refused
    exact ⟨single, fun chosen => absurd chosen refused⟩

theorem linesOf_split (row : PageRow ω) (single : Single p row.labels) (n : Nat) :
    linesOf p [row.take n] ++ linesOf p [row.drop n] = linesOf p [row] := by
  obtain ⟨columns⟩ := row
  simp only [linesOf, PageRow.take, PageRow.drop, List.flatMap_cons, List.flatMap_nil, List.append_nil]
  induction columns with
  | nil => rfl
  | cons column columns ih =>
    obtain ⟨single, alone⟩ := single_cons single
    cases chosen : p column.1 with
    | true =>
      have others : ∀ other ∈ columns, p other.1 = false :=
        fun other member => alone chosen other.1 (List.mem_map_of_mem member)
      have none_left : ∀ f : ω × List Line → List Line,
          (columns.map fun other => (other.1, f other)).filter (p ·.1) = [] := by
        intro f
        rw [List.filter_eq_nil_iff]
        intro other member
        obtain ⟨original, inside, rfl⟩ := List.mem_map.mp member
        simpa using others original inside
      have none_here : columns.filter (p ·.1) = [] := by
        rw [List.filter_eq_nil_iff]
        intro other member
        simpa using others other member
      simp [chosen, none_left, none_here]
    | false => simpa [chosen] using ih single

theorem linesOf_afterTake (row : PageRow ω) (single : Single p row.labels) (rest : List (PageRow ω))
    (n : Nat) :
    linesOf p [row.take n] ++ linesOf p (afterTake n row rest) = linesOf p (row :: rest) := by
  rw [linesOf_cons p row, ← linesOf_split row single n, List.append_assoc]
  unfold afterTake
  split
  · rename_i done
    rw [linesOf_done p done, List.nil_append]
  · rw [linesOf_cons p (row.drop n)]

/-- What was placed, what is on the current page and what is pending add up to the same lines throughout. -/
theorem linesOf_fillPages (available : Int) (pending current : List (PageRow ω)) (remaining : Int)
    (single : ∀ row ∈ pending, Single p row.labels) :
    linesOf p (fillPages available pending current remaining).flatten = linesOf p current ++
      linesOf p pending := by
  induction pending, current, remaining using fillPages.induct available with
  | case1 current remaining empty =>
    rw [fillPages, if_pos empty, List.isEmpty_iff.mp empty]
    rfl
  | case2 current remaining nonempty =>
    rw [fillPages, if_neg nonempty]
    simp [linesOf]
  | case3 current remaining row rest take left _ full ih =>
    have split := linesOf_afterTake row (single row List.mem_cons_self) rest take
    rw [fillPages, if_pos full, List.flatten_cons, linesOf_append, linesOf_append, ih (good_afterTake single),
      ← split]
    simp [linesOf, take]
  | case4 current remaining row rest take placed left _ room ih =>
    have split := linesOf_afterTake row (single row List.mem_cons_self) rest take
    rw [fillPages, if_neg room, ih (good_afterTake single), linesOf_append, ← split, List.append_assoc]

theorem linesOf_paginate (available : Int) (sources : List (List (PageRow ω)))
    (single : ∀ rows ∈ sources, ∀ row ∈ rows, Single p row.labels) :
    linesOf p (paginate available sources).flatten = linesOf p sources.flatten := by
  induction sources with
  | nil => rfl
  | cons rows sources ih =>
    have first := linesOf_fillPages available rows [] available (single rows List.mem_cons_self)
    have others := ih fun other member => single other (List.mem_cons_of_mem _ member)
    have unfolded : paginate available (rows :: sources) = fillPages available rows [] available ++ paginate
      available sources := rfl
    rw [unfolded, List.flatten_append, linesOf_append, first, others, List.flatten_cons, linesOf_append]
    rfl

end Lines

theorem labels_fillPages (available : Int) (good : List ω → Prop) (pending current : List (PageRow ω))
    (remaining : Int) (source : ∀ row ∈ pending, good row.labels)
    (placed : ∀ row ∈ current, good row.labels) :
    ∀ page ∈ fillPages available pending current remaining, ∀ row ∈ page, good row.labels := by
  induction pending, current, remaining using fillPages.induct available with
  | case1 current remaining empty =>
    rw [fillPages, if_pos empty]
    exact fun _ member => nomatch member
  | case2 current remaining nonempty =>
    rw [fillPages, if_neg nonempty]
    intro page member
    rw [List.mem_singleton.mp member]
    exact placed
  | case3 current remaining row rest take left _ full ih =>
    rw [fillPages, if_pos full]
    intro page member
    rcases List.mem_cons.mp member with same | member
    · rw [same]
      exact good_placed take (source row List.mem_cons_self) placed
    · exact ih (good_afterTake source) (fun _ inside => nomatch inside) page member
  | case4 current remaining row rest take placed' left _ room ih =>
    rw [fillPages, if_neg room]
    exact ih (good_afterTake source) (good_placed take (source row List.mem_cons_self) placed)

theorem labels_paginate (available : Int) (sources : List (List (PageRow ω))) :
    ∀ page ∈ paginate available sources, ∃ rows ∈ sources, ∀ good : List ω → Prop,
      (∀ row ∈ rows, good row.labels) → ∀ row ∈ page, good row.labels := by
  intro page member
  obtain ⟨filled, inside, onPage⟩ := List.mem_flatten.mp member
  obtain ⟨rows, source, rfl⟩ := List.mem_map.mp inside
  refine ⟨rows, source, fun good all => ?_⟩
  exact labels_fillPages available good rows [] available all (fun _ none => nomatch none) page onPage

theorem fillPages_ne_nil (available : Int) (pending current : List (PageRow ω)) (remaining : Int)
    (something : pending ≠ [] ∨ current ≠ []) : fillPages available pending current remaining ≠ [] := by
  induction pending, current, remaining using fillPages.induct available with
  | case1 current remaining empty =>
    rcases something with something | something
    · exact absurd rfl something
    · exact absurd (List.isEmpty_iff.mp empty) something
  | case2 current remaining nonempty =>
    rw [fillPages, if_neg nonempty]
    exact List.cons_ne_nil _ _
  | case3 current remaining row rest take left _ full ih =>
    rw [fillPages, if_pos full]
    exact List.cons_ne_nil _ _
  | case4 current remaining row rest take placed left _ room ih =>
    rw [fillPages, if_neg room]
    exact ih (.inr (by simp [placed]))

section Relabel

variable {ω' : Type}

def PageRow.relabel (f : ω → ω') (row : PageRow ω) : PageRow ω' :=
  ⟨row.columns.map fun column => (f column.1, column.2)⟩

theorem height_relabel (f : ω → ω') (row : PageRow ω) : (row.relabel f).height = row.height := by
  simp [PageRow.height, PageRow.relabel, List.map_map, Function.comp_def]

theorem take_relabel (f : ω → ω') (n : Nat) (row : PageRow ω) :
    (row.relabel f).take n = (row.take n).relabel f := by
  simp [PageRow.take, PageRow.relabel, List.map_map, Function.comp_def]

theorem drop_relabel (f : ω → ω') (n : Nat) (row : PageRow ω) :
    (row.relabel f).drop n = (row.drop n).relabel f := by
  simp [PageRow.drop, PageRow.relabel, List.map_map, Function.comp_def]

theorem isDone_relabel (f : ω → ω') (row : PageRow ω) : (row.relabel f).isDone = row.isDone := by
  simp [PageRow.isDone, PageRow.relabel, List.all_map, Function.comp_def]

theorem takeCount_relabel (f : ω → ω') (row : PageRow ω) (current : List (PageRow ω)) (remaining : Int) :
    takeCount (row.relabel f) (current.map (·.relabel f)) remaining = takeCount row current remaining := by
  simp [takeCount, height_relabel]

theorem afterTake_relabel (f : ω → ω') (n : Nat) (row : PageRow ω) (rest : List (PageRow ω)) :
    afterTake n (row.relabel f) (rest.map (·.relabel f)) = (afterTake n row rest).map (·.relabel f) := by
  unfold afterTake
  rw [drop_relabel, isDone_relabel]
  split <;> simp

theorem fillPages_relabel (f : ω → ω') (available : Int) (pending current : List (PageRow ω))
    (remaining : Int) :
    fillPages available (pending.map (·.relabel f)) (current.map (·.relabel f)) remaining =
      (fillPages available pending current remaining).map (List.map (·.relabel f)) := by
  induction pending, current, remaining using fillPages.induct available with
  | case1 current remaining empty =>
    rw [List.map_nil, fillPages, fillPages, if_pos empty, if_pos (by simpa using empty)]
    rfl
  | case2 current remaining nonempty =>
    rw [List.map_nil, fillPages, fillPages, if_neg nonempty, if_neg (by simpa using nonempty)]
    rfl
  | case3 current remaining row rest take left _ full ih =>
    have count : takeCount (row.relabel f) (current.map (·.relabel f)) remaining = take :=
      takeCount_relabel f row current remaining
    rw [List.map_nil] at ih
    rw [List.map_cons, fillPages, fillPages]
    rw [count, afterTake_relabel, height_relabel, take_relabel, if_pos full,
      if_pos (by simpa [left] using full), ih]
    simp [take]
  | case4 current remaining row rest take placed left _ room ih =>
    have count : takeCount (row.relabel f) (current.map (·.relabel f)) remaining = take :=
      takeCount_relabel f row current remaining
    rw [List.map_cons, fillPages, fillPages]
    rw [count, afterTake_relabel, height_relabel, take_relabel, if_neg room,
      if_neg (by simpa [left] using room), ← ih]
    simp [placed, left]

theorem paginate_relabel (f : ω → ω') (available : Int) (sources : List (List (PageRow ω))) :
    paginate available (sources.map (List.map (·.relabel f))) =
      (paginate available sources).map (List.map (·.relabel f)) := by
  unfold paginate
  rw [List.map_map, List.map_flatten, List.map_map]
  congr 1
  apply List.map_congr_left
  intro rows _
  exact fillPages_relabel f available rows [] available

end Relabel

end ManifestCV.Render
