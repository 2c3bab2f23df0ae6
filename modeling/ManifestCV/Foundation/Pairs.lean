import ManifestCV.Foundation.Delimiters

namespace ManifestCV.Foundation

variable {α : Type} [DecidableEq α]

section Fuel

variable (delimiters : List (List α)) (wrap : List α → List α)

theorem substituteFrom_fuel {fuel more : Nat} {source : List α} (enough : source.length ≤ fuel)
    (plenty : source.length ≤ more) :
    substituteFrom delimiters wrap fuel source = substituteFrom delimiters wrap more source := by
  induction fuel generalizing more source with
  | zero =>
    rw [List.length_eq_zero_iff.mp (Nat.le_zero.mp enough)]
    cases more <;> rfl
  | succ fuel ih =>
    cases source with
    | nil => cases more <;> rfl
    | cons a rest =>
      rw [List.length_cons] at enough plenty
      obtain ⟨more, rfl⟩ : ∃ n, more = n + 1 := ⟨more - 1, by omega⟩
      rw [substituteFrom, substituteFrom]
      cases found : firstMatch delimiters (a :: rest) with
      | some split =>
        have shorter := firstMatch_shorter found
        rw [List.length_cons] at shorter
        have same := @ih more split.2 (by omega) (by omega)
        simp only [same]
      | none =>
        have same := @ih more rest (by omega) (by omega)
        simp only [same]

theorem substitute_match {source group after : List α}
    (found : firstMatch delimiters source = some (group, after)) :
    substitute delimiters wrap source = wrap group ++ substitute delimiters wrap after := by
  have shorter := firstMatch_shorter found
  cases source with
  | nil => exact absurd shorter (Nat.not_lt_zero _)
  | cons a rest =>
    rw [List.length_cons] at shorter
    rw [substitute, List.length_cons, substituteFrom, found, substitute]
    simp only
    rw [substituteFrom_fuel delimiters wrap (by omega) (Nat.le_refl after.length)]

theorem substitute_keep {a : α} {rest : List α} (unmatched : firstMatch delimiters (a :: rest) = none) :
    substitute delimiters wrap (a :: rest) = a :: substitute delimiters wrap rest := by
  rw [substitute, List.length_cons, substituteFrom, unmatched]
  rfl

end Fuel

section SingleMarks

def singles (marks : List α) : List (List α) := marks.map ([·])

/-- Between which two marks a text ends that is read from the left, given the marks it is between at its
    start. A mark opens a group where it comes again, with an item between; `true` stands for a group that is
    still empty. -/
def scan (marks : List α) : Option (α × Bool) → List α → List α → Option α
  | state, [], _ => state.map Prod.fst
  | none, a :: before, after =>
    if a ∈ marks ∧ a ∈ (before ++ after).drop 1 then scan marks (some (a, true)) before after else
      scan marks none before after
  | some (mark, true), _ :: before, after => scan marks (some (mark, false)) before after
  | some (mark, false), a :: before, after =>
    if a = mark then scan marks none before after else scan marks (some (mark, false)) before after

/-- The mark whose group is open after `before`, if one is, when `after` follows. -/
def openMark (marks before after : List α) : Option α := scan marks none before after

variable {marks : List α}

theorem beforeFirst_single {a : α} {group : List α} (absent : a ∉ group) (after : List α) :
    beforeFirst [a] (group ++ a :: after) = some (group, after) := by
  have here : beforeFirst [a] (a :: after) = some ([], after) := by simp [beforeFirst, List.dropPrefix?]
  rw [beforeFirst_skip absent, here, Option.map_some, List.append_nil]

theorem beforeFirst_absent {a : α} {rest : List α} (absent : a ∉ rest) : beforeFirst [a] rest = none := by
  have skipped : beforeFirst [a] (rest ++ []) = (beforeFirst [a] []).map fun found =>
    (rest ++ found.1, found.2) := beforeFirst_skip absent []
  rw [List.append_nil] at skipped
  rw [skipped]
  rfl

theorem delimited_single {a x : α} {group : List α} (absent : a ∉ group) (after : List α) :
    delimited (a :: x :: (group ++ a :: after)) [a] = some (x :: group, after) := by
  have opened : (a :: x :: (group ++ a :: after)).dropPrefix? [a] = some (x :: (group ++ a :: after)) := by
    rw [dropPrefix_some, List.singleton_append]
  simp only [delimited, opened, beforeFirst_single absent, Option.map_some]

theorem delimited_absent {a b : α} {rest : List α} (other : b ≠ a ∨ a ∉ rest.drop 1) :
    delimited (b :: rest) [a] = none := by
  by_cases same : b = a
  · subst same
    have opened : (b :: rest).dropPrefix? [b] = some rest := by
      rw [dropPrefix_some, List.singleton_append]
    rw [delimited, opened]
    cases rest with
    | nil => rfl
    | cons x rest =>
      have absent := other.resolve_left fun differs => differs rfl
      simp only [beforeFirst_absent (show b ∉ rest from absent), Option.map_none]
  · rw [delimited, dropPrefix_skip same]

theorem firstMatch_single {a x : α} (mark : a ∈ marks) {group : List α} (absent : a ∉ group)
    (after : List α) :
    firstMatch (singles marks) (a :: x :: (group ++ a :: after)) = some (x :: group, after) := by
  rw [firstMatch, singles]
  induction marks with
  | nil => cases mark
  | cons first marks ih =>
    rw [List.map_cons, List.findSome?_cons]
    by_cases same : a = first
    · rw [← same, delimited_single absent]
    · rw [delimited_absent (.inl same)]
      exact ih ((List.mem_cons.mp mark).resolve_left same)

theorem firstMatch_absent {a : α} {rest : List α} (nothing : ¬ (a ∈ marks ∧ a ∈ rest.drop 1)) :
    firstMatch (singles marks) (a :: rest) = none := by
  rw [firstMatch, singles, List.findSome?_eq_none_iff]
  intro delimiter member
  obtain ⟨mark, inside, rfl⟩ := List.mem_map.mp member
  apply delimited_absent
  by_cases same : a = mark
  · subst same
    exact .inr fun later => nothing ⟨inside, later⟩
  · exact .inl same

theorem scan_group {mark : α} {group : List α} (absent : mark ∉ group) (before after : List α) :
    scan marks (some (mark, false)) (group ++ mark :: before) after = scan marks none before after := by
  induction group with
  | nil => rw [List.nil_append, scan, if_pos rfl]
  | cons a group ih =>
    obtain ⟨differs, absent⟩ := not_or.mp (mt List.mem_cons.mpr absent)
    rw [List.cons_append, scan, if_neg (Ne.symm differs)]
    exact ih absent

theorem scan_unclosed {mark : α} {group : List α} (absent : mark ∉ group) (after : List α) :
    scan marks (some (mark, false)) group after = some mark := by
  induction group with
  | nil => rfl
  | cons a group ih =>
    obtain ⟨differs, absent⟩ := not_or.mp (mt List.mem_cons.mpr absent)
    rw [scan, if_neg (Ne.symm differs)]
    exact ih absent

end SingleMarks

section Core

variable (marks : List α) (wrap : List α → List α) (core : α → Bool)

/-- What the substitution makes of a text whose first part ends outside of any group: all of that part is
    done. -/
def Passed (before rest : List α) : Prop :=
  ∃ result, substitute (singles marks) wrap (before ++ rest) = result ++ substitute
    (singles marks) wrap rest ∧
    result.filter core = before.filter core

/-- What it makes of a text whose first part ends in a group: the group goes on up to the next mark of its
    kind. -/
def Within (mark : α) (before rest : List α) : Prop :=
  mark ∈ marks ∧ ∃ result opened closed after, rest = closed ++ mark :: after ∧ mark ∉ closed ∧
    substitute (singles marks) wrap (before ++ rest) =
      result ++ wrap (opened ++ closed) ++ substitute (singles marks) wrap after ∧
    (result ++ opened).filter core = before.filter core

def Scanned (before rest : List α) : Prop :=
  match openMark marks before rest with
  | none => Passed marks wrap core before rest
  | some mark => Within marks wrap core mark before rest

variable {marks : List α} {wrap : List α → List α} {core : α → Bool}

theorem Scanned.prepend (part made : List α) {before rest : List α}
    (scanned : Scanned marks wrap core before rest)
    (same : openMark marks (part ++ before) rest = openMark marks before rest)
    (done : substitute (singles marks) wrap (part ++ before ++ rest) = made ++ substitute (singles marks) wrap
      (before ++ rest))
    (kept : made.filter core = part.filter core) : Scanned marks wrap core (part ++ before) rest := by
  unfold Scanned at scanned ⊢
  rw [same]
  split at scanned
  · obtain ⟨result, out, filtered⟩ := scanned
    refine ⟨made ++ result, ?_, ?_⟩
    · rw [done, out, List.append_assoc]
    · rw [List.filter_append, List.filter_append, kept, filtered]
  · obtain ⟨mark, result, opened, closed, after, shape, absent, out, filtered⟩ := scanned
    refine ⟨mark, made ++ result, opened, closed, after, shape, absent, ?_, ?_⟩
    · rw [done, out]
      simp only [List.append_assoc]
    · rw [List.append_assoc, List.filter_append, kept, filtered, List.filter_append]

variable {first : α} {rest : List α}

theorem scanned_opening (markless : ∀ mark ∈ marks, core mark = false) {a : α} {inner : List α}
    (opens : a ∈ marks) (unclosed : a ∉ inner.drop 1) (plain : first ∉ marks)
    (later : a ∈ (inner ++ first :: rest).drop 1) :
    Scanned marks wrap core (a :: inner) (first :: rest) := by
  have dropped : (a :: inner).filter core = inner.filter core := by
    apply List.filter_cons_of_neg
    rw [markless a opens]
    exact Bool.false_ne_true
  have apart : a ≠ first := fun same => plain (same ▸ opens)
  have opened : openMark marks (a :: inner) (first :: rest) = some a := by
    rw [openMark, scan, if_pos ⟨opens, later⟩]
    cases inner with
    | nil => rfl
    | cons x inner => exact scan_unclosed unclosed _
  unfold Scanned Within
  rw [opened, dropped]
  cases inner with
  | nil =>
    obtain ⟨closed, after, rfl, absent⟩ := List.eq_append_cons_of_mem later
    have absent' : a ∉ first :: closed := fun inside => (List.mem_cons.mp inside).elim apart absent
    exact ⟨opens, [], [], first :: closed, after, rfl, absent',
      substitute_match _ wrap (firstMatch_single opens absent after), rfl⟩
  | cons x inner =>
    have behind : a ∈ first :: rest := (List.mem_append.mp later).resolve_left unclosed
    obtain ⟨closed, after, shape, absent⟩ := List.eq_append_cons_of_mem behind
    have whole : a :: x :: inner ++ first :: rest = a :: x :: (inner ++ closed ++ a :: after) := by
      rw [shape]
      simp
    have absent' : a ∉ inner ++ closed := fun inside => (List.mem_append.mp inside).elim unclosed absent
    refine ⟨opens, [], x :: inner, closed, after, shape, absent, ?_, rfl⟩
    rw [whole]
    exact substitute_match _ wrap (firstMatch_single opens absent' after)

/-- Reading a text up to an item that is no mark tells what the substitution makes of it. -/
theorem substitute_scan (markless : ∀ mark ∈ marks, core mark = false)
    (wraps : ∀ group, (wrap group).filter core = group.filter core) (plain : first ∉ marks)
    (before : List α) : Scanned marks wrap core before (first :: rest) := by
  have main : ∀ n, ∀ before : List α, before.length ≤ n → Scanned marks wrap core before (first :: rest) := by
    intro n
    induction n with
    | zero =>
      intro before short
      rw [List.length_eq_zero_iff.mp (Nat.le_zero.mp short)]
      exact ⟨[], rfl, rfl⟩
    | succ n ih =>
      intro before short
      cases before with
      | nil => exact ⟨[], rfl, rfl⟩
      | cons a before =>
        rw [List.length_cons] at short
        by_cases opens : a ∈ marks ∧ a ∈ (before ++ first :: rest).drop 1
        · by_cases closes : a ∈ before.drop 1
          · obtain ⟨x, inner, rfl⟩ : ∃ x inner, before = x :: inner := List.exists_cons_of_ne_nil fun empty =>
              by simp [empty] at closes
            obtain ⟨group, later, same, absent⟩ := List.eq_append_cons_of_mem closes
            rw [List.drop_succ_cons, List.drop_zero] at same
            subst same
            have fewer : later.length ≤ n := by
              simp only [List.length_cons, List.length_append] at short
              omega
            have parts : a :: x :: (group ++ a :: later) = (a :: x :: (group ++ [a])) ++ later := by simp
            rw [parts]
            apply (ih later fewer).prepend _ (wrap (x :: group))
            · rw [← parts, openMark, scan, if_pos opens, scan, scan_group absent]
              rfl
            · have shape : a :: x :: (group ++ [a]) ++ later ++ first :: rest =
                  a :: x :: (group ++ a :: (later ++ first :: rest)) := by
                simp
              rw [shape]
              exact substitute_match _ wrap (firstMatch_single opens.1 absent _)
            · have gone : core a = false := markless a opens.1
              rw [wraps, List.filter_cons, List.filter_cons, List.filter_cons, List.filter_append,
                List.filter_singleton, gone]
              simp
          · exact scanned_opening markless opens.1 closes plain opens.2
        · apply (ih before (by omega)).prepend [a] [a]
          · rw [List.singleton_append, openMark, scan, if_neg opens]
            rfl
          · exact substitute_keep _ wrap (firstMatch_absent opens)
          · rfl
  exact main before.length before (Nat.le_refl _)

/-- Items that are no marks, or that come no more with an item between, stay as they are. -/
theorem substitute_alone {part rest : List α}
    (alone : ∀ before a after, part = before ++ a :: after → ¬ (a ∈ marks ∧ a ∈ (after ++ rest).drop 1)) :
    substitute (singles marks) wrap (part ++ rest) = part ++ substitute (singles marks) wrap rest := by
  induction part with
  | nil => rfl
  | cons a part ih =>
    have unmatched : firstMatch (singles marks) (a :: (part ++ rest)) = none :=
      firstMatch_absent (alone [] a part rfl)
    have others := ih fun before b after same => alone (a :: before) b after (by rw [same]; rfl)
    rw [List.cons_append, substitute_keep _ wrap unmatched, others, List.cons_append]

omit [DecidableEq α] in
theorem append_core_cancel {first second rest other : List α} {a b : α} (countsA : core a = true)
    (countsB : core b = true) (same : first ++ a :: rest = second ++ b :: other)
    (kept : first.filter core = second.filter core) :
    first = second ∧ a :: rest = b :: other := by
  have more : ∀ {c : α} {middle tail tail' shorter longer : List α}, core c = true →
    c :: tail = middle ++ tail' →
      longer = shorter ++ middle → longer.filter core = shorter.filter core → middle = [] := by
    intro c middle tail tail' shorter longer counts shape extended equal
    cases middle with
    | nil => rfl
    | cons d middle =>
      cases shape
      rw [extended, List.filter_append, List.filter_cons_of_pos counts] at equal
      have lengths := congrArg List.length equal
      rw [List.length_append, List.length_cons] at lengths
      omega
  rcases List.append_eq_append_iff.mp same with ⟨middle, extended, shape⟩ | ⟨middle, extended, shape⟩
  · have empty := more countsA shape extended kept.symm
    rw [empty, List.append_nil] at extended
    rw [empty, List.nil_append] at shape
    exact ⟨extended.symm, shape⟩
  · have empty := more countsB shape extended kept
    rw [empty, List.append_nil] at extended
    rw [empty, List.nil_append] at shape
    exact ⟨extended, shape.symm⟩

omit [DecidableEq α] in
theorem first_place {a : α} {before after other rest : List α} (absent : a ∉ before) (fresh : a ∉ other)
    (same : before ++ a :: after = other ++ a :: rest) : before = other ∧ after = rest := by
  induction before generalizing other with
  | nil =>
    cases other with
    | nil => exact ⟨rfl, (List.cons.inj same).2⟩
    | cons b other =>
      have head : a = b := (List.cons.inj same).1
      exact absurd (head ▸ List.mem_cons_self) fresh
  | cons b before ih =>
    cases other with
    | nil =>
      have head : b = a := (List.cons.inj same).1
      exact absurd (head ▸ List.mem_cons_self) absent
    | cons c other =>
      obtain ⟨rfl, tails⟩ := List.cons.inj same
      have inner := ih (List.not_mem_of_not_mem_cons absent) (List.not_mem_of_not_mem_cons fresh) tails
      exact ⟨by rw [inner.1], inner.2⟩

end Core

section Segments

variable {delimiters : List (List α)} {left right : List α} {core : α → Bool}

omit [DecidableEq α] in
theorem filter_markless {list : List α} (markless : ∀ a ∈ list, core a = false) : list.filter core = [] := by
  rw [List.filter_eq_nil_iff]
  intro a inside
  rw [markless a inside]
  exact Bool.false_ne_true

omit [DecidableEq α] in
theorem Substituted.filter {wrap : List α → List α}
    (markless : ∀ delimiter ∈ delimiters, ∀ a ∈ delimiter, core a = false)
    (wraps : ∀ group, (wrap group).filter core = group.filter core) {source result : List α}
    (made : Substituted delimiters wrap source result) : result.filter core = source.filter core := by
  induction made with
  | done => rfl
  | keep a _ ih => rw [List.filter_cons, List.filter_cons, ih]
  | matched member _ _ ih =>
    have gone := filter_markless (markless _ member)
    rw [List.filter_append, List.filter_append, List.filter_append, List.filter_append, wraps, ih, gone,
      List.nil_append, List.append_nil]

omit [DecidableEq α] in
theorem part_behind {list rest before part after : List α} (nonempty : part ≠ [])
    (absent : ∀ a ∈ list, a ∉ part) (same : list ++ rest = before ++ part ++ after) :
    ∃ between, before = list ++ between ∧ rest = between ++ part ++ after := by
  rw [List.append_assoc] at same
  rcases List.append_eq_append_iff.mp same with ⟨between, longer, shape⟩ | ⟨between, shorter, shape⟩
  · exact ⟨between, longer, by rw [shape, List.append_assoc]⟩
  · cases between with
    | nil =>
      rw [List.append_nil] at shorter
      exact ⟨[], by rw [shorter, List.append_nil], by simpa using shape.symm⟩
    | cons a between =>
      obtain ⟨b, part, rfl⟩ := List.exists_cons_of_ne_nil nonempty
      rw [List.cons_append, List.cons_append] at shape
      have head := (List.cons.inj shape).1
      subst head
      exact absurd List.mem_cons_self (absent b (by rw [shorter]; simp))

omit [DecidableEq α] in
theorem Substituted.start {wrap : List α → List α} {part after result : List α}
    (absent : ∀ delimiter ∈ delimiters, delimiter ≠ [] ∧ ∀ a ∈ delimiter, a ∉ part)
    (made : Substituted delimiters wrap (part ++ after) result) :
    ∃ last, result = part ++ last ∧ Substituted delimiters wrap after last := by
  induction part generalizing result with
  | nil => exact ⟨result, rfl, made⟩
  | cons a part ih =>
    have others : ∀ delimiter ∈ delimiters, delimiter ≠ [] ∧ ∀ a ∈ delimiter, a ∉ part :=
        fun delimiter member =>
      ⟨(absent delimiter member).1, fun b inside later =>
        (absent delimiter member).2 b inside (List.mem_cons_of_mem _ later)⟩
    generalize source : a :: part ++ after = whole at made
    cases made with
    | done => cases source
    | keep b made =>
      cases source
      obtain ⟨last, same, rest⟩ := ih others made
      exact ⟨last, by rw [same]; rfl, rest⟩
    | @matched delimiter group rest made member nonempty later =>
      obtain ⟨b, tail, rfl⟩ := List.exists_cons_of_ne_nil (absent delimiter member).1
      have head := (List.cons.inj source).1
      subst head
      exact absurd List.mem_cons_self ((absent _ member).2 a List.mem_cons_self)

omit [DecidableEq α] in
theorem Substituted.segment (markless : ∀ delimiter ∈ delimiters, ∀ a ∈ delimiter, core a = false)
    (ends : ∀ a ∈ left ++ right, core a = false) {source result : List α}
    (made : Substituted delimiters (fun group => left ++ group ++ right) source result)
    {before part after : List α} (nonempty : part ≠ []) (absent : ∀ delimiter ∈ delimiters, delimiter ≠ [] ∧
      ∀ a ∈ delimiter, a ∉ part) (same : source = before ++ part ++ after) :
    ∃ first last, result = first ++ part ++ last ∧ first.filter core = before.filter core ∧ last.filter core =
        after.filter core := by
  have leftGone := filter_markless fun a inside => ends a (List.mem_append_left right inside)
  have rightGone := filter_markless fun a inside => ends a (List.mem_append_right left inside)
  have wraps : ∀ group, (left ++ group ++ right).filter core = group.filter core := by
    intro group
    rw [List.filter_append, List.filter_append, leftGone, rightGone, List.nil_append, List.append_nil]
  induction made generalizing before with
  | done =>
    rw [eq_comm, List.append_eq_nil_iff, List.append_eq_nil_iff] at same
    exact absurd same.1.2 nonempty
  | @keep a rest result made ih =>
    cases before with
    | nil =>
      rw [List.nil_append] at same
      have whole : Substituted delimiters (fun group => left ++ group ++ right) (part ++ after)
          (a :: result) := by
        rw [← same]
        exact .keep a made
      obtain ⟨last, shape, later⟩ := whole.start absent
      exact ⟨[], last, by rw [shape]; rfl, rfl, later.filter markless wraps⟩
    | cons b before =>
      obtain ⟨rfl, inner⟩ := List.cons.inj same
      obtain ⟨first, last, shape, filtered, later⟩ := ih inner
      exact ⟨a :: first, last, by rw [shape]; rfl, by rw [List.filter_cons, List.filter_cons, filtered],
        later⟩
  | @matched delimiter group rest result member _ made ih =>
    have gone := filter_markless (markless delimiter member)
    obtain ⟨delimiterSome, apart⟩ := absent delimiter member
    rw [List.append_assoc, List.append_assoc] at same
    obtain ⟨between, rfl, inner⟩ := part_behind nonempty apart same
    have inGroup : ∀ middle, group = between ++ part ++ middle → after = middle ++ (delimiter ++ rest) →
        ∃ first last, left ++ group ++ right ++ result = first ++ part ++ last ∧
          first.filter core = (delimiter ++ between).filter core ∧ last.filter core = after.filter core := by
      intro middle shape behind
      refine ⟨left ++ between, middle ++ right ++ result, by simp [shape], ?_, ?_⟩
      · rw [List.filter_append, List.filter_append, leftGone, gone]
      · rw [behind, List.filter_append, List.filter_append, List.filter_append, List.filter_append,
          rightGone, gone, made.filter markless wraps, List.append_nil, List.nil_append]
    rw [List.append_assoc] at inner
    rcases List.append_eq_append_iff.mp inner with ⟨middle, longer, shape⟩ | ⟨middle, shorter, shape⟩
    · rw [← List.append_assoc] at shape
      obtain ⟨later, rfl, behind⟩ := part_behind nonempty apart shape
      obtain ⟨first, last, out, filtered, afterwards⟩ := ih behind
      refine ⟨left ++ group ++ right ++ first, last, by simp [out], ?_, afterwards⟩
      rw [longer, List.filter_append, wraps, filtered, List.filter_append, List.filter_append,
        List.filter_append, gone, List.nil_append, List.nil_append]
    · rcases List.append_eq_append_iff.mp shape with ⟨tail, longer, behind⟩ | ⟨tail, cut, behind⟩
      · exact inGroup tail (by rw [shorter, longer, List.append_assoc]) behind
      · cases tail with
        | nil =>
          rw [List.append_nil] at cut
          exact inGroup [] (by rw [shorter, cut, List.append_nil]) behind.symm
        | cons a tail =>
          obtain ⟨b, others, rfl⟩ := List.exists_cons_of_ne_nil delimiterSome
          have head := (List.cons.inj behind).1
          subst head
          exact absurd (by rw [cut]; simp) (apart b List.mem_cons_self)

end Segments

end ManifestCV.Foundation
