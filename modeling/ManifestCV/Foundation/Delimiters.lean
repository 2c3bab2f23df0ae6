import Mathlib.Data.List.Basic
import ManifestCV.Foundation.Text

namespace ManifestCV.Foundation

section Patterns

variable {α : Type} [DecidableEq α]

def beforeFirst (delimiter : List α) : List α → Option (List α × List α)
  | [] => none
  | a :: rest =>
    match (a :: rest).dropPrefix? delimiter with
    | some after => some ([], after)
    | none => (beforeFirst delimiter rest).map fun found => (a :: found.1, found.2)

def delimited (source delimiter : List α) : Option (List α × List α) :=
  match source.dropPrefix? delimiter with
  | some (a :: rest) => (beforeFirst delimiter rest).map fun found => (a :: found.1, found.2)
  | _ => none

def firstMatch (delimiters : List (List α)) (source : List α) : Option (List α × List α) :=
  delimiters.findSome? (delimited source)

def substituteFrom (delimiters : List (List α)) (wrap : List α → List α) : Nat → List α → List α
  | 0, source => source
  | _ + 1, [] => []
  | fuel + 1, a :: rest =>
    match firstMatch delimiters (a :: rest) with
    | some (group, after) => wrap group ++ substituteFrom delimiters wrap fuel after
    | none => a :: substituteFrom delimiters wrap fuel rest

/-- `re.sub` of alternatives with one group each: every match becomes its wrapped group. -/
def substitute (delimiters : List (List α)) (wrap : List α → List α) (source : List α) : List α :=
  substituteFrom delimiters wrap source.length source

inductive Substituted (delimiters : List (List α)) (wrap : List α → List α) : List α → List α → Prop
  | done : Substituted delimiters wrap [] []
  | keep (a : α) {rest result : List α} : Substituted delimiters wrap rest result →
      Substituted delimiters wrap (a :: rest) (a :: result)
  | matched {delimiter group rest result : List α} : delimiter ∈ delimiters → group ≠ [] →
      Substituted delimiters wrap rest result →
      Substituted delimiters wrap (delimiter ++ group ++ delimiter ++ rest) (wrap group ++ result)

theorem dropPrefix_some {source delimiter after : List α} :
    source.dropPrefix? delimiter = some after ↔ source = delimiter ++ after := by
  rw [List.dropPrefix?_eq_some_iff]
  simp

theorem beforeFirst_eq {delimiter source group after : List α}
    (found : beforeFirst delimiter source = some (group, after)) :
    source = group ++ delimiter ++ after := by
  induction source generalizing group with
  | nil => cases found
  | cons a source ih =>
    rw [beforeFirst] at found
    split at found
    · rename_i here
      cases found
      exact dropPrefix_some.mp here
    · obtain ⟨⟨inner, rest⟩, later, same⟩ := Option.map_eq_some_iff.mp found
      cases same
      rw [ih later]
      rfl

theorem delimited_eq {source delimiter group after : List α}
    (found : delimited source delimiter = some (group, after)) :
    source = delimiter ++ group ++ delimiter ++ after ∧ group ≠ [] := by
  unfold delimited at found
  split at found
  · rename_i a rest opened
    obtain ⟨⟨inner, left⟩, closed, same⟩ := Option.map_eq_some_iff.mp found
    cases same
    refine ⟨?_, List.cons_ne_nil _ _⟩
    rw [dropPrefix_some.mp opened, beforeFirst_eq closed]
    simp
  · cases found

theorem firstMatch_eq {delimiters : List (List α)} {source group after : List α}
    (found : firstMatch delimiters source = some (group, after)) :
    ∃ delimiter ∈ delimiters, source = delimiter ++ group ++ delimiter ++ after ∧ group ≠ [] := by
  obtain ⟨delimiter, member, found⟩ := List.exists_of_findSome?_eq_some found
  exact ⟨delimiter, member, delimited_eq found⟩

theorem firstMatch_shorter {delimiters : List (List α)} {source group after : List α}
    (found : firstMatch delimiters source = some (group, after)) : after.length < source.length := by
  obtain ⟨delimiter, _, rfl, nonempty⟩ := firstMatch_eq found
  have inner := List.length_pos_iff.mpr nonempty
  simp only [List.length_append]
  omega

theorem substituteFrom_substituted (delimiters : List (List α)) (wrap : List α → List α) {fuel : Nat}
    {source : List α} (enough : source.length ≤ fuel) :
    Substituted delimiters wrap source (substituteFrom delimiters wrap fuel source) := by
  induction fuel generalizing source with
  | zero =>
    rw [List.length_eq_zero_iff.mp (Nat.le_zero.mp enough)]
    exact .done
  | succ fuel ih =>
    cases source with
    | nil => exact .done
    | cons a rest =>
      rw [List.length_cons] at enough
      rw [substituteFrom]
      split
      · rename_i group after found
        have shorter := firstMatch_shorter found
        obtain ⟨delimiter, member, same, nonempty⟩ := firstMatch_eq found
        rw [List.length_cons] at shorter
        rw [same]
        exact .matched member nonempty (ih (by omega))
      · exact .keep a (ih (by omega))

theorem substitute_substituted (delimiters : List (List α)) (wrap : List α → List α) (source : List α) :
    Substituted delimiters wrap source (substitute delimiters wrap source) :=
  substituteFrom_substituted delimiters wrap (Nat.le_refl _)

def firstEntry {β : Type} (table : List (List α × β)) (source : List α) : Option (β × List α) :=
  table.findSome? fun entry => (source.dropPrefix? entry.1).map (entry.2, ·)

def PrefixFree {β : Type} (table : List (List α × β)) : Prop :=
  table.Pairwise fun a b => a.1.dropPrefix? b.1 = none ∧ b.1.dropPrefix? a.1 = none

instance {β : Type} (table : List (List α × β)) : Decidable (PrefixFree table) :=
  inferInstanceAs (Decidable (List.Pairwise _ table))

theorem dropPrefix_apart {first second : List α} (here : first.dropPrefix? second = none)
    (there : second.dropPrefix? first = none) (rest : List α) :
    (first ++ rest).dropPrefix? second = none := by
  cases found : (first ++ rest).dropPrefix? second with
  | none => rfl
  | some after =>
    rcases List.append_eq_append_iff.mp (dropPrefix_some.mp found) with ⟨middle, longer,
      _⟩ | ⟨middle, shorter, _⟩
    · rw [dropPrefix_some.mpr longer] at there
      cases there
    · rw [dropPrefix_some.mpr shorter] at here
      cases here

theorem firstEntry_append {β : Type} {table : List (List α × β)} (apart : PrefixFree table)
    {entry : List α × β} (member : entry ∈ table) (rest : List α) :
    firstEntry table (entry.1 ++ rest) = some (entry.2, rest) := by
  induction table with
  | nil => cases member
  | cons first table ih =>
    obtain ⟨others, apart⟩ := List.pairwise_cons.mp apart
    rw [firstEntry, List.findSome?_cons]
    rcases List.mem_cons.mp member with rfl | member
    · rw [dropPrefix_some.mpr rfl]
      rfl
    · obtain ⟨here, there⟩ := others entry member
      rw [dropPrefix_apart there here]
      exact ih apart member

theorem firstEntry_some {β : Type} {table : List (List α × β)} {source rest : List α} {value : β}
    (found : firstEntry table source = some (value, rest)) :
    ∃ entry ∈ table, source = entry.1 ++ rest ∧ entry.2 = value := by
  obtain ⟨entry, member, here⟩ := List.exists_of_findSome?_eq_some found
  obtain ⟨after, starts, same⟩ := Option.map_eq_some_iff.mp here
  cases same
  exact ⟨entry, member, dropPrefix_some.mp starts, rfl⟩

end Patterns

section Spellings

variable {α β : Type}

structure Marks (spell : β → List α) (marks : List β) : Prop where
  single : ∀ mark ∈ marks, ∃ a, spell mark = [a] ∧ ∀ b, b ≠ mark → a ∉ spell b
  nonempty : ∀ b, spell b ≠ []

variable {spell : β → List α} {marks : List β}

theorem Marks.tail (distinct : Marks spell marks) {mark b : β} {a x : α} {xs : List α} (member : mark ∈ marks)
    (spelled : spell mark = [a]) (shape : spell b = x :: xs) : a ∉ xs := by
  obtain ⟨a', spelled', apart⟩ := distinct.single mark member
  cases spelled.symm.trans spelled'
  intro inside
  by_cases same : b = mark
  · rw [same, spelled] at shape
    cases shape
    cases inside
  · exact apart b same (shape ▸ List.mem_cons_of_mem _ inside)

variable [DecidableEq α] [DecidableEq β]

theorem dropPrefix_flatMap (distinct : Marks spell marks) {delimiter : List β}
    (made : ∀ mark ∈ delimiter, mark ∈ marks) (source : List β) :
    (source.flatMap spell).dropPrefix? (delimiter.flatMap spell) = (source.dropPrefix? delimiter).map
    (·.flatMap spell) := by
  induction delimiter generalizing source with
  | nil => simp
  | cons mark delimiter ih =>
    obtain ⟨a, spelled, apart⟩ := distinct.single mark (made mark List.mem_cons_self)
    cases source with
    | nil => simp [spelled, List.dropPrefix?]
    | cons b source =>
      by_cases same : b = mark
      · subst same
        simpa [spelled, List.dropPrefix?] using ih (fun m member => made m (List.mem_cons_of_mem _ member))
          source
      · have other := apart b same
        cases shape : spell b with
        | nil => exact absurd shape (distinct.nonempty b)
        | cons x xs =>
          have differs : x ≠ a := fun equal => other (by simp [shape, equal])
          simp [spelled, shape, List.dropPrefix?, differs, same]

theorem dropPrefix_skip {a x : α} {delimiter source : List α} (differs : x ≠ a) :
    (x :: source).dropPrefix? (a :: delimiter) = none := by
  simp [List.dropPrefix?, differs]

theorem beforeFirst_skip {a : α} {delimiter skipped : List α} (absent : a ∉ skipped) (source : List α) :
    beforeFirst (a :: delimiter) (skipped ++ source) =
      (beforeFirst (a :: delimiter) source).map fun found => (skipped ++ found.1, found.2) := by
  induction skipped with
  | nil => simp
  | cons x skipped ih =>
    obtain ⟨differs, absent⟩ := not_or.mp (mt List.mem_cons.mpr absent)
    rw [List.cons_append, beforeFirst, dropPrefix_skip (Ne.symm differs)]
    simp only [ih absent, Option.map_map]
    rfl

theorem beforeFirst_flatMap (distinct : Marks spell marks) {delimiter : List β}
    (made : ∀ mark ∈ delimiter, mark ∈ marks) (nonempty : delimiter ≠ []) (source : List β) :
    beforeFirst (delimiter.flatMap spell) (source.flatMap spell) =
      (beforeFirst delimiter source).map fun found => (found.1.flatMap spell, found.2.flatMap spell) := by
  obtain ⟨mark, rest, rfl⟩ := List.exists_cons_of_ne_nil nonempty
  obtain ⟨a, spelled, _⟩ := distinct.single mark (made mark List.mem_cons_self)
  have opening : (mark :: rest).flatMap spell = a :: rest.flatMap spell := by
    rw [List.flatMap_cons, spelled, List.singleton_append]
  induction source with
  | nil => rfl
  | cons b source ih =>
    obtain ⟨x, xs, shape⟩ := List.exists_cons_of_ne_nil (distinct.nonempty b)
    have first : (b :: source).flatMap spell = x :: (xs ++ source.flatMap spell) := by
      rw [List.flatMap_cons, shape, List.cons_append]
    have whole := dropPrefix_flatMap distinct made (b :: source)
    rw [first] at whole ⊢
    rw [beforeFirst, beforeFirst, whole]
    cases (b :: source).dropPrefix? (mark :: rest) with
    | some after => rfl
    | none =>
      have inner := distinct.tail (made mark List.mem_cons_self) spelled shape
      rw [opening] at ih ⊢
      simp only [Option.map_none]
      rw [beforeFirst_skip inner, ih]
      simp [Function.comp_def, shape]

theorem delimited_flatMap (distinct : Marks spell marks) {delimiter : List β}
    (made : ∀ mark ∈ delimiter, mark ∈ marks) (nonempty : delimiter ≠ []) (source : List β) :
    delimited (source.flatMap spell) (delimiter.flatMap spell) =
      (delimited source delimiter).map fun found => (found.1.flatMap spell, found.2.flatMap spell) := by
  rw [delimited, delimited, dropPrefix_flatMap distinct made]
  cases source.dropPrefix? delimiter with
  | none => rfl
  | some after =>
    cases after with
    | nil => rfl
    | cons b after =>
      obtain ⟨mark, rest, rfl⟩ := List.exists_cons_of_ne_nil nonempty
      obtain ⟨a, spelled, _⟩ := distinct.single mark (made mark List.mem_cons_self)
      obtain ⟨x, xs, shape⟩ := List.exists_cons_of_ne_nil (distinct.nonempty b)
      have inner := distinct.tail (made mark List.mem_cons_self) spelled shape
      have closing := beforeFirst_flatMap distinct made nonempty after
      rw [List.flatMap_cons, spelled, List.singleton_append] at closing ⊢
      simp only [Option.map_some, List.flatMap_cons, shape, List.cons_append]
      rw [beforeFirst_skip inner, closing]
      simp [Function.comp_def, shape]

theorem firstMatch_flatMap (distinct : Marks spell marks) {delimiters : List (List β)}
    (made : ∀ delimiter ∈ delimiters, delimiter ≠ [] ∧ ∀ mark ∈ delimiter, mark ∈ marks) (source : List β) :
    firstMatch (delimiters.map (·.flatMap spell)) (source.flatMap spell) =
      (firstMatch delimiters source).map fun found => (found.1.flatMap spell, found.2.flatMap spell) := by
  induction delimiters with
  | nil => rfl
  | cons delimiter delimiters ih =>
    obtain ⟨nonempty, marked⟩ := made delimiter List.mem_cons_self
    have rest := ih fun other member => made other (List.mem_cons_of_mem _ member)
    rw [firstMatch] at rest ⊢
    rw [List.map_cons, List.findSome?_cons, delimited_flatMap distinct marked nonempty, firstMatch,
      List.findSome?_cons]
    cases delimited source delimiter with
    | some found => rfl
    | none => exact rest

theorem substituteFrom_skip {delimiters : List (List α)} {skipped : List α}
    (absent : ∀ delimiter ∈ delimiters, ∃ a rest, delimiter = a :: rest ∧ a ∉ skipped)
    (wrap : List α → List α) (fuel : Nat) (source : List α) :
    substituteFrom delimiters wrap (skipped.length + fuel) (skipped ++ source) =
      skipped ++ substituteFrom delimiters wrap fuel source := by
  induction skipped with
  | nil => simp
  | cons x skipped ih =>
    have unmatched : firstMatch delimiters (x :: (skipped ++ source)) = none := by
      refine List.findSome?_eq_none_iff.mpr fun delimiter member => ?_
      obtain ⟨a, rest, rfl, apart⟩ := absent delimiter member
      rw [delimited, dropPrefix_skip (Ne.symm (List.ne_of_not_mem_cons apart))]
    have later := ih fun delimiter member => by
      obtain ⟨a, rest, same, apart⟩ := absent delimiter member
      exact ⟨a, rest, same, fun inside => apart (List.mem_cons_of_mem _ inside)⟩
    rw [List.length_cons, Nat.add_right_comm, List.cons_append, substituteFrom, unmatched]
    simp only [later, List.cons_append]

theorem substituteFrom_flatMap (distinct : Marks spell marks) {delimiters : List (List β)}
    (made : ∀ delimiter ∈ delimiters, delimiter ≠ [] ∧ ∀ mark ∈ delimiter, mark ∈ marks)
    (wrap : List β → List β) (wrapped : List α → List α)
    (wraps : ∀ group, wrapped (group.flatMap spell) = (wrap group).flatMap spell) {fuel more : Nat}
    {source : List β} (enough : source.length ≤ fuel) (plenty : (source.flatMap spell).length ≤ more) :
    substituteFrom (delimiters.map (·.flatMap spell)) wrapped more (source.flatMap spell) =
      (substituteFrom delimiters wrap fuel source).flatMap spell := by
  induction fuel generalizing source more with
  | zero =>
    rw [List.length_eq_zero_iff.mp (Nat.le_zero.mp enough)]
    cases more <;> rfl
  | succ fuel ih =>
    cases source with
    | nil => cases more <;> rfl
    | cons b rest =>
      obtain ⟨x, xs, shape⟩ := List.exists_cons_of_ne_nil (distinct.nonempty b)
      have first : (b :: rest).flatMap spell = x :: (xs ++ rest.flatMap spell) := by
        rw [List.flatMap_cons, shape, List.cons_append]
      have whole := firstMatch_flatMap distinct made (b :: rest)
      rw [first] at whole plenty ⊢
      rw [List.length_cons] at enough plenty
      obtain ⟨more, rfl⟩ : ∃ n, more = n + 1 := ⟨more - 1, by omega⟩
      rw [substituteFrom, substituteFrom, whole]
      cases found : firstMatch delimiters (b :: rest) with
      | some split =>
        obtain ⟨group, after⟩ := split
        have fewer := firstMatch_shorter found
        have shorter : (after.flatMap spell).length < (x :: (xs ++ rest.flatMap spell)).length :=
          firstMatch_shorter (whole.trans (congrArg _ found))
        rw [List.length_cons] at fewer shorter
        simp only [Option.map_some, wraps, List.flatMap_append]
        rw [ih (by omega) (by omega)]
      | none =>
        have absent : ∀ delimiter ∈ delimiters.map (·.flatMap spell), ∃ a rest, delimiter = a :: rest ∧
            a ∉ xs := by
          intro spelt member
          obtain ⟨delimiter, inside, rfl⟩ := List.mem_map.mp member
          obtain ⟨nonempty, marked⟩ := made delimiter inside
          obtain ⟨mark, others, rfl⟩ := List.exists_cons_of_ne_nil nonempty
          obtain ⟨a, spelled, _⟩ := distinct.single mark (marked mark List.mem_cons_self)
          refine ⟨a, others.flatMap spell, ?_, distinct.tail (marked mark List.mem_cons_self) spelled shape⟩
          rw [List.flatMap_cons, spelled, List.singleton_append]
        rw [List.length_append] at plenty
        obtain ⟨left, rfl⟩ : ∃ n, more = xs.length + n := ⟨more - xs.length, by omega⟩
        simp only [Option.map_none]
        rw [substituteFrom_skip absent, ih (by omega) (by omega), List.flatMap_cons, shape, List.cons_append]

/-- Substituting in a spelled text is spelling out the text with the matches substituted. -/
theorem substitute_flatMap (distinct : Marks spell marks) {delimiters : List (List β)}
    (made : ∀ delimiter ∈ delimiters, delimiter ≠ [] ∧ ∀ mark ∈ delimiter, mark ∈ marks)
    (wrap : List β → List β) (wrapped : List α → List α)
    (wraps : ∀ group, wrapped (group.flatMap spell) = (wrap group).flatMap spell) (source : List β) :
    substitute (delimiters.map (·.flatMap spell)) wrapped (source.flatMap spell) =
      (substitute delimiters wrap source).flatMap spell :=
  substituteFrom_flatMap distinct made wrap wrapped wraps (Nat.le_refl _) (Nat.le_refl _)

end Spellings

end ManifestCV.Foundation
