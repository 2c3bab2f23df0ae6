import Mathlib.Data.List.TakeWhile
import ManifestCV.Foundation.Text

namespace ManifestCV.Foundation

section Runs

variable {α : Type} (p : α → Bool)

def breakAt : List α → List α × List (List α)
  | [] => ([], [])
  | a :: rest =>
    if p a then ([], (breakAt rest).1 :: (breakAt rest).2)
    else (a :: (breakAt rest).1, (breakAt rest).2)

def runs (items : List α) : List (List α) := (breakAt p items).1 :: (breakAt p items).2

theorem runs_nil : runs p [] = [[]] := rfl

theorem runs_separator {a : α} (separates : p a = true) (items : List α) :
    runs p (a :: items) = [] :: runs p items := by
  simp [runs, breakAt, separates]

theorem runs_cons {a : α} (inside : p a = false) (items : List α) :
    runs p (a :: items) = (a :: (breakAt p items).1) :: (breakAt p items).2 := by
  simp [runs, breakAt, inside]

theorem runs_inside (items : List α) : ∀ run ∈ runs p items, ∀ a ∈ run, p a = false := by
  induction items with
  | nil =>
    intro run member a inside
    rw [List.mem_singleton.mp member] at inside
    cases inside
  | cons first items ih =>
    intro run member a inside
    cases here : p first with
    | true =>
      rw [runs_separator p here] at member
      rcases List.mem_cons.mp member with rfl | member
      · cases inside
      · exact ih run member a inside
    | false =>
      rw [runs_cons p here] at member
      rcases List.mem_cons.mp member with rfl | member
      · rcases List.mem_cons.mp inside with rfl | inside
        · exact here
        · exact ih _ List.mem_cons_self a inside
      · exact ih run (List.mem_cons_of_mem _ member) a inside

theorem runs_of_inside {items : List α} (inside : ∀ a ∈ items, p a = false) : runs p items = [items] := by
  induction items with
  | nil => rfl
  | cons a items ih =>
    have rest := ih fun b member => inside b (List.mem_cons_of_mem _ member)
    have both := List.cons.inj rest
    rw [runs_cons p (inside a List.mem_cons_self), both.1, both.2]

theorem runs_append_separator {first rest : List α} {a : α} (separates : p a = true)
    (inside : ∀ b ∈ first, p b = false) :
    runs p (first ++ a :: rest) = first :: runs p rest := by
  induction first with
  | nil => exact runs_separator p separates rest
  | cons b first ih =>
    have split := List.cons.inj (ih fun c member => inside c (List.mem_cons_of_mem _ member))
    rw [List.cons_append, runs_cons p (inside b List.mem_cons_self), split.1, split.2]

theorem mem_runs {items : List α} {a : α} (member : a ∈ items) :
    p a = true ∨ ∃ run ∈ runs p items, a ∈ run := by
  induction items with
  | nil => cases member
  | cons first items ih =>
    cases here : p first with
    | true =>
      rw [runs_separator p here]
      rcases List.mem_cons.mp member with rfl | member
      · exact .inl here
      · rcases ih member with separates | ⟨run, inside, found⟩
        · exact .inl separates
        · exact .inr ⟨run, List.mem_cons_of_mem _ inside, found⟩
    | false =>
      rw [runs_cons p here]
      rcases List.mem_cons.mp member with rfl | member
      · exact .inr ⟨_, List.mem_cons_self, List.mem_cons_self⟩
      · rcases ih member with separates | ⟨run, inside, found⟩
        · exact .inl separates
        · rcases List.mem_cons.mp inside with rfl | inside
          · exact .inr ⟨_, List.mem_cons_self, List.mem_cons_of_mem _ found⟩
          · exact .inr ⟨run, List.mem_cons_of_mem _ inside, found⟩

theorem runs_refine {q : α → Bool} (more : ∀ a, p a = true → q a = true) (items : List α) :
    runs q items = (runs p items).flatMap (runs q) := by
  induction items with
  | nil => rfl
  | cons a items ih =>
    cases outer : p a with
    | true =>
        rw [runs_separator q (more a outer), runs_separator p outer, ih, List.flatMap_cons, runs_nil,
          List.singleton_append]
    | false =>
      rw [runs_cons p outer, List.flatMap_cons]
      have whole : runs p items = (breakAt p items).1 :: (breakAt p items).2 := rfl
      rw [whole, List.flatMap_cons] at ih
      cases inner : q a with
      | true =>
        rw [runs_separator q inner, runs_separator q inner, List.cons_append, runs, ← ih]
        rfl
      | false =>
        rw [runs_cons q inner, runs_cons q inner]
        have split := List.cons.inj ih
        rw [split.1, split.2]
        rfl

end Runs

theorem runs_joinWith {p : Char → Bool} (separates : p '\n' = true) {lines : List Str} (nonempty : lines ≠ [])
    (inside : ∀ line ∈ lines, ∀ c ∈ line, p c = false) : runs p (joinWith ['\n'] lines) = lines := by
  induction lines with
  | nil => exact absurd rfl nonempty
  | cons first lines ih =>
    have here := runs_of_inside p (inside first List.mem_cons_self)
    cases lines with
    | nil => exact here
    | cons second rest =>
      have tail := ih (List.cons_ne_nil _ _) fun line member => inside line (List.mem_cons_of_mem _ member)
      have joined : joinWith ['\n'] (first :: second :: rest) = first ++ ['\n'] ++ joinWith ['\n']
        (second :: rest) := rfl
      rw [joined, List.append_assoc, List.singleton_append, runs_append_separator p separates
        (inside first List.mem_cons_self), tail]

def isBlank (s : Str) : Bool := s.all isSpace

theorem strip_isEmpty (s : Str) : (strip s).isEmpty = isBlank s := by
  rw [Bool.eq_iff_iff, List.isEmpty_iff, isBlank, List.all_eq_true, strip, rstrip, lstrip,
    List.reverse_eq_nil_iff, List.dropWhile_eq_nil_iff]
  constructor
  · intro spaces
    have none : s.dropWhile isSpace = [] := by
      cases rest : s.dropWhile isSpace with
      | nil => rfl
      | cons c more =>
        have visible : isSpace c = false := by
          have head := List.head_dropWhile_not isSpace (by rw [rest]; exact List.cons_ne_nil _ _)
          simpa [rest] using head
        have space := spaces c (by rw [rest]; simp)
        rw [visible] at space
        cases space
    exact List.dropWhile_eq_nil_iff.mp none
  · intro spaces c member
    rw [List.dropWhile_eq_nil_iff.mpr spaces] at member
    cases member

theorem isLineBreak_space {c : Char} (separates : isLineBreak c = true) : isSpace c = true := by
  simp only [isLineBreak, isSpace, Bool.decide_or, Bool.or_eq_true, decide_eq_true_eq] at separates ⊢
  omega

theorem isBlank_runs {p : Char → Bool} (spaces : ∀ c, p c = true → isSpace c = true) (s : Str) :
    isBlank s = true ↔ ∀ run ∈ runs p s, isBlank run = true := by
  simp only [isBlank, List.all_eq_true]
  constructor
  · induction s with
    | nil =>
      intro _ run member c inside
      rw [List.mem_singleton.mp member] at inside
      cases inside
    | cons first s ih =>
      intro all run member c inside
      have rest := ih fun c member => all c (List.mem_cons_of_mem _ member)
      cases here : p first with
      | true =>
        rw [runs_separator p here] at member
        rcases List.mem_cons.mp member with rfl | member
        · cases inside
        · exact rest run member c inside
      | false =>
        rw [runs_cons p here] at member
        rcases List.mem_cons.mp member with rfl | member
        · rcases List.mem_cons.mp inside with rfl | inside
          · exact all c List.mem_cons_self
          · exact rest _ List.mem_cons_self c inside
        · exact rest run (List.mem_cons_of_mem _ member) c inside
  · intro all c member
    rcases mem_runs p member with separates | ⟨run, inside, found⟩
    · exact spaces c separates
    · exact all run inside c found

def shownRuns (p : Char → Bool) (s : Str) : List Str := (runs p s).filter fun run => !isBlank run

theorem shownRuns_joinWith {p : Char → Bool} (separates : p '\n' = true) {lines : List Str}
    (inside : ∀ line ∈ lines, ∀ c ∈ line, p c = false) :
    shownRuns p (joinWith ['\n'] lines) = lines.filter fun line => !isBlank line := by
  cases lines with
  | nil => rfl
  | cons first rest => rw [shownRuns, runs_joinWith separates (List.cons_ne_nil _ _) inside]

theorem splitlinesFrom_runs (current s : Str) :
    (splitlinesFrom current s).filter (fun line => !isBlank line) =
      ((current.reverse ++ (breakAt isLineBreak s).1) :: (breakAt isLineBreak s).2).filter fun line =>
          !isBlank line := by
  fun_induction splitlinesFrom current s with
  | case1 current empty =>
    rw [List.isEmpty_iff.mp empty]
    rfl
  | case2 current nonempty => simp [breakAt]
  | case3 current rest ih =>
    have carriage : isLineBreak '\r' = true := rfl
    have newline : isLineBreak '\n' = true := rfl
    simp only [breakAt, carriage, newline, if_true, List.append_nil]
    rw [List.filter_cons, List.filter_cons, ih]
    simp [List.filter_cons, isBlank]
  | case4 current c rest _ separates ih =>
    simp only [breakAt, separates, if_true, List.append_nil]
    rw [List.filter_cons, List.filter_cons, ih]
    simp
  | case5 current c rest _ inside ih =>
    simp only [breakAt, inside, Bool.false_eq_true, if_false]
    rw [ih]
    simp

theorem splitlinesFrom_inside {current s : Str} (before : ∀ c ∈ current, isLineBreak c = false) :
    ∀ line ∈ splitlinesFrom current s, ∀ c ∈ line, isLineBreak c = false := by
  have done : ∀ c ∈ current.reverse, isLineBreak c = false := fun c member =>
    before c (List.mem_reverse.mp member)
  have fresh : ∀ c ∈ ([] : Str), isLineBreak c = false := fun _ member => nomatch member
  fun_induction splitlinesFrom current s with
  | case1 current empty => exact fun _ member => nomatch member
  | case2 current nonempty => exact List.forall_mem_singleton.mpr done
  | case3 current rest ih => exact List.forall_mem_cons.mpr ⟨done, ih fresh fresh⟩
  | case4 current c rest _ separates ih => exact List.forall_mem_cons.mpr ⟨done, ih fresh fresh⟩
  | case5 current c rest _ inside ih =>
    have now : ∀ d ∈ c :: current, isLineBreak d = false :=
      List.forall_mem_cons.mpr ⟨by simpa using inside, before⟩
    exact ih now fun d member => now d (List.mem_reverse.mp member)

theorem splitlines_inside (s : Str) : ∀ line ∈ splitlines s, ∀ c ∈ line, isLineBreak c = false :=
  splitlinesFrom_inside fun _ member => nomatch member

theorem isBlank_append {s t : Str} : isBlank (s ++ t) = true ↔ isBlank s = true ∧ isBlank t = true := by
  rw [isBlank, List.all_append, Bool.and_eq_true]
  rfl

theorem lstrip_split (s : Str) : ∃ left, s = left ++ lstrip s ∧ isBlank left = true := by
  refine ⟨s.takeWhile isSpace, List.takeWhile_append_dropWhile.symm, List.all_eq_true.mpr fun c member => ?_⟩
  exact List.mem_takeWhile_imp member

theorem strip_split (s : Str) : ∃ left right, s = left ++ strip s ++ right ∧ isBlank left = true ∧
    isBlank right = true := by
  obtain ⟨left, outer, leftBlank⟩ := lstrip_split s
  obtain ⟨right, inner, rightBlank⟩ := lstrip_split (lstrip s).reverse
  refine ⟨left, right.reverse, ?_, leftBlank, ?_⟩
  · have back : lstrip s = strip s ++ right.reverse := by
      rw [strip, rstrip, ← List.reverse_append, ← lstrip, ← inner, List.reverse_reverse]
    rw [List.append_assoc, ← back]
    exact outer
  · rw [isBlank, List.all_reverse]
    exact rightBlank

theorem strip_inside (s : Str) : strip s <:+: s := by
  obtain ⟨left, right, whole, _, _⟩ := strip_split s
  exact ⟨left, right, whole.symm⟩

theorem mem_of_strip {s : Str} {c : Char} (member : c ∈ strip s) : c ∈ s := (strip_inside s).subset member

theorem mem_strip {s : Str} {c : Char} (member : c ∈ s) (ink : isSpace c = false) : c ∈ strip s := by
  obtain ⟨left, right, whole, leftBlank, rightBlank⟩ := strip_split s
  rw [whole, List.mem_append, List.mem_append] at member
  rcases member with (member | member) | member
  · rw [List.all_eq_true.mp leftBlank c member] at ink
    cases ink
  · exact member
  · rw [List.all_eq_true.mp rightBlank c member] at ink
    cases ink

theorem splitlines_shown (s : Str) :
    ((splitlines s).filter fun line => !isBlank line) = shownRuns isLineBreak s :=
  splitlinesFrom_runs [] s

end ManifestCV.Foundation
