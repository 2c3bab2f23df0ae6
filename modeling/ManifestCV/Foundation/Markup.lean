import ManifestCV.Foundation.Splitting

namespace ManifestCV.Foundation

structure Segment where
  tag : Str
  text : Str
  deriving DecidableEq

def isBracket (c : Char) : Bool := c = '<' || c = '>'

def cutFrom (tag : Str) (text : Option Str) : Str → Option (List Segment)
  | [] => text.map fun text => [⟨tag, text⟩]
  | c :: rest =>
    match text with
    | none =>
      if c = '<' then none
      else if c = '>' then cutFrom tag (some []) rest
      else cutFrom (tag ++ [c]) none rest
    | some text =>
      if c = '<' then (cutFrom [] none rest).map (⟨tag, text⟩ :: ·)
      else if c = '>' then none
      else cutFrom tag (some (text ++ [c])) rest

def cut : Str → Option (List Segment)
  | '<' :: rest => cutFrom [] none rest
  | _ => none

def Segment.print (segment : Segment) : Str := '<' :: segment.tag ++ '>' :: segment.text

def printPage (segments : List Segment) : Str := segments.flatMap Segment.print

def Unmarked (s : Str) : Prop := ∀ c ∈ s, isBracket c = false

instance (s : Str) : Decidable (Unmarked s) := List.decidableBAll (fun c : Char => isBracket c = false) s

def Segment.Unmarked (segment : Segment) : Prop :=
  Foundation.Unmarked segment.tag ∧ Foundation.Unmarked segment.text

theorem isBracket_false {c : Char} : isBracket c = false ↔ c ≠ '<' ∧ c ≠ '>' := by
  simp [isBracket]

theorem unmarked_append {s t : Str} : Unmarked (s ++ t) ↔ Unmarked s ∧ Unmarked t := List.forall_mem_append

theorem Unmarked.append {s t : Str} (first : Unmarked s) (second : Unmarked t) : Unmarked (s ++ t) :=
  unmarked_append.mpr ⟨first, second⟩

theorem Unmarked.cons {c : Char} {s : Str} (head : isBracket c = false) (tail : Unmarked s) :
    Unmarked (c :: s) := by
  intro d member
  rcases List.mem_cons.mp member with rfl | member
  · exact head
  · exact tail d member

theorem unmarked_nil : Unmarked [] := fun _ member => nomatch member

theorem unmarked_flatMap {α : Type} {f : α → Str} {items : List α}
    (each : ∀ item ∈ items, Unmarked (f item)) :
    Unmarked (items.flatMap f) := by
  intro c member
  obtain ⟨item, inside, member⟩ := List.mem_flatMap.mp member
  exact each item inside c member

theorem cutFrom_tag {s : Str} (unmarked : Unmarked s) (tag rest : Str) :
    cutFrom tag none (s ++ '>' :: rest) = cutFrom (tag ++ s) (some []) rest := by
  induction s generalizing tag with
  | nil => simp [cutFrom]
  | cons c s ih =>
    obtain ⟨notOpen, notClose⟩ := isBracket_false.mp (unmarked c List.mem_cons_self)
    rw [List.cons_append, cutFrom]
    simp only [notOpen, notClose, if_false]
    rw [ih (fun d member => unmarked d (List.mem_cons_of_mem _ member)), List.append_assoc]
    rfl

theorem cutFrom_text {s : Str} (unmarked : Unmarked s) (tag text rest : Str) :
    cutFrom tag (some text) (s ++ rest) = cutFrom tag (some (text ++ s)) rest := by
  induction s generalizing text with
  | nil => simp
  | cons c s ih =>
    obtain ⟨notOpen, notClose⟩ := isBracket_false.mp (unmarked c List.mem_cons_self)
    rw [List.cons_append, cutFrom]
    simp only [notOpen, notClose, if_false]
    rw [ih (fun d member => unmarked d (List.mem_cons_of_mem _ member)), List.append_assoc]
    rfl

theorem cutFrom_printPage (tag text : Str) (segments : List Segment)
    (unmarked : ∀ segment ∈ segments, segment.Unmarked) :
    cutFrom tag (some text) (printPage segments) = some (⟨tag, text⟩ :: segments) := by
  induction segments generalizing tag text with
  | nil => rfl
  | cons segment segments ih =>
    obtain ⟨inTag, inText⟩ := unmarked segment List.mem_cons_self
    have rest := ih segment.tag segment.text fun other member =>
      unmarked other (List.mem_cons_of_mem _ member)
    have page : printPage (segment :: segments) =
        '<' :: (segment.tag ++ '>' :: (segment.text ++ printPage segments)) := by
      simp [printPage, Segment.print]
    rw [page, cutFrom]
    simp only [if_true]
    rw [cutFrom_tag inTag, cutFrom_text inText, List.nil_append, List.nil_append, rest]
    rfl

theorem cut_printPage {segments : List Segment} (nonempty : segments ≠ [])
    (unmarked : ∀ segment ∈ segments, segment.Unmarked) :
    cut (printPage segments) = some segments := by
  cases segments with
  | nil => exact absurd rfl nonempty
  | cons segment segments =>
    obtain ⟨inTag, inText⟩ := unmarked segment List.mem_cons_self
    have rest := cutFrom_printPage segment.tag segment.text segments fun other member =>
      unmarked other (List.mem_cons_of_mem _ member)
    have page : printPage (segment :: segments) =
        '<' :: (segment.tag ++ '>' :: (segment.text ++ printPage segments)) := by
      simp [printPage, Segment.print]
    rw [page, cut, cutFrom_tag inTag, cutFrom_text inText, List.nil_append, List.nil_append, rest]

@[simp] theorem printPage_append (first second : List Segment) :
    printPage (first ++ second) = printPage first ++ printPage second := by
  simp [printPage]

@[simp] theorem printPage_cons (segment : Segment) (segments : List Segment) :
    printPage (segment :: segments) = segment.print ++ printPage segments := rfl

@[simp] theorem printPage_nil : printPage [] = [] := rfl

def element (tag name inner : Str) : Str := '<' :: tag ++ '>' :: inner ++ '<' :: '/' :: name ++ ['>']

def elementSegments (tag name text : Str) (inner : List Segment) : List Segment :=
  ⟨tag, text⟩ :: inner ++ [⟨'/' :: name, []⟩]

theorem printPage_element (tag name text : Str) (inner : List Segment) :
    printPage (elementSegments tag name text inner) = element tag name (text ++ printPage inner) := by
  simp [elementSegments, element, Segment.print]

theorem printPage_flatMap {α : Type} (f : α → List Segment) (items : List α) :
    printPage (items.flatMap f) = items.flatMap fun item => printPage (f item) := by
  simp [printPage, List.flatMap_assoc]

def isNewline (c : Char) : Bool := c = '\n'

theorem newline_lineBreak {c : Char} (newline : isNewline c = true) : isLineBreak c = true := by
  rw [of_decide_eq_true newline]
  rfl

theorem not_newline {c : Char} (inside : isLineBreak c = false) : isNewline c = false := by
  cases newline : isNewline c with
  | false => rfl
  | true =>
    rw [newline_lineBreak newline] at inside
    cases inside

def breakLines (s : Str) : Str × List Str := breakAt isNewline s

theorem replaceChar_breakLines (new s : Str) :
    replaceChar '\n' new s = (breakLines s).1 ++ (breakLines s).2.flatMap (new ++ ·) := by
  induction s with
  | nil => rfl
  | cons c s ih =>
    have step : replaceChar '\n' new (c :: s) = (if c = '\n' then new else [c]) ++ replaceChar '\n' new s :=
      rfl
    rw [step, ih, breakLines, breakLines, breakAt]
    by_cases newline : c = '\n'
    · simp [isNewline, newline]
    · simp [isNewline, newline]

theorem breakLines_joined (s : Str) : (breakLines s).1 ++ (breakLines s).2.flatMap ('\n' :: ·) = s := by
  have same := replaceChar_breakLines ['\n'] s
  have unchanged : replaceChar '\n' ['\n'] s = s := by
    induction s with
    | nil => rfl
    | cons c s ih =>
      have step : replaceChar '\n' ['\n'] (c :: s) = (if c = '\n' then ['\n'] else [c]) ++ replaceChar
        '\n' ['\n'] s := rfl
      rw [step, ih (replaceChar_breakLines ['\n'] s)]
      split
      · rename_i newline
        rw [newline]
        rfl
      · rfl
  rw [unchanged] at same
  exact same.symm

def lineBreak : Str := "br".toList

/-- The segments with every line break read as `\n`: first the text that breaks continue, then the segments of
    the other tags, each with the whole text up to the next of them. -/
def joinBreaks : List Segment → Str × List Segment
  | [] => ([], [])
  | segment :: segments =>
    let (more, others) := joinBreaks segments
    if segment.tag = lineBreak then ('\n' :: segment.text ++ more, others)
    else ([], ⟨segment.tag, segment.text ++ more⟩ :: others)

def Starts (segments : List Segment) : Prop := (joinBreaks segments).1 = []

theorem starts_nil : Starts [] := rfl

theorem starts_cons {segment : Segment} (other : segment.tag ≠ lineBreak) (segments : List Segment) :
    Starts (segment :: segments) := by
  simp [Starts, joinBreaks, other]

theorem joinBreaks_cons {segment : Segment} (other : segment.tag ≠ lineBreak) {segments : List Segment}
    (starts : Starts segments) :
    (joinBreaks (segment :: segments)).2 = segment :: (joinBreaks segments).2 := by
  unfold Starts at starts
  simp [joinBreaks, other, starts]

theorem joinBreaks_plain {segments : List Segment} (other : ∀ segment ∈ segments, segment.tag ≠ lineBreak) :
    joinBreaks segments = ([], segments) := by
  induction segments with
  | nil => rfl
  | cons segment segments ih =>
    rw [joinBreaks, ih fun next member => other next (List.mem_cons_of_mem _ member)]
    simp [other segment List.mem_cons_self]

theorem joinBreaks_append (first : List Segment) {second : List Segment} (starts : Starts second) :
    joinBreaks (first ++ second) = ((joinBreaks first).1, (joinBreaks first).2 ++ (joinBreaks second).2) := by
  induction first with
  | nil =>
    unfold Starts at starts
    simp [joinBreaks, ← starts]
  | cons segment first ih =>
    rw [List.cons_append, joinBreaks, ih, joinBreaks]
    dsimp only
    split <;> rfl

theorem Starts.append {first second : List Segment} (left : Starts first) (right : Starts second) :
    Starts (first ++ second) := by
  unfold Starts at left ⊢
  rw [joinBreaks_append first right, left]

theorem starts_flatMap {α : Type} {f : α → List Segment} {items : List α}
    (each : ∀ item ∈ items, Starts (f item)) :
    Starts (items.flatMap f) := by
  induction items with
  | nil => exact starts_nil
  | cons item items ih =>
    rw [List.flatMap_cons]
    exact (each item List.mem_cons_self).append (ih fun other member =>
      each other (List.mem_cons_of_mem _ member))

theorem joinBreaks_flatMap {α : Type} {f : α → List Segment} {items : List α}
    (each : ∀ item ∈ items, Starts (f item)) :
    (joinBreaks (items.flatMap f)).2 = items.flatMap fun item => (joinBreaks (f item)).2 := by
  induction items with
  | nil => rfl
  | cons item items ih =>
    have others : ∀ other ∈ items, Starts (f other) := fun other member =>
      each other (List.mem_cons_of_mem _ member)
    rw [List.flatMap_cons, joinBreaks_append _ (starts_flatMap others), ih others, List.flatMap_cons]

theorem joinBreaks_lines (lines : List Str) {segments : List Segment} (starts : Starts segments) :
    joinBreaks (lines.map (⟨lineBreak, ·⟩) ++ segments) =
      (lines.flatMap ('\n' :: ·), (joinBreaks segments).2) := by
  induction lines with
  | nil =>
    unfold Starts at starts
    simp [← starts]
  | cons line lines ih =>
    rw [List.map_cons, List.cons_append, joinBreaks, ih]
    simp

def textSegments (tag text : Str) : List Segment :=
  elementSegments tag tag (breakLines text).1 ((breakLines text).2.map (⟨lineBreak, ·⟩))

theorem printPage_text (tag text : Str) :
    printPage (textSegments tag text) = element tag tag (replaceChar '\n' "<br>".toList text) := by
  have breaks : ∀ lines : List Str, printPage (lines.map (⟨lineBreak, ·⟩)) = lines.flatMap
      ("<br>".toList ++ ·) := by
    intro lines
    induction lines with
    | nil => rfl
    | cons line lines ih =>
      rw [List.map_cons, printPage_cons, ih]
      rfl
  rw [textSegments, printPage_element, breaks, replaceChar_breakLines]

theorem closing_lineBreak (name : Str) : '/' :: name ≠ lineBreak :=
  fun same => nomatch List.head_eq_of_cons_eq same

theorem joinBreaks_text {tag : Str} (other : tag ≠ lineBreak) (text : Str) :
    (joinBreaks (textSegments tag text)).2 = [⟨tag, text⟩, ⟨'/' :: tag, []⟩] := by
  have close : Starts [⟨'/' :: tag, []⟩] := starts_cons (closing_lineBreak tag) []
  rw [textSegments, elementSegments, List.cons_append, joinBreaks, joinBreaks_lines _ close]
  simp only [other, if_false]
  rw [breakLines_joined, joinBreaks_cons (closing_lineBreak tag) starts_nil]
  rfl

theorem starts_element {tag : Str} (other : tag ≠ lineBreak) (name text : Str) (inner : List Segment) :
    Starts (elementSegments tag name text inner) := starts_cons other _

theorem joinBreaks_element {tag : Str} (other : tag ≠ lineBreak) (name text : Str) {inner : List Segment}
    (starts : Starts inner) :
    (joinBreaks (elementSegments tag name text inner)).2 = ⟨tag, text⟩ :: (joinBreaks inner).2 ++
    [⟨'/' :: name, []⟩] := by
  have close : Starts [⟨'/' :: name, []⟩] := starts_cons (closing_lineBreak name) []
  rw [elementSegments, List.cons_append, joinBreaks_cons other (starts.append close),
    joinBreaks_append inner close, joinBreaks_cons (closing_lineBreak name) starts_nil]
  rfl

def openTag (void : List Str) (stack : List Str) (tag : Str) : Option (List Str) :=
  match tag with
  | '/' :: name => if stack.head? = some name then some stack.tail else none
  | _ =>
    let name := tag.takeWhile (· ≠ ' ')
    some (if void.contains name then stack else name :: stack)

def openTags (void : List Str) (stack : List Str) : List Segment → Option (List Str)
  | [] => some stack
  | segment :: segments => (openTag void stack segment.tag).bind fun stack => openTags void stack segments

def Balanced (void : List Str) (segments : List Segment) : Prop :=
  ∀ stack, openTags void stack segments = some stack

section Nesting

variable {void : List Str}

theorem openTags_append (stack : List Str) (first second : List Segment) :
    openTags void stack (first ++ second) = (openTags void stack first).bind fun stack =>
      openTags void stack second := by
  induction first generalizing stack with
  | nil => rfl
  | cons segment first ih =>
    rw [List.cons_append, openTags, openTags, Option.bind_assoc]
    congr 1
    funext stack
    exact ih stack

theorem balanced_nil : Balanced void [] := fun _ => rfl

theorem Balanced.append {first second : List Segment} (left : Balanced void first)
    (right : Balanced void second) :
    Balanced void (first ++ second) := by
  intro stack
  rw [openTags_append, left stack]
  exact right stack

theorem balanced_flatMap {α : Type} {f : α → List Segment} {items : List α}
    (each : ∀ item ∈ items, Balanced void (f item)) :
    Balanced void (items.flatMap f) := by
  induction items with
  | nil => exact balanced_nil
  | cons item items ih =>
    rw [List.flatMap_cons]
    exact (each item List.mem_cons_self).append (ih fun other member =>
      each other (List.mem_cons_of_mem _ member))

theorem balanced_void {tag : Str} (text : Str) (opening : tag.head? ≠ some '/')
    (isVoid : void.contains (tag.takeWhile (· ≠ ' ')) = true) : Balanced void [⟨tag, text⟩] := by
  intro stack
  simp only [openTags]
  unfold openTag
  split
  · exact absurd rfl opening
  · dsimp only
    rw [isVoid]
    rfl

theorem balanced_element {tag name : Str} (text : Str) {inner : List Segment} (opening : tag.head? ≠ some '/')
    (named : tag.takeWhile (· ≠ ' ') = name) (closed : void.contains name = false)
    (balanced : Balanced void inner) :
    Balanced void (elementSegments tag name text inner) := by
  intro stack
  have start : openTag void stack tag = some (name :: stack) := by
    unfold openTag
    split
    · exact absurd rfl opening
    · dsimp only
      rw [named, closed]
      rfl
  rw [elementSegments, List.cons_append, openTags, start, Option.bind_some, openTags_append, balanced,
    Option.bind_some]
  simp [openTags, openTag]

theorem balanced_text {tag : Str} (text : Str) (opening : tag.head? ≠ some '/')
    (named : tag.takeWhile (· ≠ ' ') = tag) (closed : void.contains tag = false)
    (breaks : void.contains lineBreak = true) : Balanced void (textSegments tag text) := by
  refine balanced_element _ opening named closed ?_
  generalize (breakLines text).2 = lines
  induction lines with
  | nil => exact balanced_nil
  | cons line lines ih => exact (balanced_void line (by decide) breaks).append ih

end Nesting

theorem unmarked_element {tag name text : Str} {inner : List Segment} (opening : Unmarked tag)
    (closing : Unmarked name) (plain : Unmarked text) (each : ∀ segment ∈ inner, segment.Unmarked) :
    ∀ segment ∈ elementSegments tag name text inner, segment.Unmarked := by
  intro segment member
  rcases List.mem_append.mp member with member | member
  · rcases List.mem_cons.mp member with rfl | member
    · exact ⟨opening, plain⟩
    · exact each segment member
  · rw [List.mem_singleton.mp member]
    exact ⟨closing.cons (by decide), unmarked_nil⟩

theorem lineBreak_unmarked : Unmarked lineBreak := by
  decide

theorem unmarked_text {tag text : Str} (named : Unmarked tag) (plain : Unmarked text) :
    ∀ segment ∈ textSegments tag text, segment.Unmarked := by
  have joined := breakLines_joined text
  have first : Unmarked (breakLines text).1 := by
    intro c member
    exact plain c (joined ▸ List.mem_append_left _ member)
  refine unmarked_element named named first ?_
  intro segment member
  obtain ⟨line, inside, rfl⟩ := List.mem_map.mp member
  refine ⟨lineBreak_unmarked, fun c member => plain c ?_⟩
  rw [← joined]
  exact List.mem_append_right _ (List.mem_flatMap.mpr ⟨line, inside, List.mem_cons_of_mem _ member⟩)

/-- The characters `html.escape` replaces, with what it writes for them. -/
def htmlChar (c : Char) : Str :=
  if c = '&' then "&amp;".toList
  else if c = '<' then "&lt;".toList
  else if c = '>' then "&gt;".toList
  else if c = '"' then "&quot;".toList
  else if c = '\'' then "&#x27;".toList
  else [c]

/-- `html.escape(value)`. -/
def htmlEscape (value : Str) : Str :=
  let value := replaceChar '&' "&amp;".toList value
  let value := replaceChar '<' "&lt;".toList value
  let value := replaceChar '>' "&gt;".toList value
  let value := replaceChar '"' "&quot;".toList value
  replaceChar '\'' "&#x27;".toList value

def unescape : Str → Str
  | '&' :: 'a' :: 'm' :: 'p' :: ';' :: rest => '&' :: unescape rest
  | '&' :: 'l' :: 't' :: ';' :: rest => '<' :: unescape rest
  | '&' :: 'g' :: 't' :: ';' :: rest => '>' :: unescape rest
  | '&' :: 'q' :: 'u' :: 'o' :: 't' :: ';' :: rest => '"' :: unescape rest
  | '&' :: '#' :: 'x' :: '2' :: '7' :: ';' :: rest => '\'' :: unescape rest
  | c :: rest => c :: unescape rest
  | [] => []

theorem replaceChar_other {old c : Char} (new : Str) (apart : c ≠ old) : replaceChar old new [c] = [c] := by
  simp [replaceChar, apart]

theorem htmlEscape_singleton (c : Char) : htmlEscape [c] = htmlChar c := by
  by_cases amp : c = '&'
  · subst amp
    decide
  by_cases lt : c = '<'
  · subst lt
    decide
  by_cases gt : c = '>'
  · subst gt
    decide
  by_cases quot : c = '"'
  · subst quot
    decide
  by_cases apos : c = '\''
  · subst apos
    decide
  simp only [htmlEscape, htmlChar, replaceChar_other _ amp, replaceChar_other _ lt, replaceChar_other _ gt,
    replaceChar_other _ quot, replaceChar_other _ apos, amp, lt, gt, quot, apos, if_false]

theorem replaceChar_append (old : Char) (new s t : Str) :
    replaceChar old new (s ++ t) = replaceChar old new s ++ replaceChar old new t := List.flatMap_append

theorem htmlEscape_append (s t : Str) : htmlEscape (s ++ t) = htmlEscape s ++ htmlEscape t := by
  simp only [htmlEscape, replaceChar_append]

theorem htmlEscape_eq (value : Str) : htmlEscape value = value.flatMap htmlChar := by
  induction value with
  | nil => rfl
  | cons c value ih =>
      rw [List.flatMap_cons, ← ih, ← htmlEscape_singleton, ← htmlEscape_append, List.singleton_append]

theorem unescape_cons {c : Char} (plain : c ≠ '&') (rest : Str) :
    unescape (c :: rest) = c :: unescape rest := by
  rw [unescape]
  all_goals
    intros
    contradiction

theorem unescape_htmlChar (c : Char) (rest : Str) : unescape (htmlChar c ++ rest) = c :: unescape rest := by
  by_cases amp : c = '&'
  · subst amp
    rfl
  by_cases lt : c = '<'
  · subst lt
    rfl
  by_cases gt : c = '>'
  · subst gt
    rfl
  by_cases quot : c = '"'
  · subst quot
    rfl
  by_cases apos : c = '\''
  · subst apos
    rfl
  have same : htmlChar c = [c] := by simp [htmlChar, amp, lt, gt, quot, apos]
  rw [same]
  exact unescape_cons amp rest

theorem unescape_htmlEscape (value : Str) : unescape (htmlEscape value) = value := by
  rw [htmlEscape_eq]
  induction value with
  | nil => rfl
  | cons c value ih => rw [List.flatMap_cons, unescape_htmlChar, ih]

theorem htmlChar_unmarked (c : Char) : Unmarked (htmlChar c) := by
  unfold htmlChar
  split
  · decide
  · split
    · decide
    · split
      · decide
      · split
        · decide
        · split
          · decide
          · rename_i lt gt _ _
            exact Unmarked.cons (isBracket_false.mpr ⟨lt, gt⟩) unmarked_nil

theorem htmlEscape_unmarked (value : Str) : Unmarked (htmlEscape value) := by
  rw [htmlEscape_eq]
  exact unmarked_flatMap fun c _ => htmlChar_unmarked c

example : cut "<p>a&lt;b<br>c</p>".toList =
    some [⟨"p".toList, "a&lt;b".toList⟩, ⟨"br".toList, "c".toList⟩, ⟨"/p".toList, []⟩] := by decide

end ManifestCV.Foundation
