import ManifestCV.Foundation.Pairs
import ManifestCV.Latex.WellFormed

namespace ManifestCV.Latex

open Foundation

def Token.isCore : Token → Bool
  | .char c => c ≠ '*' && c ≠ '_'
  | _ => false

def Shows (tokens : List Token) (text : Str) : Prop :=
  tokens.filter Token.isCore = (text.map Token.char).filter Token.isCore

def italicMarks : List Token := [.char '*', .char '_']

def italicize (group : List Token) : List Token := .start .italic :: group ++ [.stop]

section Words

-- Letters and digits.
variable (isAlnum : Char → Bool)

def isWordChar (c : Char) : Bool := isAlnum c || "_.@-/".toList.contains c

structure WordIn (line before word after : Str) : Prop where
  parts : line = before ++ word ++ after
  letters : ∀ c ∈ word, isWordChar isAlnum c = true
  first : word.head?.any isAlnum = true
  last : word.getLast?.any isAlnum = true
  longest : before.getLast?.any (isWordChar isAlnum) = false ∧ after.head?.any (isWordChar isAlnum) = false

end Words

/-- Without its LaTeX escapes the output has the word in its place, and no group starts or ends inside it. -/
def ShownIn (line before word after : Str) : Prop :=
  ∃ tokens, readInline (inlineToLatex line) = some tokens ∧
    ∃ first last, tokens = first ++ word.map .char ++ last ∧ Shows first before ∧ Shows last after

/-- The word's first underscore finds no partner: the word stands between two asterisks that pair up, or
    behind no underscore that is still open, and no other underscore follows but one right behind its
    first. -/
def StaysLiteral (line before word after : Str) : Prop :=
  ∃ first last, pairUp .bold (line.map .char) = first ++ word.map Token.char ++ last ∧ Shows first before ∧
    Shows last after ∧
    ('_' ∈ word → openMark italicMarks first (word.map Token.char ++ last) = some (.char '*') ∨
      openMark italicMarks first (word.map Token.char ++ last) = none ∧
        Token.char '_' ∉ ((word.dropWhile (· ≠ '_')).map Token.char ++ last).drop 2)

section Passes

theorem italicMarks_markless : ∀ mark ∈ italicMarks, mark.isCore = false := by
  decide

theorem italic_wraps (group : List Token) :
    (italicize group).filter Token.isCore = group.filter Token.isCore := by
  rw [italicize, List.cons_append, List.filter_cons_of_neg (by decide), List.filter_append,
    List.filter_singleton]
  exact List.append_nil _

theorem pairUp_italic (tokens : List Token) :
    pairUp .italic tokens = substitute (singles italicMarks) italicize tokens := rfl

variable {isAlnum : Char → Bool} {line before word after : Str}

theorem WordIn.head (inside : WordIn isAlnum line before word after)
    (apart : isAlnum '*' = false ∧ isAlnum '_' = false) :
    ∃ c rest, word = c :: rest ∧ (Token.char c).isCore = true := by
  cases shape : word with
  | nil =>
    have nothing := inside.first
    rw [shape] at nothing
    cases nothing
  | cons c rest =>
    have letter : isAlnum c = true := by
      have first := inside.first
      rwa [shape] at first
    refine ⟨c, rest, rfl, ?_⟩
    simp only [Token.isCore, Bool.and_eq_true, decide_eq_true_eq]
    constructor
    · rintro rfl
      rw [apart.1] at letter
      cases letter
    · rintro rfl
      rw [apart.2] at letter
      cases letter

theorem WordIn.starless (inside : WordIn isAlnum line before word after)
    (apart : isAlnum '*' = false ∧ isAlnum '_' = false) :
    '*' ∉ word := by
  intro star
  have letter := inside.letters '*' star
  rw [isWordChar, apart.1, Bool.false_or] at letter
  exact absurd letter (by decide)

theorem bold_word (inside : WordIn isAlnum line before word after)
    (apart : isAlnum '*' = false ∧ isAlnum '_' = false) :
    ∃ first last, pairUp .bold (line.map .char) = first ++ word.map .char ++ last ∧ Shows first before ∧
      Shows last after := by
  have made := substitute_substituted (Emphasis.bold.delimiters.map (·.map Token.char)) (fun group =>
    [.start .bold] ++ group ++ [.stop])
    (line.map .char)
  obtain ⟨c, rest, shape, _⟩ := inside.head apart
  have nonempty : word.map Token.char ≠ [] := by
    rw [shape]
    exact List.cons_ne_nil _ _
  have stars : ∀ delimiter ∈ Emphasis.bold.delimiters.map (·.map Token.char),
    delimiter = [.char '*', .char '*'] := by decide
  have absent : ∀ delimiter ∈ Emphasis.bold.delimiters.map (·.map Token.char),
      delimiter ≠ [] ∧ ∀ a ∈ delimiter, a ∉ word.map Token.char := by
    intro delimiter member
    rw [stars delimiter member]
    refine ⟨List.cons_ne_nil _ _, ?_⟩
    intro a isStar member
    obtain ⟨letter, inWord, rfl⟩ := List.mem_map.mp member
    simp only [List.mem_cons, List.not_mem_nil, or_false, or_self, Token.char.injEq] at isStar
    rw [isStar] at inWord
    exact inside.starless apart inWord
  have markless : ∀ delimiter ∈ Emphasis.bold.delimiters.map (·.map Token.char), ∀ a ∈ delimiter,
    a.isCore = false := by decide
  have same : line.map Token.char = before.map .char ++ word.map .char ++ after.map .char := by
    rw [inside.parts, List.map_append, List.map_append]
  exact made.segment markless (by decide) nonempty absent same

theorem WordIn.underscore (inside : WordIn isAlnum line before word after)
    (apart : isAlnum '*' = false ∧ isAlnum '_' = false) {u : Char} (inWord : u ∈ word)
    (isMark : Token.char u ∈ italicMarks) : u = '_' := by
  simp only [italicMarks, List.mem_cons, Token.char.injEq, List.not_mem_nil, or_false] at isMark
  rcases isMark with rfl | rfl
  · exact absurd inWord (inside.starless apart)
  · rfl

theorem cut_word (inside : WordIn isAlnum line before word after)
    (apart : isAlnum '*' = false ∧ isAlnum '_' = false) {tokens first rest : List Token} {early late : Str}
    {u : Char} {ending : Token} (isEnd : ∀ c, ending ≠ .char c) (isMark : Token.char u ∈ italicMarks)
    (split : word = early ++ u :: late) (shows : Shows first before)
    (out : tokens = first ++ early.map .char ++ ending :: rest) :
    ¬ ∃ first last, tokens = first ++ word.map .char ++ last ∧ Shows first before ∧ Shows last after := by
  rintro ⟨other, last, same, shows', _⟩
  obtain ⟨c, letters, shape, core⟩ := inside.head apart
  cases early with
  | nil =>
    rw [split] at shape
    cases shape
    rw [italicMarks_markless _ isMark] at core
    cases core
  | cons d early =>
    rw [split] at shape
    obtain ⟨rfl, _⟩ := List.cons.inj shape
    rw [out, split] at same
    simp only [List.map_cons, List.cons_append, List.map_append, List.append_assoc] at same
    obtain ⟨_, equal⟩ := append_core_cancel core core same (shows.trans shows'.symm)
    have ends := List.append_cancel_left (List.cons.inj equal).2
    exact isEnd u (List.cons.inj ends).1

variable {first last : List Token}

theorem italic_filter (tokens : List Token) :
    (substitute (singles italicMarks) italicize tokens).filter Token.isCore =
      tokens.filter Token.isCore :=
  (substitute_substituted _ _ tokens).filter (by decide) italic_wraps

theorem ShownIn.tokens (shown : ShownIn line before word after) :
    ∃ first last, markUp line = first ++ word.map .char ++ last ∧ Shows first before ∧ Shows last after := by
  obtain ⟨tokens, read, parts⟩ := shown
  cases (readInline_inline line).symm.trans read
  exact parts

/-- Where a group is open in front of the word, the word is shown if the closing mark is not in it. -/
theorem shown_within (inside : WordIn isAlnum line before word after)
    (apart : isAlnum '*' = false ∧ isAlnum '_' = false)
    (bolded : pairUp .bold (line.map .char) = first ++ word.map Token.char ++ last)
    (showsFirst : Shows first before) (showsLast : Shows last after) {mark : Token}
    (within : Within italicMarks italicize Token.isCore mark first (word.map Token.char ++ last)) :
    ShownIn line before word after ↔ mark ∉ word.map Token.char := by
  obtain ⟨isMark, result, opened, closed, behind, shape, absent, out, kept⟩ := within
  rw [← List.append_assoc, ← bolded, ← pairUp_italic] at out
  have showsStart : Shows (result ++ Token.start .italic :: opened) before := by
    rw [Shows, ← showsFirst, ← kept, List.filter_append, List.filter_cons_of_neg (by decide),
      List.filter_append]
  constructor
  · intro shown cut
    obtain ⟨u, inWord, rfl⟩ := List.mem_map.mp cut
    obtain ⟨early, late, split, fresh⟩ := List.eq_append_cons_of_mem inWord
    have fresh' : Token.char u ∉ early.map Token.char := by
      intro member
      obtain ⟨c, inEarly, same⟩ := List.mem_map.mp member
      exact fresh (Token.char.inj same ▸ inEarly)
    have place : closed ++ Token.char u :: behind = early.map Token.char ++ Token.char u ::
        (late.map Token.char ++ last) := by
      rw [← shape, split]
      simp
    obtain ⟨rfl, _⟩ := first_place absent fresh' place
    have whole : markUp line = (result ++ Token.start .italic :: opened) ++ early.map .char ++
        Token.stop :: substitute (singles italicMarks) italicize behind := by
      rw [markUp, out]
      simp [italicize]
    have ends : ∀ c, Token.stop ≠ Token.char c := fun c same => Token.noConfusion same
    exact cut_word inside apart ends isMark split showsStart whole shown.tokens
  · intro whole
    have others : ∀ token ∈ word.map Token.char, token ∉ [mark] := by
      intro token member same
      rw [List.mem_singleton.mp same] at member
      exact whole member
    have place : word.map Token.char ++ last = closed ++ [mark] ++ behind := by
      rw [shape, List.append_assoc, List.singleton_append]
    obtain ⟨between, rfl, rfl⟩ := part_behind (List.cons_ne_nil _ _) others place
    have gone : [mark].filter Token.isCore = [] := filter_markless fun token member => by
      rw [List.mem_singleton.mp member]
      exact italicMarks_markless mark isMark
    refine ⟨markUp line, readInline_inline line, result ++ Token.start .italic :: opened,
      between ++ [Token.stop] ++ substitute (singles italicMarks) italicize behind, ?_,
      showsStart, ?_⟩
    · rw [markUp, out]
      simp [italicize]
    · rw [Shows, ← showsLast]
      simp only [List.filter_append, italic_filter, gone]
      rfl

section Passed

variable {result : List Token} (inside : WordIn isAlnum line before word after)
  (apart : isAlnum '*' = false ∧ isAlnum '_' = false)
  (out : markUp line = result ++
    substitute (singles italicMarks) italicize (word.map Token.char ++ last))
  (showsStart : Shows result before)

include out showsStart in
theorem alone_shown (showsLast : Shows last after)
    (alone : ∀ early u late, word = early ++ u :: late →
      ¬ (Token.char u ∈ italicMarks ∧ Token.char u ∈ (late.map Token.char ++ last).drop 1)) :
    ShownIn line before word after := by
  refine ⟨markUp line, readInline_inline line, result, _, ?_, showsStart,
    (italic_filter last).trans showsLast⟩
  rw [out, List.append_assoc]
  congr 1
  apply substitute_alone
  intro early token late same
  obtain ⟨early, rest, split, rfl, shape⟩ := List.map_eq_append_iff.mp same
  obtain ⟨u, late, rfl, rfl, rfl⟩ := List.map_eq_cons_iff.mp shape
  exact alone early u late split

variable {early late : Str} (split : word = early ++ '_' :: late) (fresh : '_' ∉ early)

include inside apart out showsStart split fresh in
theorem opened_hidden (later : Token.char '_' ∈ (late.map Token.char ++ last).drop 1) :
    ¬ ShownIn line before word after := by
  intro shown
  have alone : ∀ tail before' token after', early.map Token.char = before' ++ token :: after' →
      ¬ (token ∈ italicMarks ∧ token ∈ (after' ++ tail).drop 1) := by
    intro tail before' token after' same both
    have member : token ∈ early.map Token.char := by
      rw [same]
      exact List.mem_append_right _ List.mem_cons_self
    obtain ⟨c, inEarly, rfl⟩ := List.mem_map.mp member
    have inWord : c ∈ word := by
      rw [split]
      exact List.mem_append_left _ inEarly
    rw [inside.underscore apart inWord both.1] at inEarly
    exact fresh inEarly
  obtain ⟨x, rest, shape⟩ : ∃ x rest, late.map Token.char ++ last = x :: rest := by
    apply List.exists_cons_of_ne_nil
    intro empty
    rw [empty] at later
    cases later
  rw [shape] at later
  obtain ⟨group, behind, same, absent⟩ := List.eq_append_cons_of_mem later
  have parts : word.map Token.char ++ last = early.map .char ++ Token.char '_' :: x ::
      (group ++ Token.char '_' :: behind) := by
    rw [split, List.map_append, List.map_cons, List.append_assoc, List.cons_append, shape, ← same]
    rfl
  have matched := @firstMatch_single _ _ italicMarks _ x (by decide) _ absent behind
  have whole : markUp line = result ++ early.map .char ++ Token.start .italic ::
    (x :: group ++ [Token.stop] ++
      substitute (singles italicMarks) italicize behind) := by
    rw [out, parts, substitute_alone (alone _), substitute_match _ _ matched]
    simp [italicize]
  have starts : ∀ c, Token.start .italic ≠ Token.char c := fun c same => Token.noConfusion same
  exact cut_word inside apart starts (by decide) split showsStart whole shown.tokens

include inside apart split fresh in
theorem first_alone (single : Token.char '_' ∉ (late.map Token.char ++ last).drop 1) (before' : Str)
    (u : Char) (late' : Str) (same : word = before' ++ u :: late') :
    ¬ (Token.char u ∈ italicMarks ∧ Token.char u ∈ (late'.map Token.char ++ last).drop 1) := by
  rintro ⟨isMark, partner⟩
  have inWord : u ∈ word := by
    rw [same]
    exact List.mem_append_right _ List.mem_cons_self
  rw [inside.underscore apart inWord isMark] at same partner
  have place : early ++ '_' :: late = before' ++ ['_'] ++ late' := by
    rw [← split, same, List.append_assoc, List.singleton_append]
  have others : ∀ c ∈ early, c ∉ ['_'] := by
    intro c member equal
    rw [List.mem_singleton.mp equal] at member
    exact fresh member
  obtain ⟨between, _, rest⟩ := part_behind (List.cons_ne_nil _ _) others place
  apply single
  cases between with
  | nil =>
    have equal : late = late' := (List.cons.inj rest).2
    rw [equal]
    exact partner
  | cons c between =>
    have equal : late = between ++ ['_'] ++ late' := (List.cons.inj rest).2
    rw [equal, List.map_append, List.map_append, List.append_assoc, List.append_assoc]
    have later := List.mem_of_mem_drop partner
    cases between with
    | nil => exact later
    | cons d between => exact List.mem_append_right _ (List.mem_cons_of_mem _ later)

include inside apart out showsStart in
/-- Where no group is open in front of the word, the word is shown if no group starts at its first
    underscore. -/
theorem shown_passed (showsLast : Shows last after) : ShownIn line before word after ↔
    ('_' ∈ word → Token.char '_' ∉ ((word.dropWhile (· ≠ '_')).map Token.char ++ last).drop 2) := by
  by_cases inWord : '_' ∈ word
  · obtain ⟨early, late, split, fresh⟩ := List.eq_append_cons_of_mem inWord
    have dropped : word.dropWhile (· ≠ '_') = '_' :: late := by
      have plain : ∀ c ∈ early, decide (c ≠ '_') = true := by
        intro c member
        rw [decide_eq_true_eq]
        intro same
        rw [same] at member
        exact fresh member
      rw [split, List.dropWhile_append_of_pos plain]
      rfl
    rw [dropped]
    show _ ↔ ('_' ∈ word → Token.char '_' ∉ (late.map Token.char ++ last).drop 1)
    constructor
    · intro shown _ later
      exact opened_hidden inside apart out showsStart split fresh later shown
    · intro single
      exact alone_shown out showsStart showsLast (first_alone inside apart split fresh (single inWord))
  · have shown : ShownIn line before word after := by
      apply alone_shown out showsStart showsLast
      intro early u late same both
      have inside' : u ∈ word := by
        rw [same]
        exact List.mem_append_right _ List.mem_cons_self
      rw [inside.underscore apart inside' both.1] at inside'
      exact inWord inside'
    exact ⟨fun _ inside => absurd inside inWord, fun _ => shown⟩

end Passed

/-- With the pairs of double asterisks made bold, what comes of the word's underscores. -/
theorem shown_bolded (inside : WordIn isAlnum line before word after)
    (apart : isAlnum '*' = false ∧ isAlnum '_' = false)
    (bolded : pairUp .bold (line.map .char) = first ++ word.map Token.char ++ last)
    (showsFirst : Shows first before) (showsLast : Shows last after) : ShownIn line before word after ↔
      ('_' ∈ word → openMark italicMarks first (word.map Token.char ++ last) = some (.char '*') ∨
        openMark italicMarks first (word.map Token.char ++ last) = none ∧
          Token.char '_' ∉ ((word.dropWhile (· ≠ '_')).map Token.char ++ last).drop 2) := by
  obtain ⟨c, rest, shape, core⟩ := inside.head apart
  have plain : Token.char c ∉ italicMarks := by
    intro isMark
    rw [italicMarks_markless _ isMark] at core
    cases core
  have scanned : Scanned italicMarks italicize Token.isCore first
      (Token.char c :: (rest.map Token.char ++ last)) :=
        substitute_scan italicMarks_markless italic_wraps plain first
  rw [← List.cons_append, ← List.map_cons, ← shape, Scanned] at scanned
  split at scanned
  · rename_i outside
    obtain ⟨result, out, kept⟩ := scanned
    rw [outside]
    rw [← List.append_assoc, ← bolded, ← pairUp_italic] at out
    simpa using shown_passed inside apart out (kept.trans showsFirst) showsLast
  · rename_i mark opened
    rw [opened, shown_within inside apart bolded showsFirst showsLast scanned]
    have isMark := scanned.1
    simp only [italicMarks, List.mem_cons, List.not_mem_nil, or_false] at isMark
    rcases isMark with rfl | rfl
    · simpa using inside.starless apart
    · simp

end Passes

/-- Which words a line shows unchanged. -/
theorem word_shown_iff {isAlnum : Char → Bool} (apart : isAlnum '*' = false ∧ isAlnum '_' = false)
    {line before word after : Str} (inside : WordIn isAlnum line before word after) :
    ShownIn line before word after ↔ StaysLiteral line before word after := by
  constructor
  · intro shown
    obtain ⟨first, last, bolded, showsFirst, showsLast⟩ := bold_word inside apart
    have alone := (shown_bolded inside apart bolded showsFirst showsLast).mp shown
    exact ⟨first, last, bolded, showsFirst, showsLast, alone⟩
  · rintro ⟨first, last, bolded, showsFirst, showsLast, alone⟩
    exact (shown_bolded inside apart bolded showsFirst showsLast).mpr alone

set_option maxRecDepth 20000 in
theorem word_shown_iff_address :
    ShownIn "Mail dev_user@example.com".toList "Mail ".toList "dev_user@example.com".toList [] ↔
    StaysLiteral "Mail dev_user@example.com".toList "Mail ".toList "dev_user@example.com".toList [] :=
  @word_shown_iff Char.isAlphanum (by decide) _ _ _ _ ⟨by decide, List.all_eq_true.mp (by decide), by decide,
    by decide, by decide⟩

set_option maxRecDepth 20000 in
/-- The underscores of two words pair up. -/
theorem underscored_names :
    WordIn Char.isAlphanum "first_name last_name".toList [] "first_name".toList " last_name".toList ∧
    ¬ ShownIn "first_name last_name".toList [] "first_name".toList " last_name".toList := by
  refine ⟨⟨by decide, List.all_eq_true.mp (by decide), by decide, by decide, by decide⟩, ?_⟩
  intro shown
  obtain ⟨first, last, parts, _⟩ := shown.tokens
  have part : "first_name".toList.map Token.char <:+: markUp "first_name last_name".toList :=
    ⟨first, last, parts.symm⟩
  revert part
  decide

end ManifestCV.Latex
