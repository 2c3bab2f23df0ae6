import ManifestCV.Latex.WellFormed

namespace ManifestCV.Latex

open Foundation

structure Wrote (output : Output) (lines : List LatexLine) (texts : List Str) : Prop where
  reads : output.out.map readLatexLine = lines.map some
  lists : ∀ more, listsClose none (lines ++ more) = listsClose output.listMode more
  bears : lines.filterMap LatexLine.text = texts
  single : ∀ line ∈ output.out, '\n' ∉ line

section Steps

variable {output : Output} {lines : List LatexLine} {texts : List Str}

theorem Wrote.add (wrote : Wrote output lines texts) {line : Str} {latexLine : LatexLine}
    (listMode : Option ListMode) (reads : readLatexLine line = some latexLine) (single : '\n' ∉ line)
    (lists : ∀ more, listsClose output.listMode (latexLine :: more) = listsClose listMode more) :
    Wrote { out := output.out ++ [line], listMode := listMode } (lines ++ [latexLine])
      (texts ++ latexLine.text.toList) := by
  constructor
  · rw [List.map_append, List.map_append, wrote.reads, List.map_singleton, List.map_singleton, reads]
  · intro more
    rw [List.append_assoc, List.singleton_append, wrote.lists, lists]
  · rw [List.filterMap_append, wrote.bears]
    cases shape : latexLine.text <;> simp [shape]
  · intro other member
    rcases List.mem_append.mp member with earlier | here
    · exact wrote.single other earlier
    · rw [List.mem_singleton.mp here]
      exact single

theorem listsClose_item (mode : ListMode) (text : List Token) (more : List LatexLine) :
    listsClose (some mode) (.item text :: more) = listsClose (some mode) more := by
  cases mode <;> rfl

theorem listsClose_closing (mode : ListMode) (more : List LatexLine) :
    listsClose (some mode) (.closing mode :: more) = listsClose none more := by
  cases mode <;> rfl

theorem closeList_wrote (wrote : Wrote output lines texts) :
    ∃ closed, Wrote output.closeList closed texts ∧ output.closeList.listMode = none := by
  cases mode : output.listMode with
  | none =>
    rw [Output.closeList, mode]
    exact ⟨lines, wrote, mode⟩
  | some mode' =>
    have newline : '\n' ∉ endLine mode' := by cases mode' <;> decide
    have closed := wrote.add none (readLatexLine_end mode') newline fun more => by
      rw [mode, listsClose_closing]
    have quiet : texts ++ (LatexLine.closing mode').text.toList = texts := List.append_nil _
    rw [quiet] at closed
    rw [Output.closeList, mode]
    exact ⟨_, closed, rfl⟩

theorem closeList_add (wrote : Wrote output lines texts) {line : Str} {latexLine : LatexLine}
    (reads : readLatexLine line = some latexLine) (single : '\n' ∉ line)
    (outside : ∀ more, listsClose none (latexLine :: more) = listsClose none more) :
    ∃ after, Wrote (output.closeList.add line) after (texts ++ latexLine.text.toList) := by
  obtain ⟨closed, wrote, none⟩ := closeList_wrote wrote
  refine ⟨closed ++ [latexLine], wrote.add _ reads single fun more => ?_⟩
  rw [none]
  exact outside more

theorem addItem_wrote (wrote : Wrote output lines texts) (mode : ListMode) {text : Str}
    (single : '\n' ∉ text) :
    ∃ after, Wrote (output.addItem mode text) after (texts ++ [plainText text]) := by
  have item : '\n' ∉ itemLine text := by
    rw [itemLine, List.mem_append, not_or]
    exact ⟨by decide, fun inside => single (inlineToLatex_newline inside)⟩
  rw [Output.addItem]
  dsimp only
  by_cases inList : output.listMode = some mode
  · rw [if_pos inList]
    refine ⟨_, wrote.add _ (readLatexLine_item text) item fun more => ?_⟩
    rw [inList, listsClose_item]
  · rw [if_neg inList]
    have newline : '\n' ∉ beginLine mode := by cases mode <;> decide
    obtain ⟨closed, closing, none⟩ := closeList_wrote wrote
    have opened := closing.add (some mode) (readLatexLine_begin mode) newline fun more => by
      rw [none]
      rfl
    have quiet : texts ++ (LatexLine.opening mode).text.toList = texts := List.append_nil _
    rw [quiet] at opened
    exact ⟨_, opened.add _ (readLatexLine_item text) item (listsClose_item mode _)⟩

end Steps

section Runs

variable {isDecimal : Char → Bool}

theorem afterSpaces_sub {rest text : Str} (found : afterSpaces rest = some text) : ∀ c ∈ text, c ∈ rest := by
  unfold afterSpaces at found
  split at found
  · cases found
    exact (List.dropWhile_sublist _).subset
  · cases found

theorem headingMatch_sub {stripped text : Str} {level : Nat}
    (found : headingMatch stripped = some (level, text)) :
    ∀ c ∈ text, c ∈ stripped := by
  unfold headingMatch at found
  dsimp only at found
  split at found
  · obtain ⟨rest, after, same⟩ := Option.map_eq_some_iff.mp found
    cases same
    exact fun c member => (List.dropWhile_sublist _).subset (afterSpaces_sub after c member)
  · cases found

theorem bulletMatch_sub {stripped text : Str} (found : bulletMatch stripped = some text) :
    ∀ c ∈ text, c ∈ stripped := by
  cases stripped with
  | nil => cases found
  | cons first rest =>
    rw [bulletMatch] at found
    split at found
    · exact fun c member => List.mem_cons_of_mem _ (afterSpaces_sub found c member)
    · cases found

theorem numberedMatch_sub {stripped text : Str} (found : numberedMatch isDecimal stripped = some text) :
    ∀ c ∈ text, c ∈ stripped := by
  unfold numberedMatch at found
  split at found
  · cases found
  · split at found
    · rename_i rest shape
      intro c member
      have inside : c ∈ '.' :: rest := List.mem_cons_of_mem _ (afterSpaces_sub found c member)
      rw [← shape] at inside
      exact (List.dropWhile_sublist _).subset inside
    · cases found

/-- One line of the input, from any state: at most one line with text, and that its own. -/
theorem readLine_wrote {output : Output} {lines : List LatexLine} {texts : List Str}
    (wrote : Wrote output lines texts) {line : Str} (single : '\n' ∉ line) :
    ∃ after, Wrote (readLine isDecimal output line) after
      (texts ++ if isBlank line then [] else [plainText (unmarked isDecimal line)]) := by
  have stripped : '\n' ∉ strip line := fun inside => single (mem_of_strip inside)
  rw [readLine, unmarked, ← strip_isEmpty]
  split
  · have blank : readLatexLine [] = some .blank := rfl
    exact closeList_add wrote blank List.not_mem_nil fun more => rfl
  · rename_i shown
    cases heading : headingMatch (strip line) with
    | some found =>
      obtain ⟨level, text⟩ := found
      have newline : '\n' ∉ headingLine level text := by
        have command : '\n' ∉ headingCommand level := by
          unfold headingCommand
          split
          · decide
          · split <;> decide
        simp only [headingLine, List.cons_append, List.append_assoc, List.nil_append, List.mem_cons,
          List.mem_append, List.not_mem_nil, or_false, not_or]
        exact ⟨by decide, command, by decide, fun inside =>
          stripped (headingMatch_sub heading _ (inlineToLatex_newline inside)), by decide⟩
      exact closeList_add wrote (readLatexLine_heading level text) newline fun more => rfl
    | none =>
      cases bullet : bulletMatch (strip line) with
      | some text =>
          exact addItem_wrote wrote .itemize fun inside => stripped (bulletMatch_sub bullet _ inside)
      | none =>
        cases numbered : numberedMatch isDecimal (strip line) with
        | some text =>
            exact addItem_wrote wrote .enumerate fun inside => stripped (numberedMatch_sub numbered _ inside)
        | none =>
          have nonempty : strip line ≠ [] := fun empty => shown (List.isEmpty_iff.mpr empty)
          exact closeList_add wrote (readLatexLine_paragraph nonempty) (fun inside =>
            stripped (inlineToLatex_newline inside))
            fun more => rfl

theorem foldl_wrote {output : Output} {lines : List LatexLine} {texts : List Str}
    (wrote : Wrote output lines texts) (input : List Str) (single : ∀ line ∈ input, '\n' ∉ line) :
    ∃ after, Wrote (input.foldl (readLine isDecimal) output) after
      (texts ++ (input.filter fun line => !isBlank line).map fun line =>
        plainText (unmarked isDecimal line)) := by
  induction input generalizing output lines texts with
  | nil => exact ⟨lines, by simpa using wrote⟩
  | cons line input ih =>
    obtain ⟨middle, step⟩ := @readLine_wrote isDecimal _ _ _ wrote _ (single line List.mem_cons_self)
    obtain ⟨after, rest⟩ := ih step fun other member => single other (List.mem_cons_of_mem _ member)
    refine ⟨after, ?_⟩
    rw [List.foldl_cons]
    cases blank : isBlank line <;> simpa [blank] using rest

end Runs

/-- The LaTeX of every Markdown text reads line by line, its lists close, and its texts are those of the lines
    that are not blank, without their markers and their paired delimiters. -/
theorem latex_wellFormed (isDecimal : Char → Bool) (content : Str) :
    ∃ lines : List LatexLine,
      (runs isNewline (markdownToLatexBody isDecimal content)).map readLatexLine = lines.map some ∧
      listsClose none lines = true ∧
      lines.filterMap LatexLine.text =
        ((splitlines content).filter fun line => !isBlank line).map fun line => plainText
    (unmarked isDecimal line) := by
  have single : ∀ line ∈ splitlines content, '\n' ∉ line := by
    intro line member inside
    have separates := splitlines_inside content line member _ inside
    cases separates
  have start : Wrote ⟨[], none⟩ [] [] := ⟨rfl, fun _ => rfl, rfl, fun _ member => nomatch member⟩
  obtain ⟨read, wrote⟩ := @foldl_wrote isDecimal _ _ _ start _ single
  obtain ⟨closed, closing, outside⟩ := closeList_wrote wrote
  have lists : listsClose none closed = true := by
    rw [← List.append_nil closed, closing.lists, outside]
    rfl
  cases out : ((splitlines content).foldl (readLine isDecimal) ⟨[], none⟩).closeList.out with
  | nil =>
    have nothing : closed = [] := by simpa [out] using closing.reads.symm
    refine ⟨[.blank], ?_, rfl, ?_⟩
    · rw [markdownToLatexBody, out]
      rfl
    · rw [← List.nil_append (List.map _ _), ← closing.bears, nothing]
      rfl
  | cons first rest =>
    refine ⟨closed, ?_, lists, closing.bears⟩
    have inside : ∀ line ∈ first :: rest, ∀ c ∈ line, isNewline c = false := by
      intro line member c found
      refine decide_eq_false fun same => closing.single line ?_ (same ▸ found)
      rw [out]
      exact member
    rw [markdownToLatexBody, out, runs_joinWith rfl (List.cons_ne_nil _ _) inside, ← out]
    exact closing.reads

end ManifestCV.Latex
