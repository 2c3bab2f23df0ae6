import Mathlib.Data.List.DropRight
import ManifestCV.Document.Sections
import ManifestCV.Document.Plain

namespace ManifestCV.Document

open Foundation

/-- A '-' or '*' marks a list item where white space or the end of the line follows it. -/
def isListMarker (c : Char) (rest : Str) : Bool := (c = '-' || c = '*') && rest.head?.all isSpace

def lineText (line : Str) : Str :=
  match strip line with
  | [] => []
  | c :: rest => if isListMarker c rest then rest.dropWhile (· = ' ') else c :: rest

def IsText (markdown line : Str) : Prop :=
  line ∈ splitlines markdown ∧ headingText (strip line) = none ∧ isBlank line = false

def contentText : Json → Option Str
  | .obj fields =>
    match fields.lookup "content".toList with
    | some (.obj content) =>
      match content.lookup "text".toList with
      | some (.str text) => some text
      | _ => none
    | _ => none
  | _ => none

/-- A line's text is a line of some block's text. -/
def Appears (line : Str) (blocks : List Json) : Prop :=
  lineText line = [] ∨ ∃ block ∈ blocks, ∃ text, contentText block = some text ∧
    lineText line ∈ runs isNewline text

def Picked (rt : Runtime) (markdown : Str) (document : ResumeDocument) (name : Str) : Prop :=
  ∃ block ∈ document.blocks, ∃ lines,
    pickedSection rt (readSections rt markdown) block.title (blockType.text block.type) = some (name, lines)

/-- What it takes for a line to be kept: no other sign is taken for a list marker, and the text stands under a
    heading that some block picks. -/
def Kept (rt : Runtime) (markdown : Str) (document : ResumeDocument) (line : Str) : Prop :=
  lineText line = textOf line ∧
    ∃ tagged ∈ markdownLines rt markdown, textOf tagged.2 = textOf line ∧ Picked rt markdown document tagged.1

section Texts

theorem lstripChars_idem (chars s : Str) : lstripChars chars (lstripChars chars s) = lstripChars chars s :=
  List.dropWhile_idempotent _ _

theorem lstripChars_spaces (s : Str) :
    lstripChars "-* ".toList (s.dropWhile (· = ' ')) = lstripChars "-* ".toList s := by
  induction s with
  | nil => rfl
  | cons c s ih =>
    by_cases space : c = ' '
    · subst space
      exact ih
    · rw [List.dropWhile_cons, if_neg (by simpa using space)]

theorem textOf_lineText (line : Str) : textOf line = lstripChars "-* ".toList (lineText line) := by
  unfold textOf lineText
  cases strip line with
  | nil => rfl
  | cons c rest =>
    dsimp only
    split
    · rename_i marker
      have dropped : ("-* ".toList).contains c = true := by
        simp only [isListMarker, Bool.and_eq_true, Bool.or_eq_true, decide_eq_true_eq] at marker
        rcases marker.1 with rfl | rfl <;> rfl
      rw [lstripChars_spaces, lstripChars, List.dropWhile_cons, if_pos dropped]
      rfl
    · rfl

theorem lineText_of_textOf {line other : Str} (same : lineText line = textOf other) :
    lineText line = textOf line := by
  rw [textOf_lineText line, same, textOf, lstripChars_idem]

theorem textOf_inside {rt : Runtime} {markdown : Str} {tagged : Str × Str}
    (member : tagged ∈ markdownLines rt markdown) :
    ∀ c ∈ textOf tagged.2, isLineBreak c = false := by
  intro c inside
  have stripped : c ∈ strip tagged.2 := (List.dropWhile_sublist _).subset inside
  exact splitlines_inside markdown _ (taggedLines_mem member).1 c (mem_of_strip stripped)

end Texts

section Blocks

variable {rt : Runtime} {markdown : Str}

theorem blockSection_inside (block : ResumeBlock) :
    ∀ line ∈ blockSection rt markdown block, ∀ c ∈ line, isLineBreak c = false := by
  rw [blockSection, sectionFor_picked]
  split
  · rename_i item found
    rw [readSections_lines (List.mem_of_find?_eq_some found)]
    intro line member
    obtain ⟨tagged, inside, rfl⟩ := List.mem_map.mp member
    exact textOf_inside (List.mem_filter.mp inside).1
  · exact fun _ member => nomatch member

theorem mem_blockSection {block : ResumeBlock} {text : Str} : text ∈ blockSection rt markdown block ↔
    ∃ tagged ∈ markdownLines rt markdown, textOf tagged.2 = text ∧
      ∃ lines, pickedSection rt (readSections rt markdown) block.title (blockType.text block.type) =
        some (tagged.1, lines) := by
  rw [blockSection, sectionFor_picked]
  cases found : pickedSection rt (readSections rt markdown) block.title (blockType.text block.type) with
  | none => simp
  | some item =>
    dsimp only
    rw [readSections_lines (List.mem_of_find?_eq_some found)]
    simp only [List.mem_map, List.mem_filter, decide_eq_true_eq]
    constructor
    · rintro ⟨tagged, ⟨member, named⟩, same⟩
      exact ⟨tagged, member, same, item.2, by rw [named]⟩
    · rintro ⟨tagged, member, same, lines, picked⟩
      have named : item.1 = tagged.1 := congrArg Prod.fst (Option.some.inj picked)
      exact ⟨tagged, ⟨member, named.symm⟩, same⟩

theorem blockSection_text {block : ResumeBlock} {text : Str} (nonempty : text ≠ []) :
    text ∈ runs isNewline (joinWith ['\n'] (blockSection rt markdown block)) ↔
      text ∈ blockSection rt markdown block := by
  cases lines : blockSection rt markdown block with
  | nil =>
    have only : runs isNewline (joinWith ['\n'] []) = [[]] := rfl
    rw [only, List.mem_singleton]
    constructor
    · exact fun empty => absurd empty nonempty
    · exact fun absent => nomatch absent
  | cons first rest =>
    have inside : ∀ line ∈ first :: rest, ∀ c ∈ line, isNewline c = false := by
      intro line member c found
      exact not_newline (blockSection_inside block line (lines ▸ member) c found)
    rw [runs_joinWith rfl (List.cons_ne_nil _ _) inside]

theorem contentText_filled (fields : Dict) (type : Str) (lines : List Str) :
    contentText (.obj (dictInsert fields "content".toList (.obj (sectionContent type lines)))) =
      some (joinWith ['\n'] lines) := by
  simp only [contentText, lookup_dictInsert, if_true]
  rfl

/-- `markdown_to_blocks` on the blocks of an accepted document: each gets the lines of its section as text. -/
theorem markdownToBlocks_texts {existing : List Json} {blocks : List ResumeBlock}
    (parsed : traverse (validateBlock rt) existing = .ok blocks) :
    ∃ result, markdownToBlocks rt markdown existing = some result ∧
      result.map contentText = blocks.map fun block =>
        some (joinWith ['\n'] (blockSection rt markdown block)) := by
  rw [traverse_ok] at parsed
  induction parsed with
  | nil => exact ⟨[], rfl, rfl⟩
  | @cons value block _ _ head _ ih =>
    obtain ⟨fields, _, done⟩ := @fillBlock_parsed rt (readSections rt markdown) _ _ head
    obtain ⟨rest, others, texts⟩ := ih
    rw [markdownToBlocks] at others
    refine ⟨.obj (dictInsert fields "content".toList (.obj (sectionContent (blockType.text block.type)
      (sectionFor rt (readSections rt markdown) block.title (blockType.text block.type))))) :: rest, ?_, ?_⟩
    · rw [markdownToBlocks, List.mapM_cons, done, others]
      rfl
    · rw [List.map_cons, List.map_cons, texts, contentText_filled]
      rfl

theorem blocks_found {fields : Dict} {document : ResumeDocument}
    (accepted : validateDocument rt (.obj fields) = .ok document) :
    ∃ existing, fields.lookup "blocks".toList = some (.arr existing) ∧
      traverse (validateBlock rt) existing = .ok document.blocks := by
  unfold validateDocument at accepted
  obtain ⟨inner, known, accepted⟩ := bind_ok.mp accepted
  obtain ⟨_, _, accepted⟩ := bind_ok.mp accepted
  obtain ⟨paper, _, accepted⟩ := bind_ok.mp accepted
  obtain ⟨pages, _, accepted⟩ := bind_ok.mp accepted
  obtain ⟨blocks, hBlocks, accepted⟩ := bind_ok.mp accepted
  obtain ⟨style, _, accepted⟩ := bind_ok.mp accepted
  obtain ⟨_, rfl⟩ := passing_ok.mp accepted
  obtain ⟨value, found, parsed⟩ := required_ok.mp hBlocks
  rw [← Json.obj.inj (modelFields_ok.mp known).1] at found
  cases value with
  | arr existing => exact ⟨existing, found, parsed⟩
  | _ => cases parsed

theorem blocks_parsed {fields : Dict} {existing : List Json} {document : ResumeDocument}
    (accepted : validateDocument rt (.obj fields) = .ok document)
    (stored : fields.lookup "blocks".toList = some (.arr existing)) :
    traverse (validateBlock rt) existing = .ok document.blocks := by
  obtain ⟨items, found, parsed⟩ := blocks_found accepted
  rw [stored] at found
  cases found
  exact parsed

theorem appears_kept {result : List Json} {document : ResumeDocument} {line : Str}
    (texts : result.map contentText = document.blocks.map fun block =>
      some (joinWith ['\n'] (blockSection rt markdown block))) :
    Appears line result ↔ lineText line = [] ∨ Kept rt markdown document line := by
  unfold Appears
  refine or_congr_right' fun nonempty => ?_
  have inBlocks : (∃ block ∈ result, ∃ text, contentText block = some text ∧
    lineText line ∈ runs isNewline text) ↔
      ∃ block ∈ document.blocks, lineText line ∈ blockSection rt markdown block := by
    constructor
    · rintro ⟨block, member, text, found, inside⟩
      have there := List.mem_map_of_mem (f := contentText) member
      rw [texts, found] at there
      obtain ⟨source, inDocument, same⟩ := List.mem_map.mp there
      rw [← Option.some.inj same] at inside
      exact ⟨source, inDocument, (blockSection_text nonempty).mp inside⟩
    · rintro ⟨source, inDocument, inside⟩
      have there : some (joinWith ['\n'] (blockSection rt markdown source)) ∈ result.map contentText := by
        rw [texts]
        exact List.mem_map.mpr ⟨source, inDocument, rfl⟩
      obtain ⟨block, member, found⟩ := List.mem_map.mp there
      exact ⟨block, member, _, found, (blockSection_text nonempty).mpr inside⟩
  rw [inBlocks]
  constructor
  · rintro ⟨block, inDocument, inside⟩
    obtain ⟨tagged, member, same, lines, picked⟩ := mem_blockSection.mp inside
    have single := lineText_of_textOf same.symm
    exact ⟨single, tagged, member, same.trans single, block, inDocument, lines, picked⟩
  · rintro ⟨single, tagged, member, same, block, inDocument, lines, picked⟩
    exact ⟨block, inDocument, mem_blockSection.mpr ⟨tagged, member, same.trans single.symm, lines, picked⟩⟩

end Blocks

/-- A generated text loses no line exactly when every line with text has one list marker at most and stands,
    itself or another with the same text, under a heading that some block picks. -/
theorem generation_keeps_lines (rt : Runtime) (markdown : Str) (fields : Dict) (existing : List Json)
    (document : ResumeDocument) (accepted : validateDocument rt (.obj fields) = .ok document)
    (stored : fields.lookup "blocks".toList = some (.arr existing)) :
    ∃ result, markdownToBlocks rt markdown existing = some result ∧
      ((∀ line, IsText markdown line → Appears line result) ↔
        ∀ line, IsText markdown line → lineText line = [] ∨ Kept rt markdown document line) := by
  obtain ⟨result, done, texts⟩ := markdownToBlocks_texts (blocks_parsed accepted stored)
  refine ⟨result, done, ?_⟩
  exact forall_congr' fun line => forall_congr' fun _ => appears_kept texts

theorem generation_keeps_lines_onePager :
    validateDocument plainRuntime (modelDump (onePager "Engineer".toList)) =
      .ok (onePager "Engineer".toList) ∧
      ∃ result, markdownToBlocks plainRuntime "- Builds looms".toList
        ((onePager "Engineer".toList).blocks.map dumpBlock) = some result ∧
        ((∀ line, IsText "- Builds looms".toList line → Appears line result) ↔
          ∀ line, IsText "- Builds looms".toList line → lineText line = [] ∨
            Kept plainRuntime "- Builds looms".toList (onePager "Engineer".toList) line) :=
  ⟨onePager_reloads,
    generation_keeps_lines plainRuntime _ _ _ _ onePager_reloads rfl⟩

def skillsPage : ResumeDocument := onePagerWith .skills "Skills".toList []

theorem skillsPage_accepted : Accepted plainRuntime skillsPage :=
  onePagerWith_accepted rfl rfl ⟨List.nodup_nil, trivial⟩

theorem not_appears {block : Json} {line text : Str} (content : contentText block = some text)
    (shown : lineText line ≠ []) (absent : lineText line ∉ runs isNewline text) : ¬ Appears line [block] := by
  rintro (empty | ⟨other, member, found, same, inside⟩)
  · exact shown empty
  · rw [List.mem_singleton.mp member, content] at same
    cases same
    exact absent inside

/-- A line under a heading that no block picks, and two lines under one that a block does: bold text, and a
    minus sign. -/
theorem lines_lost : Accepted plainRuntime skillsPage ∧
    (IsText "# Hobbies\nChess".toList "Chess".toList ∧ ∃ result,
      markdownToBlocks plainRuntime "# Hobbies\nChess".toList (skillsPage.blocks.map dumpBlock) =
        some result ∧
        ¬ Appears "Chess".toList result) ∧
    (IsText "# Skills\n**Go** well".toList "**Go** well".toList ∧ ∃ result,
      markdownToBlocks plainRuntime "# Skills\n**Go** well".toList (skillsPage.blocks.map dumpBlock) =
        some result ∧
        ¬ Appears "**Go** well".toList result) ∧
    (IsText "# Skills\n-5% churn".toList "-5% churn".toList ∧ ∃ result,
      markdownToBlocks plainRuntime "# Skills\n-5% churn".toList (skillsPage.blocks.map dumpBlock) =
        some result ∧
        ¬ Appears "-5% churn".toList result) := by
  refine ⟨skillsPage_accepted, ⟨by unfold IsText; decide, _, rfl, ?_⟩, ⟨by unfold IsText; decide, _, rfl, ?_⟩,
    by unfold IsText; decide, _, rfl, ?_⟩
  · exact @not_appears _ _ [] rfl (by decide) (by decide)
  · exact @not_appears _ _ "Go** well".toList rfl (by decide) (by decide)
  · exact @not_appears _ _ "5% churn".toList rfl (by decide) (by decide)

end ManifestCV.Document
