import ManifestCV.Foundation.Markup
import ManifestCV.Latex.Spelling

namespace ManifestCV.Latex

open Foundation

section Groups

/-- What a stretch of tokens does to the number of open groups, whatever is open around it. -/
theorem groupsClose_append {depth : Nat} {group tail : List Token}
    (closes : groupsClose depth (group ++ tail) = true) :
    ∃ inner, groupsClose inner tail = true ∧
      ∀ more other, groupsClose (depth + more) (group ++ other) = groupsClose (inner + more) other := by
  induction group generalizing depth with
  | nil => exact ⟨depth, closes, fun _ _ => rfl⟩
  | cons token group ih =>
    cases token with
    | char c => exact ih closes
    | start emphasis =>
      obtain ⟨inner, tailCloses, same⟩ := @ih (depth + 1) closes
      refine ⟨inner, tailCloses, fun more other => ?_⟩
      rw [List.cons_append, groupsClose, Nat.add_right_comm]
      exact same more other
    | stop =>
      cases depth with
      | zero => cases closes
      | succ depth =>
        obtain ⟨inner, tailCloses, same⟩ := @ih depth closes
        refine ⟨inner, tailCloses, fun more other => ?_⟩
        rw [List.cons_append, Nat.add_right_comm, groupsClose]
        exact same more other

theorem groupsClose_chars (depth : Nat) (text : Str) (rest : List Token) :
    groupsClose depth (text.map .char ++ rest) = groupsClose depth rest := by
  induction text with
  | nil => rfl
  | cons c text ih => exact ih

theorem pairUp_closes (emphasis : Emphasis) {depth : Nat} {tokens : List Token}
    (closes : groupsClose depth tokens = true) :
    groupsClose depth (pairUp emphasis tokens) = true := by
  have steps := substitute_substituted (emphasis.delimiters.map (·.map Token.char)) (fun group =>
    .start emphasis :: group ++ [.stop])
    tokens
  rw [pairUp]
  generalize substitute _ _ tokens = result at steps
  induction steps generalizing depth with
  | done => exact closes
  | keep token _ ih =>
    cases token with
    | char c => exact ih closes
    | start other => exact @ih (depth + 1) closes
    | stop =>
      cases depth with
      | zero => cases closes
      | succ depth => exact @ih depth closes
  | @matched delimiter group rest result member _ _ ih =>
    obtain ⟨text, _, rfl⟩ := List.mem_map.mp member
    rw [List.append_assoc, List.append_assoc, groupsClose_chars] at closes
    obtain ⟨inner, restCloses, same⟩ := groupsClose_append closes
    rw [groupsClose_chars] at restCloses
    have around := same 1 (.stop :: result)
    simp only [List.cons_append, List.append_assoc, List.nil_append, groupsClose]
    rw [around, groupsClose]
    exact ih restCloses

theorem markUp_closes (text : Str) : groupsClose 0 (markUp text) = true := by
  have plain : groupsClose 0 (text.map .char) = true := by
    rw [← List.append_nil (text.map Token.char), groupsClose_chars]
    rfl
  exact pairUp_closes .italic (pairUp_closes .bold plain)

theorem readInline_inline (text : Str) : readInline (inlineToLatex text) = some (markUp text) := by
  rw [inlineToLatex_spell, readInline, readTokens_spell _ (Nat.le_refl _), Option.filter_some,
    if_pos (markUp_closes text)]

end Groups

section Lines

theorem mem_pairUp {emphasis : Emphasis} {tokens : List Token} {c : Char}
    (member : .char c ∈ pairUp emphasis tokens) :
    .char c ∈ tokens := by
  have steps := substitute_substituted (emphasis.delimiters.map (·.map Token.char)) (fun group =>
    .start emphasis :: group ++ [.stop])
    tokens
  rw [pairUp] at member
  generalize substitute _ _ tokens = result at steps member
  induction steps with
  | done => cases member
  | keep token _ ih =>
    rcases List.mem_cons.mp member with rfl | member
    · exact List.mem_cons_self
    · exact List.mem_cons_of_mem _ (ih member)
  | matched _ _ _ ih =>
    simp only [List.cons_append, List.append_assoc, List.nil_append, List.mem_cons, List.mem_append,
      reduceCtorEq, false_or] at member
    simp only [List.mem_append]
    rcases member with inGroup | later
    · exact .inl (.inl (.inr inGroup))
    · exact .inr (ih later)

theorem pairUp_nonempty {emphasis : Emphasis} {tokens : List Token} (nonempty : tokens ≠ []) :
    pairUp emphasis tokens ≠ [] := by
  have steps := substitute_substituted (emphasis.delimiters.map (·.map Token.char)) (fun group =>
    .start emphasis :: group ++ [.stop])
    tokens
  rw [pairUp]
  intro empty
  rw [empty] at steps
  cases steps with
  | done => exact nonempty rfl

theorem inlineToLatex_nonempty {text : Str} (nonempty : text ≠ []) : inlineToLatex text ≠ [] := by
  have tokens : markUp text ≠ [] := pairUp_nonempty (pairUp_nonempty (by simpa using nonempty))
  obtain ⟨token, rest, shape⟩ := List.exists_cons_of_ne_nil tokens
  rw [inlineToLatex_spell, shape, List.flatMap_cons]
  exact List.append_ne_nil_of_left_ne_nil (spell_nonempty token) _

theorem inlineToLatex_newline {text : Str} (inside : '\n' ∈ inlineToLatex text) : '\n' ∈ text := by
  rw [inlineToLatex_spell] at inside
  obtain ⟨token, member, spelled⟩ := List.mem_flatMap.mp inside
  have same : token = .char '\n' := by
    cases token with
    | char c =>
      rw [Token.spell] at spelled
      split at spelled
      · exact absurd spelled (by decide)
      · exact mem_rawSpell (.inr (.inr rfl)) spelled
    | _ => exact mem_rawSpell (.inr (.inr rfl)) spelled
  rw [same] at member
  have listed := mem_pairUp (mem_pairUp member)
  simpa using listed

theorem readLatexLine_begin (mode : ListMode) : readLatexLine (beginLine mode) = some (.opening mode) := by
  cases mode <;> decide

theorem readLatexLine_end (mode : ListMode) : readLatexLine (endLine mode) = some (.closing mode) := by
  cases mode <;> decide

theorem readEnvironment_none {c : Char} (other : c ∉ ['b', 'e']) (rest : Str) :
    readEnvironment ('\\' :: c :: rest) = none := by
  simp only [List.mem_cons, List.not_mem_nil, or_false, not_or] at other
  refine List.findSome?_eq_none_iff.mpr fun mode _ => ?_
  have opens : '\\' :: c :: rest ≠ beginLine mode :=
    fun same => other.1 (List.cons.inj (List.cons.inj same).2).1
  have closes : '\\' :: c :: rest ≠ endLine mode :=
    fun same => other.2 (List.cons.inj (List.cons.inj same).2).1
  rw [if_neg opens, if_neg closes]

theorem headings_apart : PrefixFree headings := by decide

theorem readLatexLine_heading (level : Nat) (text : Str) :
    readLatexLine (headingLine level text) = some (.heading (headingCommand level) (markUp text)) := by
  have listed : ('\\' :: headingCommand level ++ ['{'], headingCommand level) ∈ headings := by
    unfold headingCommand
    split
    · decide
    · split <;> decide
  have second : ∃ rest, headingLine level text = '\\' :: 's' :: rest := by
    unfold headingLine headingCommand
    split
    · exact ⟨_, rfl⟩
    · split <;> exact ⟨_, rfl⟩
  have found : readHeading (headingLine level text) =
      some (.heading (headingCommand level) (markUp text)) := by
    have opening := firstEntry_append headings_apart listed (inlineToLatex text ++ ['}'])
    rw [headingLine, List.append_assoc, readHeading, opening]
    simp only [Option.bind_some, List.getLast?_concat, List.dropLast_concat, if_true, readInline_inline,
      Option.map_some]
  obtain ⟨rest, shape⟩ := second
  rw [shape] at found ⊢
  rw [readLatexLine, if_neg (List.cons_ne_nil _ _), readEnvironment_none (by decide), found]
  rfl

theorem readLatexLine_item (text : Str) : readLatexLine (itemLine text) = some (.item (markUp text)) := by
  have found : readItem (itemLine text) = some (.item (markUp text)) := by
    have cut : (itemLine text).dropPrefix? "\\item ".toList = some (inlineToLatex text) :=
      dropPrefix_some.mpr rfl
    rw [readItem, cut, Option.bind_some, readInline_inline, Option.map_some]
  have shape : itemLine text = '\\' :: 'i' :: ("tem ".toList ++ inlineToLatex text) := rfl
  have unheaded : readHeading (itemLine text) = none := by
    rw [shape]
    rfl
  rw [readLatexLine, found, unheaded, shape, if_neg (List.cons_ne_nil _ _), readEnvironment_none (by decide)]
  rfl

theorem inlineToLatex_command {text rest : Str} {c : Char} (command : c ∈ "bies".toList) :
    inlineToLatex text ≠ '\\' :: c :: rest := by
  intro same
  have unknown : ∀ c ∈ "bies".toList, c ∉ "t&%$#\x7b\x7d_".toList := List.all_iff_forall_prop.mp (by decide)
  have read := readInline_inline text
  rw [same, readInline_command (unknown c command)] at read
  cases read

theorem readLatexLine_paragraph {text : Str} (nonempty : text ≠ []) :
    readLatexLine (inlineToLatex text) = some (.paragraph (markUp text)) := by
  have outside : readEnvironment (inlineToLatex text) = none := by
    refine List.findSome?_eq_none_iff.mpr fun mode _ => ?_
    rw [if_neg, if_neg]
    · exact inlineToLatex_command (c := 'e') (by decide)
    · exact inlineToLatex_command (c := 'b') (by decide)
  have unheaded : readHeading (inlineToLatex text) = none := by
    cases found : firstEntry headings (inlineToLatex text) with
    | none => rw [readHeading, found, Option.bind_none]
    | some split =>
      obtain ⟨entry, member, starts, _⟩ := firstEntry_some found
      have heads : ∀ entry ∈ headings, entry.1 = '\\' :: 's' :: entry.1.drop 2 := by decide
      rw [heads entry member] at starts
      exact absurd starts (inlineToLatex_command (by decide))
  have unlisted : readItem (inlineToLatex text) = none := by
    cases found : (inlineToLatex text).dropPrefix? "\\item ".toList with
    | none => rw [readItem, found, Option.bind_none]
    | some rest => exact absurd (dropPrefix_some.mp found) (inlineToLatex_command (c := 'i') (by decide))
  rw [readLatexLine, if_neg (inlineToLatex_nonempty nonempty), outside, unheaded, unlisted, readInline_inline]
  rfl

end Lines

end ManifestCV.Latex
