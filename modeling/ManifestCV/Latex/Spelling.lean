import ManifestCV.Latex.Reading

namespace ManifestCV.Latex

open Foundation

def Token.rawSpell : Token → Str
  | .char c => escapeChar c
  | .start emphasis => emphasis.command
  | .stop => ['}']

def Token.spell : Token → Str
  | .char c => if c = '_' then "\\_".toList else escapeChar c
  | token => token.rawSpell

section Escapes

theorem escapeChar_cases (c : Char) :
    (c, escapeChar c) ∈ specialChars ∨ (c ∉ specialChars.map Prod.fst ∧ escapeChar c = [c]) := by
  rw [escapeChar]
  cases found : specialChars.lookup c with
  | some text =>
    obtain ⟨before, after, split, _⟩ := List.lookup_eq_some_iff.mp found
    left
    rw [split, Option.getD_some]
    simp
  | none =>
    refine .inr ⟨fun inside => ?_, rfl⟩
    obtain ⟨special, member, same⟩ := List.mem_map.mp inside
    have apart := List.lookup_eq_none_iff.mp found special member
    simp [same] at apart

theorem specialChars_plain : ∀ special ∈ specialChars, special.2 ≠ [] ∧ '*' ∉ special.2 ∧ '_' ∉ special.2 ∧
    '\n' ∉ special.2 := by
  decide

theorem command_plain (emphasis : Emphasis) :
    emphasis.command ≠ [] ∧ '*' ∉ emphasis.command ∧ '_' ∉ emphasis.command ∧ '\n' ∉ emphasis.command := by
  cases emphasis <;> decide

theorem escapeChar_nonempty (c : Char) : escapeChar c ≠ [] := by
  rcases escapeChar_cases c with special | ⟨_, plain⟩
  · exact (specialChars_plain _ special).1
  · rw [plain]
    exact List.cons_ne_nil _ _

theorem mem_escapeChar {c mark : Char} (marks : mark = '*' ∨ mark = '_' ∨ mark = '\n')
    (inside : mark ∈ escapeChar c) : c = mark := by
  rcases escapeChar_cases c with special | ⟨_, plain⟩
  · obtain ⟨_, star, under, newline⟩ := specialChars_plain _ special
    rcases marks with rfl | rfl | rfl
    · exact absurd inside star
    · exact absurd inside under
    · exact absurd inside newline
  · rw [plain, List.mem_singleton] at inside
    exact inside.symm

theorem mem_rawSpell {token : Token} {mark : Char} (marks : mark = '*' ∨ mark = '_' ∨ mark = '\n')
    (inside : mark ∈ token.rawSpell) : token = .char mark := by
  cases token with
  | char c => rw [mem_escapeChar marks inside]
  | start emphasis =>
    obtain ⟨_, star, under, newline⟩ := command_plain emphasis
    rcases marks with rfl | rfl | rfl
    · exact absurd inside star
    · exact absurd inside under
    · exact absurd inside newline
  | stop =>
    rw [Token.rawSpell, List.mem_singleton] at inside
    subst inside
    simp at marks

theorem rawSpell_marks : Marks Token.rawSpell [.char '*', .char '_'] := by
  constructor
  · simp only [List.forall_mem_cons, List.not_mem_nil, false_implies, implies_true, and_true]
    refine ⟨⟨'*', rfl, fun token apart inside => ?_⟩, ⟨'_', rfl, fun token apart inside => ?_⟩⟩
    · exact apart (mem_rawSpell (.inl rfl) inside)
    · exact apart (mem_rawSpell (.inr (.inl rfl)) inside)
  · intro token
    cases token with
    | char c => exact escapeChar_nonempty c
    | start emphasis => exact (command_plain emphasis).1
    | stop => exact List.cons_ne_nil _ _

theorem escapeLatex_spell (text : Str) : escapeLatex text = (text.map Token.char).flatMap Token.rawSpell := by
  rw [escapeLatex, List.flatMap_map]
  rfl

theorem emphasize_spell (emphasis : Emphasis) (tokens : List Token) :
    emphasize emphasis (tokens.flatMap Token.rawSpell) = (pairUp emphasis tokens).flatMap Token.rawSpell := by
  have spelled : (emphasis.delimiters.map (·.map Token.char)).map (·.flatMap Token.rawSpell) =
      emphasis.delimiters := by
    cases emphasis <;> rfl
  have made : ∀ delimiter ∈ emphasis.delimiters.map (·.map Token.char),
      delimiter ≠ [] ∧ ∀ mark ∈ delimiter, mark ∈ [Token.char '*', Token.char '_'] := by
    cases emphasis <;> decide
  have passes := substitute_flatMap rawSpell_marks made (fun group => .start emphasis :: group ++ [.stop])
    (fun group => emphasis.command ++ group ++ ['}']) (by simp [Token.rawSpell]) tokens
  rw [spelled] at passes
  exact passes

theorem replaceChar_spell (tokens : List Token) :
    replaceChar '_' "\\_".toList (tokens.flatMap Token.rawSpell) = tokens.flatMap Token.spell := by
  rw [replaceChar, List.flatMap_assoc]
  refine List.flatMap_congr fun token _ => ?_
  have keeps : ∀ text : Str, '_' ∉ text → (text.flatMap fun c => if c = '_' then "\\_".toList else [c]) =
      text := by
    intro text absent
    induction text with
    | nil => rfl
    | cons c text ih =>
      rw [List.mem_cons, not_or] at absent
      rw [List.flatMap_cons, if_neg (Ne.symm absent.1), ih absent.2]
      rfl
  by_cases under : token = .char '_'
  · subst under
    rfl
  · rw [keeps _ fun inside => under (mem_rawSpell (.inr (.inl rfl)) inside)]
    cases token with
    | char c =>
      have apart : c ≠ '_' := fun same => under (congrArg _ same)
      rw [Token.spell, if_neg apart]
      rfl
    | _ => rfl

theorem inlineToLatex_spell (text : Str) : inlineToLatex text = (markUp text).flatMap Token.spell := by
  rw [inlineToLatex, escapeLatex_spell, emphasize_spell, emphasize_spell, replaceChar_spell]
  rfl

end Escapes

section Reading

theorem spell_cases (token : Token) :
    (token.spell, token) ∈ spellings ∨ ∃ c, token = .char c ∧ token.spell = [c] ∧ c ∉ reserved := by
  cases token with
  | char c =>
    by_cases under : c = '_'
    · subst under
      exact .inl (by decide)
    · rw [Token.spell, if_neg under]
      rcases escapeChar_cases c with special | ⟨absent, plain⟩
      · exact .inl (List.mem_append_left _ (List.mem_map.mpr ⟨_, special, rfl⟩))
      · refine .inr ⟨c, rfl, plain, fun inside => ?_⟩
        have listed : ∀ c ∈ reserved, c = '_' ∨ c ∈ specialChars.map Prod.fst :=
          List.all_iff_forall_prop.mp (by decide)
        rcases listed c inside with same | member
        · exact under same
        · exact absent member
  | start emphasis => cases emphasis <;> exact .inl (by decide)
  | stop => exact .inl (by decide)

theorem spellings_apart : PrefixFree spellings := by decide

theorem firstEntry_plain {c : Char} (plain : c ∉ reserved) (rest : Str) :
    firstEntry spellings (c :: rest) = none := by
  have heads : ∀ spelling ∈ spellings, ∃ d ∈ reserved, spelling.1 = d :: spelling.1.drop 1 := by
    have checked : (spellings.all fun spelling => reserved.any fun d => spelling.1 = d :: spelling.1.drop 1) =
      true := by decide
    intro spelling member
    exact List.any_iff_exists_prop.mp (List.all_eq_true.mp checked spelling member)
  refine List.findSome?_eq_none_iff.mpr fun spelling member => ?_
  obtain ⟨d, inside, shape⟩ := heads spelling member
  have apart : c ≠ d := fun same => plain (same ▸ inside)
  rw [shape, dropPrefix_skip apart]
  rfl

theorem spell_nonempty (token : Token) : token.spell ≠ [] := by
  rcases spell_cases token with member | ⟨c, _, shape, _⟩
  · have each : ∀ spelling ∈ spellings, spelling.1 ≠ [] := by decide
    exact each _ member
  · rw [shape]
    exact List.cons_ne_nil _ _

theorem readTokens_spell (tokens : List Token) {fuel : Nat}
    (enough : (tokens.flatMap Token.spell).length ≤ fuel) :
    readTokens fuel (tokens.flatMap Token.spell) = some tokens := by
  induction tokens generalizing fuel with
  | nil => cases fuel <;> rfl
  | cons token tokens ih =>
    obtain ⟨c, rest, shape⟩ := List.exists_cons_of_ne_nil (spell_nonempty token)
    have whole : (token :: tokens).flatMap Token.spell = c :: (rest ++ tokens.flatMap Token.spell) := by
      rw [List.flatMap_cons, shape, List.cons_append]
    rw [whole] at enough ⊢
    rw [List.length_cons, List.length_append] at enough
    obtain ⟨fuel, rfl⟩ : ∃ n, fuel = n + 1 := ⟨fuel - 1, by omega⟩
    rw [readTokens]
    rcases spell_cases token with member | ⟨d, rfl, spelled, plain⟩
    · have found := firstEntry_append spellings_apart member (tokens.flatMap Token.spell)
      rw [shape, List.cons_append] at found
      rw [found]
      simp only [ih (show (tokens.flatMap Token.spell).length ≤ fuel by omega), Option.map_some]
    · obtain ⟨rfl, rfl⟩ := List.cons.inj (spelled.symm.trans shape)
      have opens : reserved.contains d = false := by simpa using plain
      rw [firstEntry_plain plain]
      simp only [opens, Bool.false_eq_true, if_false, List.nil_append]
      rw [ih (by omega)]
      rfl

theorem readInline_command {c : Char} (unknown : c ∉ "t&%$#\x7b\x7d_".toList) (rest : Str) :
    readInline ('\\' :: c :: rest) = none := by
  have heads : ∀ spelling ∈ spellings, spelling.1.head? = some '}' ∨
      ∃ d ∈ "t&%$#\x7b\x7d_".toList, spelling.1 = '\\' :: d :: spelling.1.drop 2 := by
    have checked : (spellings.all fun spelling => decide (spelling.1.head? = some '}') ||
        "t&%$#\x7b\x7d_".toList.any fun d => spelling.1 = '\\' :: d :: spelling.1.drop 2) = true := by decide
    intro spelling member
    have either := List.all_eq_true.mp checked spelling member
    rw [Bool.or_eq_true, decide_eq_true_eq] at either
    exact either.imp id List.any_iff_exists_prop.mp
  have missing : firstEntry spellings ('\\' :: c :: rest) = none := by
    refine List.findSome?_eq_none_iff.mpr fun spelling member => ?_
    rcases heads spelling member with closes | ⟨d, inside, shape⟩
    · obtain ⟨text, shape⟩ := List.head?_eq_some_iff.mp closes
      rw [shape, dropPrefix_skip (by decide)]
      rfl
    · have apart : c ≠ d := fun same => unknown (same ▸ inside)
      rw [shape]
      simp [List.dropPrefix?, apart]
  rw [readInline, List.length_cons, readTokens, missing]
  rfl

end Reading

end ManifestCV.Latex
