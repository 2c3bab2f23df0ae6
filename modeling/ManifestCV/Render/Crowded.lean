import ManifestCV.Document.Plain
import ManifestCV.Render.SizeLimit

namespace ManifestCV.Render

open Foundation Document

theorem chunksOf_flatten (width fuel : Nat) (text : Str) :
    List.Sublist (chunksOf width fuel text).flatten text := by
  induction fuel generalizing text with
  | zero => exact List.nil_sublist _
  | succ fuel ih =>
    rw [chunksOf]
    split
    · exact List.nil_sublist _
    · rw [List.flatten_cons]
      conv => rhs; rw [← List.take_append_drop width text]
      exact (ih (text.drop width)).append_left _

theorem plainRuntime_wrapsOnce : WrapsOnce plainRuntime where
  fewer text width _ := by
    have count : ∀ fuel text, (chunksOf width fuel text).length ≤ fuel := by
      intro fuel
      induction fuel with
      | zero => exact fun _ => Nat.le_refl _
      | succ fuel ih =>
        intro text
        rw [chunksOf]
        split
        · exact Nat.zero_le _
        · exact Nat.succ_le_succ (ih _)
    exact count text.length (strip text)
  kept text width _ :=
    (List.filter_sublist).trans ((chunksOf_flatten width _ _).trans (strip_inside text).sublist)
  expanded text width _ := by
    have whole := ((chunksOf_flatten width text.length (strip text)).trans
      (strip_inside text).sublist).length_le
    exact le_trans whole (Nat.le_mul_of_pos_left _ (by decide))

theorem mem_of_occursIn {needle hay : Str} (occurs : occursIn needle hay = true) {c : Char}
    (member : c ∈ needle) : c ∈ hay := by
  obtain ⟨tail, isTail, isPrefix⟩ := List.any_eq_true.mp occurs
  exact ((List.mem_tails tail hay).mp isTail).subset ((List.isPrefixOf_iff_prefix.mp isPrefix).subset member)

def letters (k : Nat) : Str := (List.replicate k ['a', '\n']).flatten

theorem letters_succ (k : Nat) : letters (k + 1) = 'a' :: '\n' :: letters k := by
  simp [letters, List.replicate_succ]

theorem mem_letters {k : Nat} {c : Char} (member : c ∈ letters k) : c = 'a' ∨ c = '\n' := by
  obtain ⟨pair, inside, member⟩ := List.mem_flatten.mp member
  rw [(List.mem_replicate.mp inside).2] at member
  simpa using member

theorem letters_lower (k : Nat) : plainRuntime.lower (letters k) = letters k := by
  refine (List.map_congr_left fun c member => ?_).trans (List.map_id _)
  rcases mem_letters member with rfl | rfl <;> decide

theorem letters_printed (k : Nat) :
    (Foundation.reprStr plainRuntime.isPrintable (letters k)).length = 3 * k + 2 := by
  have quote : (letters k).contains '\'' = false := by
    rw [Bool.eq_false_iff, ne_eq, List.contains_iff_mem]
    intro member
    rcases mem_letters member with same | same <;> cases same
  have inside : ((letters k).flatMap (reprChar plainRuntime.isPrintable '\'')).length = 3 * k := by
    induction k with
    | zero => rfl
    | succ k ih =>
      have other : (letters k).contains '\'' = false := by
        rw [letters_succ] at quote
        simpa using quote
      have pair : (reprChar plainRuntime.isPrintable '\'' 'a').length +
          (reprChar plainRuntime.isPrintable '\'' '\n').length = 3 := by
        decide
      rw [letters_succ, List.flatMap_cons, List.flatMap_cons, List.length_append, List.length_append,
        ih other]
      omega
  unfold Foundation.reprStr
  dsimp only
  rw [quote, Bool.false_and, if_neg Bool.false_ne_true, List.length_append, List.length_cons, inside,
    List.length_singleton]

theorem letters_split (k : Nat) : splitlines (letters k) = List.replicate k ['a'] := by
  induction k with
  | zero => rfl
  | succ k ih =>
    have step : splitlines ('a' :: '\n' :: letters k) = ['a'] :: splitlines (letters k) := by
      unfold splitlines
      rw [splitlinesFrom, if_neg (by decide), splitlinesFrom, if_pos (by decide)]
      · rfl
      · rintro _ same
        cases same
      · rintro _ same
        cases same
    rw [letters_succ, step, ih, List.replicate_succ]

theorem letters_harmless (k : Nat) : validateText plainRuntime (letters (k + 1)) = .ok () := by
  have clean : (executableMarkers.any (occursIn · (plainRuntime.lower (letters (k + 1))))) = false := by
    rw [letters_lower, List.any_eq_false]
    intro marker member occurs
    have foreign : (executableMarkers.all fun marker => marker.any fun c => c ≠ 'a' ∧ c ≠ '\n') = true :=
      by decide
    obtain ⟨c, inside, notLetter, notBreak⟩ :=
      List.any_iff_exists_prop.mp (List.all_eq_true.mp foreign marker member)
    rcases mem_letters (mem_of_occursIn occurs inside) with same | same
    · exact notLetter same
    · exact notBreak same
  have plain : matchesUrlPattern (letters (k + 1)) = false := by
    rw [letters_succ]
    rfl
  unfold validateText
  dsimp only
  rw [clean, plain, if_neg Bool.false_ne_true, if_neg Bool.false_ne_true]

theorem letters_lines (k : Nat) : (contentLines plainRuntime (.str (letters (k + 1)))).length = k + 1 := by
  have visible : (strip (letters (k + 1))).isEmpty = false := by
    rw [strip_isEmpty, letters_succ]
    rfl
  have lines : (splitlines (letters (k + 1))).filter (fun text => !(strip text).isEmpty) =
      List.replicate (k + 1) ['a'] := by
    rw [letters_split, List.filter_replicate_of_pos]
    decide
  rw [contentLines, visible, if_neg Bool.false_ne_true, List.length_map, lines, List.length_replicate]

theorem letters_content_printed (k : Nat) :
    ((Json.obj [([], .str (letters k))]).repr plainRuntime.floats plainRuntime.isPrintable).length =
    3 * k + 8 := by
  have name : (Foundation.reprStr plainRuntime.isPrintable []).length = 2 := rfl
  have colon : ": ".toList.length = 2 := rfl
  simp only [Json.repr, Json.reprFields, joinWith, List.length_append, List.length_cons, List.length_nil,
    letters_printed, name, colon]
  omega

theorem letters_content_bounded {k : Nat} (short : 3 * k + 11 ≤ maxText) :
    contentIsBounded plainRuntime [([], .str (letters (k + 1)))] = .ok () := by
  unfold contentIsBounded
  rw [letters_content_printed, if_neg (by omega)]
  unfold validateContent
  rw [if_neg (by decide)]
  simp only [List.length_singleton, validateFields]
  rw [if_neg (by decide)]
  unfold validateContent
  rw [if_neg (by decide)]
  simp only [letters_harmless]

def lettersContent : Dict := [([], .str (letters 3330))]

def crowdedId (i : Nat) : Str := 'b' :: decimal i

def crowdedBlock (i : Nat) : ResumeBlock :=
  ⟨crowdedId i, .customText, "A".toList, true, lettersContent, [], []⟩

def crowded : ResumeDocument where
  paper := .a4
  pages := [⟨"page-1".toList,
    [⟨"row-1".toList, [⟨"main".toList, Double.ofInt 1, Double.ofInt 1, Double.ofInt 1,
    (List.range 80).map crowdedId⟩]⟩]⟩]
  blocks := (List.range 80).map crowdedBlock
  style := { defaultStyle.reloaded with margin := Double.ofInt 1 }

theorem crowded_valid : crowded.Valid plainRuntime := by
  refine ⟨?_, ?_, ?_, ?_⟩
  · unfold Passes
    decide +kernel
  · intro page member
    rw [List.mem_singleton.mp member]
    refine ⟨by unfold Passes; decide, ?_⟩
    intro row inside
    rw [List.mem_singleton.mp inside]
    refine ⟨by unfold Passes; with_unfolding_all decide, ?_⟩
    intro column inner
    rw [List.mem_singleton.mp inner]
    unfold Passes
    with_unfolding_all decide
  · intro block member
    obtain ⟨i, inside, rfl⟩ := List.mem_map.mp member
    have named : ∀ i ∈ List.range 80, (bounded 1 80 (crowdedId i) "id".toList).1 = true ∧
        (crowdedId i).all isIdChar = true := by
      decide
    simp only [Passes, ResumeBlock.checks, List.forall_mem_cons]
    refine ⟨(named i inside).1, (named i inside).2, by rfl, by rfl,
      valueCheck_passes.mpr (letters_content_bounded (by decide)),
      valueCheck_passes.mpr (by rfl), fun _ absent => absurd absent List.not_mem_nil⟩
  · unfold Passes
    with_unfolding_all decide

theorem crowded_wellKeyed : ∀ block ∈ crowded.blocks, block.WellKeyed := by
  intro block member
  obtain ⟨i, _, rfl⟩ := List.mem_map.mp member
  simp [ResumeBlock.WellKeyed, crowdedBlock, lettersContent, Json.WellKeyed, Json.wellKeyedFields_iff]

theorem letters_block_lines {block : ResumeBlock} {k : Nat}
    (body : block.content = [([], .str (letters (k + 1)))]) (width : Nat) :
    k + 1 ≤ ((blockLines plainRuntime block width).map fun _ => 1).sum := by
  have unwrapped : (unwrappedLines plainRuntime block).length = k + 2 := by
    rw [unwrappedLines, body, List.flatMap_cons, List.flatMap_nil, List.append_nil, List.length_cons,
      letters_lines]
  have wrapped := length_flatMap_le (f := wrapLine plainRuntime width) (g := fun line => [line])
    fun line (_ : line ∈ unwrappedLines plainRuntime block) => wrapLine_some width line
  rw [List.flatMap_singleton', unwrapped] at wrapped
  rw [List.map_const', List.sum_replicate, nsmul_eq_mul, Nat.cast_id, mul_one, blockLines_unwrapped,
    List.length_append]
  omega

theorem crowded_unhidden : unhiddenBlocks crowded = (List.range 80).map crowdedBlock := by
  apply List.filter_eq_self.mpr
  intro block member
  obtain ⟨i, _, rfl⟩ := List.mem_map.mp member
  rfl

theorem crowded_lines : 80 * 3330 ≤ linesWeight plainRuntime crowded fun _ => 1 := by
  rw [linesWeight, crowded_unhidden, List.map_map]
  refine le_trans ?_ (List.card_nsmul_le_sum _ 3330 ?_)
  · rw [List.length_map, List.length_range, nsmul_eq_mul, Nat.cast_id]
  · intro weight member
    obtain ⟨i, _, rfl⟩ := List.mem_map.mp member
    rw [Function.comp_apply]
    exact @letters_block_lines (crowdedBlock i) 3329 rfl _

end ManifestCV.Render
