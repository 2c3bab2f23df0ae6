import ManifestCV.Render.SizeBudget

namespace ManifestCV.Render

open Foundation Document

/-- What `textwrap.wrap` makes of a text: every line holds one of its characters at least, no character but
    the space is put in or repeated, and a tab stands for eight spaces at most. -/
structure WrapsOnce (rt : Runtime) : Prop where
  fewer : ∀ text width, 0 < width → (rt.wrap text width).length ≤ text.length
  kept : ∀ text width, 0 < width → List.Sublist ((rt.wrap text width).flatten.filter (· ≠ ' ')) text
  expanded : ∀ text width, 0 < width → (rt.wrap text width).flatten.length ≤ 8 * text.length

section Chars

theorem escapeChar_bytes (c : Char) : (encode (escapeChar c)).length ≤ (if c = ' ' then 0 else 3) + 1 := by
  unfold escapeChar
  split
  · rename_i special
    rcases special with rfl | rfl | rfl <;> decide
  · have wide := c.utf8Size_le_four
    rw [encode_length, List.map_singleton, List.sum_singleton]
    split
    · rename_i space
      rw [space]
      decide
    · omega

theorem textBytes_le (line : Line) :
    textBytes line ≤ 3 * (line.text.filter (· ≠ ' ')).length + line.text.length := by
  have whole : textBytes line ≤ (encode (escape line.text)).length := by
    rw [textBytes, escape_eq, escape_eq]
    conv_rhs => rw [← List.take_append_drop 180 line.text, List.flatMap_append, encode_append,
      List.length_append]
    exact Nat.le_add_right _ _
  refine le_trans whole ?_
  rw [escape_eq]
  induction line.text with
  | nil => exact Nat.le_refl _
  | cons c text ih =>
    have here := escapeChar_bytes c
    rw [List.flatMap_cons, encode_append, List.length_append, List.filter_cons, List.length_cons]
    by_cases space : c = ' '
    · rw [if_pos space] at here
      rw [if_neg (by simp [space])]
      omega
    · rw [if_neg space] at here
      rw [if_pos (by simpa using space), List.length_cons]
      omega

end Chars

section Wrapping

variable {rt : Runtime}

theorem wrapLine_sum (wraps : WrapsOnce rt) {width : Nat} (positive : 0 < width) {line : Line}
    (something : line.text ≠ []) :
    ((wrapLine rt width line).map fun part => 62 + textBytes part).sum ≤ 73 * line.text.length := by
  have long : 0 < line.text.length := List.length_pos_iff.mpr something
  have bytes : ∀ chunks : List Str,
    (chunks.map fun text => 3 * (text.filter (· ≠ ' ')).length + text.length).sum =
      3 * (chunks.flatten.filter (· ≠ ' ')).length + chunks.flatten.length := by
    intro chunks
    induction chunks with
    | nil => rfl
    | cons text chunks ih =>
      rw [List.map_cons, List.sum_cons, ih, List.flatten_cons, List.filter_append, List.length_append,
        List.length_append]
      omega
  have parts : ∀ chunks : List Str, ((chunks.mapIdx fun index text =>
        ({ text, heading := line.heading && index == 0 } : Line)).map fun part => 62 + textBytes part).sum ≤
      62 * chunks.length + (3 * (chunks.flatten.filter (· ≠ ' ')).length + chunks.flatten.length) := by
    intro chunks
    have same : (chunks.mapIdx fun index text =>
      62 + textBytes { text, heading := line.heading && index == 0 }) =
        chunks.map fun text => textBytes { text } + 62 := mapIdx_eq_map fun _ _ _ => Nat.add_comm _ _
    rw [map_mapIdx, same, sum_map_const_add, ← bytes, Nat.add_comm]
    exact Nat.add_le_add_left (List.sum_le_sum fun text _ => textBytes_le { text }) _
  unfold wrapLine
  dsimp only
  split
  · exact le_trans (parts [[]])
      (by simp only [List.length_singleton, List.flatten_singleton, List.filter_nil, List.length_nil]; omega)
  · have fewer := wraps.fewer line.text width positive
    have kept := (wraps.kept line.text width positive).length_le
    have expanded := wraps.expanded line.text width positive
    exact le_trans (parts _) (by omega)

theorem wrapLine_some (width : Nat) (line : Line) : 1 ≤ (wrapLine rt width line).length := by
  unfold wrapLine
  dsimp only
  rw [List.length_mapIdx]
  split
  · exact Nat.le_refl _
  · rename_i something
    exact List.length_pos_iff.mpr (by simpa using something)

theorem contentLines_some (value : Json) : ∀ line ∈ contentLines rt value, line.text ≠ [] := by
  intro line member
  cases value with
  | str value =>
    rw [contentLines] at member
    split at member
    · cases member
    · obtain ⟨text, inside, rfl⟩ := List.mem_map.mp member
      have shown := (List.mem_filter.mp inside).2
      rintro rfl
      cases shown
  | arr items =>
    obtain ⟨item, _, rfl⟩ := List.mem_map.mp member
    exact List.cons_ne_nil _ _
  | _ => cases member

end Wrapping

section Printed

variable (floats : FloatText) (isPrintable : Char → Bool)

theorem splitlinesFrom_length (current s : Str) :
    ((splitlinesFrom current s).map List.length).sum ≤ current.length + s.length := by
  fun_induction splitlinesFrom current s with
  | case1 current empty => exact Nat.zero_le _
  | case2 current nonempty => simp
  | case3 current rest ih =>
    simp only [List.map_cons, List.sum_cons, List.length_reverse, List.length_cons, List.length_nil] at ih ⊢
    omega
  | case4 current c rest _ separates ih =>
    simp only [List.map_cons, List.sum_cons, List.length_reverse, List.length_cons, List.length_nil] at ih ⊢
    omega
  | case5 current c rest _ inside ih =>
    simp only [List.length_cons] at ih ⊢
    omega

theorem reprChar_length (mark c : Char) : 1 ≤ (reprChar isPrintable mark c).length := by
  unfold reprChar
  repeat' split
  all_goals exact Nat.succ_le_of_lt (Nat.succ_pos _)

theorem reprStr_length (s : Str) : s.length + 2 ≤ (reprStr isPrintable s).length := by
  have inside : ∀ (mark : Char) (s : Str), s.length ≤ (s.flatMap (reprChar isPrintable mark)).length := by
    intro mark s
    induction s with
    | nil => exact Nat.le_refl _
    | cons c s ih =>
      have one := reprChar_length isPrintable mark c
      rw [List.flatMap_cons, List.length_append, List.length_cons]
      omega
  unfold Foundation.reprStr
  dsimp only
  rw [List.length_append, List.length_cons, List.length_singleton]
  have all := inside (if s.contains '\'' && !s.contains '"' then '"' else '\'') s
  omega

theorem toStr_length (value : Json) :
    (value.toStr floats isPrintable).length ≤ (value.repr floats isPrintable).length := by
  cases value with
  | str value => exact le_trans (Nat.le_add_right _ 2) (reprStr_length isPrintable value)
  | _ => exact Nat.le_refl _

variable {floats isPrintable} {rt : Runtime}

theorem contentLines_length (value : Json) : ((contentLines rt value).map fun line => line.text.length).sum ≤
    (value.repr rt.floats rt.isPrintable).length := by
  cases value with
  | str value =>
    have printed := reprStr_length rt.isPrintable value
    have split := splitlinesFrom_length [] value
    have shown : (((splitlines value).filter fun text => !(strip text).isEmpty).map List.length).sum ≤
        ((splitlines value).map List.length).sum :=
      ((List.filter_sublist).map List.length).sum_le_sum fun _ _ => Nat.zero_le _
    rw [contentLines]
    split
    · exact Nat.zero_le _
    · rw [List.map_map]
      exact le_trans shown (le_trans split (by
        rw [List.length_nil, Json.repr]
        omega))
  | arr items =>
    have all : ((contentLines rt (.arr items)).map fun line => line.text.length).sum ≤
        (items.map fun item => (item.repr rt.floats rt.isPrintable).length + 2).sum := by
      rw [contentLines, List.map_map]
      refine le_trans (((List.filter_sublist (l := items)).map _).sum_le_sum fun _ _ => Nat.zero_le _) ?_
      refine List.sum_le_sum fun item _ => ?_
      have one := toStr_length rt.floats rt.isPrintable item
      have dash : "- ".toList.length = 2 := rfl
      simp only [Function.comp_apply, List.length_append, dash, str]
      omega
    have joined := joinWith_length_ge ", ".toList (items.map (Json.repr rt.floats rt.isPrintable))
    have comma : ", ".toList.length = 2 := rfl
    rw [List.map_map, comma] at joined
    refine le_trans all ?_
    rw [Json.repr, Json.reprItems_eq, List.length_append, List.length_cons, List.length_singleton]
    exact joined
  | _ => exact Nat.zero_le _

theorem content_length_le (content : Dict) :
    ((content.flatMap fun field => contentLines rt field.2).map fun line => line.text.length).sum + 2 ≤
      ((Json.obj content).repr rt.floats rt.isPrintable).length := by
  have each : ((content.flatMap fun field => contentLines rt field.2).map fun line => line.text.length).sum ≤
      ((content.map fun field => reprStr rt.isPrintable field.1 ++ ": ".toList ++ field.2.repr rt.floats
        rt.isPrintable).map
        List.length).sum := by
    rw [sum_map_flatMap, List.map_map]
    refine List.sum_le_sum fun field _ => le_trans (contentLines_length field.2) ?_
    simp only [Function.comp_apply, List.length_append]
    omega
  rw [Json.repr, Json.reprFields_eq, List.length_append, List.length_cons, List.length_singleton,
    joinWith_length]
  omega

theorem blockLines_sum (wraps : WrapsOnce rt) {block : ResumeBlock} (titled : block.title ≠ []) {width : Nat}
    (positive : 0 < width) :
    ((blockLines rt block width).map fun line => 62 + textBytes line).sum ≤
      73 * (block.title.length + ((Json.obj block.content).repr rt.floats rt.isPrintable).length) := by
  have some_text : ∀ line ∈ unwrappedLines rt block, line.text ≠ [] := by
    intro line member
    rcases List.mem_cons.mp member with rfl | member
    · exact titled
    · obtain ⟨field, _, inside⟩ := List.mem_flatMap.mp member
      exact contentLines_some field.2 line inside
  have wrapped : ((unwrappedLines rt block).map fun line =>
        ((wrapLine rt width line).map fun part => 62 + textBytes part).sum).sum ≤
      ((unwrappedLines rt block).map fun line => 73 * line.text.length).sum :=
    List.sum_le_sum fun line member => wrapLine_sum wraps positive (some_text line member)
  have scaled : ∀ lines : List Line, (lines.map fun line => 73 * line.text.length).sum =
      73 * (lines.map fun line => line.text.length).sum := by
    intro lines
    induction lines with
    | nil => rfl
    | cons line lines ih => rw [List.map_cons, List.sum_cons, ih, List.map_cons, List.sum_cons, Nat.mul_add]
  have content := @content_length_le rt block.content
  have blank : textBytes { text := [] } = 0 := rfl
  have lengths : ((unwrappedLines rt block).map fun line => line.text.length).sum = block.title.length +
      ((block.content.flatMap fun field => contentLines rt field.2).map fun line =>
          line.text.length).sum := by
    rw [unwrappedLines, List.map_cons, List.sum_cons]
  rw [scaled, lengths] at wrapped
  rw [blockLines_unwrapped, List.map_append, List.sum_append, sum_map_flatMap, List.map_singleton,
    List.sum_singleton, blank]
  omega

variable {document : ResumeDocument}

theorem drawnBudget_le (wraps : WrapsOnce rt) (valid : document.Valid rt) :
    drawnBudget rt document ≤ 4200 + 73 * printedSize rt document := by
  have scaled : ∀ (blocks : List ResumeBlock) (size : ResumeBlock → Nat),
      (blocks.map fun block => 73 * size block).sum = 73 * (blocks.map size).sum := by
    intro blocks size
    induction blocks with
    | nil => rfl
    | cons block blocks ih => rw [List.map_cons, List.sum_cons, ih, List.map_cons, List.sum_cons, Nat.mul_add]
  rw [drawnBudget, linesWeight, printedSize, ← scaled]
  refine Nat.add_le_add_left (List.sum_le_sum fun block member => ?_) _
  refine blockLines_sum wraps ?_ (maxChars_pos document _)
  have check := valid.blocks block (List.mem_filter.mp member).1 (bounded 1 120 block.title "title".toList)
    (by simp [ResumeBlock.checks])
  simp only [bounded, decide_eq_true_eq] at check
  exact List.length_pos_iff.mp check.1

end Printed

end ManifestCV.Render
