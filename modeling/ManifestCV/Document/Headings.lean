import ManifestCV.Document.Coverage
import ManifestCV.Document.Stability

namespace ManifestCV.Document

open Foundation

def spans : List Str → List Str × List (Str × List Str)
  | [] => ([], [])
  | line :: lines =>
    match headingText (strip line) with
    | some heading => ([], (heading, (spans lines).1) :: (spans lines).2)
    | none => if isBlank line then spans lines else (line :: (spans lines).1, (spans lines).2)

def preamble (markdown : Str) : List Str := (spans (splitlines markdown)).1

def headed (markdown : Str) : List (Str × List Str) := (spans (splitlines markdown)).2

def nameOf (rt : Runtime) (heading : Str) : Str := rt.lower (strip heading)

def titleName (rt : Runtime) (title : Str) : Str := strip (rt.lower title)

/-- The section names in the order they appear, the built-in one first. -/
def sectionNames (rt : Runtime) (markdown : Str) : List Str :=
  "summary".toList :: (headed markdown).map fun span => nameOf rt span.1

def linesUnder (rt : Runtime) (markdown name : Str) : List Str :=
  ((markdownLines rt markdown).filter (·.1 = name)).map (textOf ·.2)

/-- The first name that matches the block is the heading's own, with nothing before the first heading if that
    is "summary", or it is another name with the same lines under it. -/
def ExactWins (rt : Runtime) (markdown title type : Str) (own : List Str) : Prop :=
  ∃ first, (sectionNames rt markdown).find? (matchesName rt title type) = some first ∧
    if first = titleName rt title then first = "summary".toList → preamble markdown = []
    else linesUnder rt markdown first = own.map textOf

section Names

variable {rt : Runtime}

theorem occursIn_iff {needle hay : Str} : occursIn needle hay = true ↔ needle <:+: hay := by
  rw [occursIn, List.any_eq_true]
  constructor
  · rintro ⟨tail, isTail, isPrefix⟩
    exact (List.isPrefixOf_iff_prefix.mp isPrefix).isInfix.trans ((List.mem_tails tail hay).mp isTail).isInfix
  · rintro ⟨before, after, rfl⟩
    refine ⟨needle ++ after, (List.mem_tails _ _).mpr ⟨before, by simp⟩, ?_⟩
    exact List.isPrefixOf_iff_prefix.mpr (List.prefix_append needle after)

theorem matchesName_title (title type : Str) : matchesName rt title type (titleName rt title) = true := by
  refine List.any_eq_true.mpr ⟨rt.lower title, List.mem_cons_self, ?_⟩
  rw [Bool.or_eq_true]
  exact .inr (occursIn_iff.mpr (strip_inside _))

theorem taggedLines_spans (current : Str) (lines : List Str) :
    taggedLines rt current lines = (spans lines).1.map (current, ·) ++
      (spans lines).2.flatMap fun span => span.2.map (nameOf rt span.1, ·) := by
  induction lines generalizing current with
  | nil => rfl
  | cons line lines ih =>
    rw [taggedLines, spans]
    cases headingText (strip line) with
    | some heading =>
      dsimp only
      rw [ih]
      rfl
    | none =>
      dsimp only
      rw [strip_isEmpty, ih]
      split <;> rfl

theorem find_known {p : Str → Bool} {names : List Str} {name : Str} (known : name ∈ names) (rest : List Str) :
    (names ++ name :: rest).find? p = (names ++ rest).find? p := by
  rw [List.find?_append, List.find?_append]
  cases found : names.find? p with
  | some first => rfl
  | none =>
    have unlike := List.find?_eq_none.mp found name known
    rw [Option.none_or, Option.none_or, List.find?_cons_of_neg unlike]

theorem addLines_find {p : Str → Bool} (sections : Sections) (name : Str) (lines : List Str)
    (rest : List Str) :
    ((addLines sections name lines).map Prod.fst ++ rest).find? p =
    (sections.map Prod.fst ++ name :: rest).find? p := by
  rw [addLines_names]
  split
  · rename_i known
    exact (find_known known rest).symm
  · rw [List.append_assoc]
    rfl

theorem foldl_find {p : Str → Bool} {current : Str} {sections : Sections}
    (known : current ∈ sections.map Prod.fst) (lines : List Str) :
    ((lines.foldl (readLine rt) (current, sections)).2.map Prod.fst).find? p =
      (sections.map Prod.fst ++ (spans lines).2.map fun span => nameOf rt span.1).find? p := by
  induction lines generalizing current sections with
  | nil => rw [List.foldl_nil, spans, List.map_nil, List.append_nil]
  | cons line lines ih =>
    rw [List.foldl_cons, readLine_eq, spans]
    cases headingText (strip line) with
    | some heading =>
      dsimp only
      have here : rt.lower (strip heading) ∈ (addLines sections (rt.lower (strip heading)) []).map
          Prod.fst := by
        rw [addLines_names]
        split
        · assumption
        · exact List.mem_append_right _ (List.mem_singleton_self _)
      rw [ih here, addLines_find]
      rfl
    | none =>
      dsimp only
      rw [strip_isEmpty]
      split
      · exact ih known
      · have still : current ∈ (addLines sections current [lstripChars "-* ".toList (strip line)]).map
            Prod.fst := by
          rw [addLines_names, if_pos known]
          exact known
        rw [ih still, addLines_find, find_known known]

theorem readSections_find {p : Str → Bool} (markdown : Str) :
    ((readSections rt markdown).map Prod.fst).find? p = (sectionNames rt markdown).find? p :=
  foldl_find (List.mem_singleton_self _) _

end Names

section Lines

variable {rt : Runtime} {markdown title type : Str}

theorem sectionFor_first {first : Str}
    (found : (sectionNames rt markdown).find? (matchesName rt title type) = some first) :
    sectionFor rt (readSections rt markdown) title type = linesUnder rt markdown first := by
  rw [← readSections_find, List.find?_map, Option.map_eq_some_iff] at found
  obtain ⟨item, picked, rfl⟩ := found
  have same : pickedSection rt (readSections rt markdown) title type = some item := picked
  rw [sectionFor_picked, same]
  exact readSections_lines (pickedSection_matches same).1

theorem tagged_filter (current name : Str) (lines : List Str) :
    (lines.map (current, ·)).filter (fun tagged => tagged.1 = name) = if current = name then lines.map
    (name, ·) else [] := by
  rw [List.filter_map]
  by_cases same : current = name <;> simp [Function.comp_def, same]

theorem headed_filter (rt : Runtime) (name : Str) (parts : List (Str × List Str)) :
    (parts.flatMap fun span => span.2.map (nameOf rt span.1, ·)).filter (fun tagged => tagged.1 = name) =
      (parts.filter fun span => nameOf rt span.1 = name).flatMap fun span => span.2.map (name, ·) := by
  induction parts with
  | nil => rfl
  | cons part parts ih =>
    rw [List.flatMap_cons, List.filter_append, ih, tagged_filter, List.filter_cons]
    by_cases same : nameOf rt part.1 = name <;> simp [same]

/-- Under the name of a heading that stands alone: its own lines, and for "summary" those before the first
    heading too. -/
theorem linesUnder_exact {span : Str × List Str}
    (exact : (headed markdown).filter (fun span => nameOf rt span.1 = titleName rt title) = [span]) :
    linesUnder rt markdown (titleName rt title) =
      ((if "summary".toList = titleName rt title then preamble markdown else []) ++ span.2).map textOf := by
  have before : (preamble markdown).map ("summary".toList, ·) = (spans (splitlines markdown)).1.map
    ("summary".toList, ·) := rfl
  rw [linesUnder, markdownLines, taggedLines_spans, List.filter_append, ← before, tagged_filter,
    headed_filter, ← headed, exact]
  split <;> simp [Function.comp_def]

theorem exact_named {span : Str × List Str}
    (exact : (headed markdown).filter (fun span => nameOf rt span.1 = titleName rt title) = [span]) :
    titleName rt title ∈ sectionNames rt markdown := by
  have inside : span ∈ (headed markdown).filter fun span => nameOf rt span.1 = titleName rt title := by
    rw [exact]
    exact List.mem_singleton_self span
  obtain ⟨member, named⟩ := List.mem_filter.mp inside
  exact List.mem_cons_of_mem _ (List.mem_map.mpr ⟨span, member, of_decide_eq_true named⟩)

theorem exact_wins_lines {span : Str × List Str}
    (exact : (headed markdown).filter (fun span => nameOf rt span.1 = titleName rt title) = [span]) :
    sectionFor rt (readSections rt markdown) title type = span.2.map textOf ↔
        ExactWins rt markdown title type span.2 := by
  have some : ∃ first, (sectionNames rt markdown).find? (matchesName rt title type) = some first := by
    rw [← Option.isSome_iff_exists, List.find?_isSome]
    exact ⟨_, exact_named exact, matchesName_title title type⟩
  obtain ⟨first, found⟩ := some
  rw [ExactWins, sectionFor_first found, found]
  simp only [Option.some.injEq, exists_eq_left']
  split
  · rename_i same
    rw [same, linesUnder_exact exact]
    by_cases builtIn : titleName rt title = "summary".toList
    · rw [if_pos builtIn.symm, List.map_append, List.append_left_eq_self, List.map_eq_nil_iff]
      exact ⟨fun nothing _ => nothing, fun nothing => nothing builtIn⟩
    · rw [if_neg (Ne.symm builtIn), List.nil_append]
      exact ⟨fun _ named => absurd named builtIn, fun _ => rfl⟩
  · exact Iff.rfl

end Lines

/-- A block whose title is one heading of the text gets that heading's lines exactly when the heading's name
    is the first that matches, or another one holds the same lines. -/
theorem exact_heading_iff (rt : Runtime) (markdown : Str) (existing result : List Json)
    (i : Nat) (fields : Dict) (title type : Str) (span : Str × List Str)
    (done : markdownToBlocks rt markdown existing = some result) (block : existing[i]? = some (.obj fields))
    (titled : titleAndType fields = some (title, type))
    (exact : (headed markdown).filter (fun span => nameOf rt span.1 = titleName rt title) = [span]) :
    ∃ lines, result[i]? =
      some (.obj (dictInsert fields "content".toList (.obj (sectionContent type lines)))) ∧
      (lines = span.2.map textOf ↔ ExactWins rt markdown title type span.2) := by
  refine ⟨_, ?_, exact_wins_lines exact⟩
  obtain ⟨inside, same⟩ := List.getElem?_eq_some_iff.mp block
  have steps := mapM_forall done
  have there : i < result.length := steps.length_eq ▸ inside
  have filled := steps.get inside there
  rw [List.get_eq_getElem, same, fillBlock, titled, Option.map_some, Option.some_inj] at filled
  rw [List.getElem?_eq_getElem there]
  exact congrArg some filled.symm

def titledBlock (type title : Str) : Dict := [
  ("id".toList, .str "first".toList), ("type".toList, .str type), ("title".toList, .str title),
    ("content".toList, .obj [])]

theorem exact_heading_iff_skills : ∃ result,
    markdownToBlocks plainRuntime "# Skills\n- Go".toList
      [.obj (titledBlock "skills".toList "Skills".toList)] = some result ∧
      ∃ lines, result[0]? =
        some (.obj (dictInsert (titledBlock "skills".toList "Skills".toList) "content".toList
          (.obj (sectionContent "skills".toList lines)))) ∧
        (lines = ["- Go".toList].map textOf ↔
          ExactWins plainRuntime "# Skills\n- Go".toList "Skills".toList "skills".toList ["- Go".toList]) :=
  ⟨_, rfl, exact_heading_iff plainRuntime _ [.obj (titledBlock "skills".toList "Skills".toList)] _ 0 _ _ _
    ("Skills".toList, ["- Go".toList]) rfl rfl
    rfl (by decide)⟩

/-- The built-in section hides a heading with a longer name, and its text is added to a heading of its own
    name. -/
theorem exact_heading_hidden :
    ((headed "# Professional Summary\nWeaver".toList).filter fun span =>
        nameOf plainRuntime span.1 = titleName plainRuntime "Professional Summary".toList) =
      [("Professional Summary".toList, ["Weaver".toList])] ∧
    (∃ block, markdownToBlocks plainRuntime "# Professional Summary\nWeaver".toList
        [.obj (titledBlock "custom_text".toList "Professional Summary".toList)] = some [block] ∧
          contentText block = some []) ∧
    ((headed "Ada\n# Summary\nWeaver".toList).filter fun span =>
      nameOf plainRuntime span.1 = titleName plainRuntime "Summary".toList) =
      [("Summary".toList, ["Weaver".toList])] ∧
    ∃ block, markdownToBlocks plainRuntime "Ada\n# Summary\nWeaver".toList
        [.obj (titledBlock "summary".toList "Summary".toList)] = some [block] ∧ contentText block =
            some "Ada\nWeaver".toList :=
  ⟨by decide, ⟨_, rfl, by decide⟩, by decide, _, rfl, by decide⟩

end ManifestCV.Document
