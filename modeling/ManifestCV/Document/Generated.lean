import ManifestCV.Document.Markdown

namespace ManifestCV.Document

open Foundation

def isAllowed (rt : Runtime) (text : Str) : Bool := (validateText rt text).isOk

def sectionFits (rt : Runtime) (type : Str) (lines : List Str) : Bool :=
  decide (((Json.obj (sectionContent type lines)).repr rt.floats rt.isPrintable).length ≤ maxText) &&
    isAllowed rt (joinWith ['\n'] lines) &&
    (!bulletTypes.contains type || (decide (lines.length ≤ maxItems) && lines.all (isAllowed rt)))

def blockSection (rt : Runtime) (generated : Str) (block : ResumeBlock) : List Str :=
  sectionFor rt (readSections rt generated) block.title (blockType.text block.type)

def generatedFits (rt : Runtime) (generated : Str) (document : ResumeDocument) : Bool :=
  document.blocks.all fun block =>
    sectionFits rt (blockType.text block.type) (blockSection rt generated block)

theorem isAllowed_iff {rt : Runtime} {text : Str} :
    isAllowed rt text = true ↔ validateText rt text = .ok () := by
  unfold isAllowed
  cases validateText rt text with
  | error message => simp [Except.isOk, Except.toBool]
  | ok => simp [Except.isOk, Except.toBool]

theorem validateContent_text (rt : Runtime) (depth : Nat) (shallow : depth ≤ maxDepth) (text : Str) :
    validateContent rt depth (.str text) = validateText rt text := by
  rw [validateContent, if_neg (Nat.not_lt.mpr shallow)]

theorem validateContent_strings (rt : Runtime) (lines : List Str) :
    validateContent rt 1 (strings lines) = .ok () ↔
      lines.length ≤ maxItems ∧ ∀ line ∈ lines, validateText rt line = .ok () := by
  rw [strings, validateContent, if_neg (by decide), List.length_map]
  split
  · rename_i many
    constructor
    · intro same
      cases same
    · rintro ⟨few, _⟩
      exact absurd many (Nat.not_lt.mpr few)
  · rename_i few
    rw [validateItems_ok]
    simp only [List.mem_map, forall_exists_index, and_imp, forall_apply_eq_imp_iff₂, Nat.not_lt.mp few,
      true_and]
    constructor
    · intro each line member
      rw [← validateContent_text rt 2 (by decide)]
      exact each line member
    · intro each line member
      rw [validateContent_text rt 2 (by decide)]
      exact each line member

theorem contentIsBounded_section {rt : Runtime} {type : Str} {lines : List Str} :
    contentIsBounded rt (sectionContent type lines) = .ok () ↔ sectionFits rt type lines = true := by
  have fields : validateContent rt 0 (.obj (sectionContent type lines)) = .ok () ↔
      validateText rt (joinWith ['\n'] lines) = .ok () ∧
        (bulletTypes.contains type = true → lines.length ≤ maxItems ∧ ∀ line ∈ lines,
            validateText rt line = .ok ()) := by
    rw [validateContent, if_neg (by decide), if_neg (by simp [sectionContent, maxItems]), validateFields_ok,
      Nat.zero_add]
    simp only [sectionContent, List.forall_mem_cons, validateContent_text rt 1 (by decide),
      validateContent_strings]
    split
    · rename_i bulleted
      simp [List.contains_iff_mem.mp bulleted]
    · rename_i plain
      have absent : type ∉ bulletTypes := fun member => plain (List.contains_iff_mem.mpr member)
      simp [absent]
  unfold contentIsBounded sectionFits
  split
  · rename_i large
    simp [Nat.not_le.mpr large]
  · rename_i small
    rw [fields]
    simp only [Nat.not_lt.mp small, decide_true, Bool.true_and, Bool.and_eq_true, isAllowed_iff,
      Bool.or_eq_true, Bool.not_eq_true', decide_eq_true_eq, List.all_eq_true]
    cases bulletTypes.contains type with
    | false => simp
    | true => simp

def ResumeBlock.filled (rt : Runtime) (sections : Sections) (block : ResumeBlock) : ResumeBlock :=
  { block with
    content := sectionContent (blockType.text block.type)
      (sectionFor rt sections block.title (blockType.text block.type)) }

def ResumeDocument.filled (rt : Runtime) (generated : Str) (document : ResumeDocument) : ResumeDocument :=
  { document with blocks := document.blocks.map (·.filled rt (readSections rt generated)) }

section Fill

variable {rt : Runtime} {sections : Sections}

theorem sectionContent_wellKeyed (type : Str) (lines : List Str) :
    (Json.obj (sectionContent type lines)).WellKeyed := by
  have names : (["text".toList, "bullets".toList] : List Str).Nodup := by decide
  exact ⟨names, trivial, strings_wellKeyed _, trivial⟩

theorem fillBlock_wellKeyed {value filled : Json} (keyed : value.WellKeyed)
    (done : fillBlock rt sections value = some filled) :
    filled.WellKeyed := by
  cases value with
  | obj fields =>
    obtain ⟨⟨title, type⟩, _, rfl⟩ := Option.map_eq_some_iff.mp done
    exact dictInsert_wellKeyed keyed (sectionContent_wellKeyed _ _)
  | _ => cases done

theorem mapM_fill_wellKeyed {items filled : List Json} (keyed : ∀ item ∈ items, item.WellKeyed)
    (done : items.mapM (fillBlock rt sections) = some filled) : ∀ item ∈ filled, item.WellKeyed := by
  induction items generalizing filled with
  | nil =>
    cases done
    exact fun _ member => nomatch member
  | cons item items ih =>
    rw [List.mapM_cons] at done
    obtain ⟨first, head, done⟩ := Option.bind_eq_some_iff.mp done
    obtain ⟨rest, tail, same⟩ := Option.bind_eq_some_iff.mp done
    cases same
    have firstKeyed := fillBlock_wellKeyed (keyed item List.mem_cons_self) head
    exact List.forall_mem_cons.mpr
      ⟨firstKeyed, ih (fun item member => keyed item (List.mem_cons_of_mem _ member)) tail⟩

theorem fillBlock_parsed {value : Json} {block : ResumeBlock} (parsed : validateBlock rt value = .ok block) :
    ∃ fields, value = .obj fields ∧ fillBlock rt sections value =
      some (.obj (dictInsert fields "content".toList
      (.obj (sectionContent (blockType.text block.type)
        (sectionFor rt sections block.title (blockType.text block.type)))))) := by
  unfold validateBlock at parsed
  obtain ⟨fields, known, parsed⟩ := bind_ok.mp parsed
  obtain ⟨id, _, parsed⟩ := bind_ok.mp parsed
  obtain ⟨type, hType, parsed⟩ := bind_ok.mp parsed
  obtain ⟨title, hTitle, parsed⟩ := bind_ok.mp parsed
  obtain ⟨visible, _, parsed⟩ := bind_ok.mp parsed
  obtain ⟨content, _, parsed⟩ := bind_ok.mp parsed
  obtain ⟨style, _, parsed⟩ := bind_ok.mp parsed
  obtain ⟨sourceIds, _, parsed⟩ := bind_ok.mp parsed
  obtain ⟨_, rfl⟩ := passing_ok.mp parsed
  have titleText : fields.lookup "title".toList = some (.str title) := by
    obtain ⟨value, found, ok⟩ := required_ok.mp hTitle
    rw [found, asStr_ok.mp ok]
  have typeText : fields.lookup "type".toList = some (.str (blockType.text type)) := by
    obtain ⟨value, found, ok⟩ := required_ok.mp hType
    rw [found]
    cases value with
    | str text =>
      simp only [asChoice] at ok
      split at ok
      · rename_i a chosen
        cases ok
        have same := List.find?_some chosen
        rw [of_decide_eq_true same]
      · cases ok
    | _ => cases ok
  have object := (modelFields_ok.mp known).1
  subst object
  exact ⟨fields, rfl, by simp only [fillBlock, titleAndType, titleText, typeText, Option.map_some]⟩

theorem fillBlock_accepted {value : Json} {block : ResumeBlock} (keyed : value.WellKeyed)
    (parsed : validateBlock rt value = .ok block)
    (fits : sectionFits rt (blockType.text block.type)
      (sectionFor rt sections block.title (blockType.text block.type)) = true) :
    ∃ filled, fillBlock rt sections value = some filled ∧ filled.WellKeyed ∧
      validateBlock rt filled = .ok (block.filled rt sections) := by
  obtain ⟨others, sameFields, done⟩ := @fillBlock_parsed rt sections _ _ parsed
  unfold validateBlock at parsed
  obtain ⟨fields, known, parsed⟩ := bind_ok.mp parsed
  have inner := modelFields_wellKeyed known keyed
  have inside := (modelFields_ok.mp known).2
  have object := (modelFields_ok.mp known).1
  obtain ⟨id, hId, parsed⟩ := bind_ok.mp parsed
  obtain ⟨type, hType, parsed⟩ := bind_ok.mp parsed
  obtain ⟨title, hTitle, parsed⟩ := bind_ok.mp parsed
  obtain ⟨visible, hVisible, parsed⟩ := bind_ok.mp parsed
  obtain ⟨content, hContent, parsed⟩ := bind_ok.mp parsed
  obtain ⟨style, hStyle, parsed⟩ := bind_ok.mp parsed
  obtain ⟨sourceIds, hSources, parsed⟩ := bind_ok.mp parsed
  obtain ⟨passes, rfl⟩ := passing_ok.mp parsed
  let filled := dictInsert fields "content".toList
    (.obj (sectionContent (blockType.text type) (sectionFor rt sections title (blockType.text type))))
  have other : ∀ name : Str, name ≠ "content".toList → filled.lookup name = fields.lookup name := by
    intro name apart
    rw [lookup_dictInsert, if_neg apart]
  have found : filled.lookup "content".toList =
      some (.obj (sectionContent (blockType.text type)
          (sectionFor rt sections title (blockType.text type)))) := by
    rw [lookup_dictInsert, if_pos rfl]
  subst object
  have same := Json.obj.inj sameFields
  subst same
  refine ⟨.obj filled, done, dictInsert_wellKeyed inner (sectionContent_wellKeyed _ _), ?_⟩
  · unfold validateBlock
    refine bind_ok.mpr ⟨filled, modelFields_ok.mpr ⟨rfl, ?_⟩, ?_⟩
    · intro field member
      rcases mem_dictInsert member with rfl | old
      · show "content".toList ∈ blockFields
        decide
      · exact inside field old
    refine bind_ok.mpr ⟨id, by rw [required, other _ (by decide)]; exact hId, ?_⟩
    refine bind_ok.mpr ⟨type, by rw [required, other _ (by decide)]; exact hType, ?_⟩
    refine bind_ok.mpr ⟨title, by rw [required, other _ (by decide)]; exact hTitle, ?_⟩
    refine bind_ok.mpr ⟨visible, by rw [optional, other _ (by decide)]; exact hVisible, ?_⟩
    refine bind_ok.mpr ⟨sectionContent (blockType.text type)
      (sectionFor rt sections title (blockType.text type)), optional_ok.mpr (.inl ⟨_, found, rfl⟩), ?_⟩
    refine bind_ok.mpr ⟨style, by rw [optional, other _ (by decide)]; exact hStyle, ?_⟩
    refine bind_ok.mpr ⟨sourceIds, by rw [optional, other _ (by decide)]; exact hSources, ?_⟩
    refine passing_ok.mpr ⟨?_, rfl⟩
    simp only [Passes, ResumeBlock.checks, List.forall_mem_cons, valueCheck_passes] at passes ⊢
    obtain ⟨okId, pattern, okTitle, sources, _, okStyle, last⟩ := passes
    exact ⟨okId, pattern, okTitle, sources, contentIsBounded_section.mpr fits, okStyle, last⟩

theorem fillBlocks_accepted {items : List Json} {blocks : List ResumeBlock}
    (keyed : ∀ item ∈ items, item.WellKeyed) (parsed : traverse (validateBlock rt) items = .ok blocks)
    (fits : ∀ block ∈ blocks, sectionFits rt (blockType.text block.type)
      (sectionFor rt sections block.title (blockType.text block.type)) = true) :
    ∃ filled, items.mapM (fillBlock rt sections) = some filled ∧ (∀ item ∈ filled, item.WellKeyed) ∧
      traverse (validateBlock rt) filled = .ok (blocks.map (·.filled rt sections)) := by
  rw [traverse_ok] at parsed
  induction parsed with
  | nil => exact ⟨[], rfl, fun _ member => absurd member List.not_mem_nil, rfl⟩
  | cons head _ ih =>
    obtain ⟨first, done, firstKeyed, accepted⟩ :=
      fillBlock_accepted (keyed _ List.mem_cons_self) head (fits _ List.mem_cons_self)
    obtain ⟨rest, others, restKeyed, acceptedRest⟩ :=
      ih (fun item member => keyed item (List.mem_cons_of_mem _ member))
      (fun block member => fits block (List.mem_cons_of_mem _ member))
    refine ⟨first :: rest, ?_, ?_, ?_⟩
    · rw [List.mapM_cons, done, others]
      rfl
    · exact List.forall_mem_cons.mpr ⟨firstKeyed, restKeyed⟩
    · rw [traverse_ok] at acceptedRest ⊢
      exact .cons accepted acceptedRest

end Fill

theorem structuredDocument_wellKeyed {rt : Runtime} {generated : Str} {payload written : Json}
    (keyed : payload.WellKeyed) (done : structuredDocument rt generated payload = some written) :
    written.WellKeyed := by
  cases payload with
  | obj fields =>
    simp only [structuredDocument] at done
    split at done
    · rename_i existing found
      obtain ⟨blocks, filled, rfl⟩ := Option.map_eq_some_iff.mp done
      have items : ∀ item ∈ existing, item.WellKeyed := by
        have inside := lookup_wellKeyed keyed found
        simpa only [Json.WellKeyed, Json.wellKeyedItems_iff] using inside
      refine dictInsert_wellKeyed keyed ?_
      simpa only [Json.WellKeyed, Json.wellKeyedItems_iff] using mapM_fill_wellKeyed items filled
    · cases done
  | _ => cases done

theorem ResumeDocument.filled_checks {rt : Runtime} {generated : Str} {document : ResumeDocument}
    (passes : Passes document.checks) : Passes (document.filled rt generated).checks := by
  have ids : (document.filled rt generated).blockIds = document.blockIds := by
    simp only [ResumeDocument.blockIds, ResumeDocument.filled, List.map_map]
    rfl
  have references : (document.filled rt generated).references = document.references := rfl
  have pages : (document.filled rt generated).pages = document.pages := rfl
  have blocks : (document.filled rt generated).blocks.length = document.blocks.length := List.length_map _
  simpa [Passes, ResumeDocument.checks, counted, ids, references, pages, blocks] using passes

/-- A document whose blocks the generated text fits is still a document the schema accepts once they
    have been filled with it. -/
theorem structuredDocument_accepted {rt : Runtime} {generated : Str} {payload : Json}
    {document : ResumeDocument} (keyed : payload.WellKeyed)
    (accepted : validateDocument rt payload = .ok document)
    (fits : generatedFits rt generated document = true) :
    ∃ written, structuredDocument rt generated payload = some written ∧ written.WellKeyed ∧
      validateDocument rt written = .ok (document.filled rt generated) := by
  unfold validateDocument at accepted
  obtain ⟨fields, known, accepted⟩ := bind_ok.mp accepted
  have inner := modelFields_wellKeyed known keyed
  have inside := (modelFields_ok.mp known).2
  have object := (modelFields_ok.mp known).1
  obtain ⟨version, hVersion, accepted⟩ := bind_ok.mp accepted
  obtain ⟨paper, hPaper, accepted⟩ := bind_ok.mp accepted
  obtain ⟨pages, hPages, accepted⟩ := bind_ok.mp accepted
  obtain ⟨blocks, hBlocks, accepted⟩ := bind_ok.mp accepted
  obtain ⟨style, hStyle, accepted⟩ := bind_ok.mp accepted
  obtain ⟨passes, rfl⟩ := passing_ok.mp accepted
  obtain ⟨value, found, parsed⟩ := required_ok.mp hBlocks
  subst object
  cases value with
  | arr items =>
    have itemsKeyed : ∀ item ∈ items, item.WellKeyed := by
      have keyed := lookup_wellKeyed inner found
      simpa only [Json.WellKeyed, Json.wellKeyedItems_iff] using keyed
    obtain ⟨filled, done, filledKeyed, parsed⟩ := fillBlocks_accepted itemsKeyed
      parsed (List.all_eq_true.mp fits)
    have filledArr : (Json.arr filled).WellKeyed := by
      simpa only [Json.WellKeyed, Json.wellKeyedItems_iff] using filledKeyed
    have other : ∀ name : Str, name ≠ "blocks".toList →
        (dictInsert fields "blocks".toList (.arr filled)).lookup name = fields.lookup name := by
      intro name apart
      rw [lookup_dictInsert, if_neg apart]
    refine ⟨.obj (dictInsert fields "blocks".toList (.arr filled)), ?_, dictInsert_wellKeyed inner filledArr,
      ?_⟩
    · simp only [structuredDocument, found, markdownToBlocks, done, Option.map_some]
    · unfold validateDocument
      refine bind_ok.mpr ⟨_, modelFields_ok.mpr ⟨rfl, ?_⟩, ?_⟩
      · intro field member
        rcases mem_dictInsert member with rfl | old
        · show "blocks".toList ∈ documentFields
          decide
        · exact inside field old
      refine bind_ok.mpr ⟨version, by rw [optional, other _ (by decide)]; exact hVersion, ?_⟩
      refine bind_ok.mpr ⟨paper, by rw [optional, other _ (by decide)]; exact hPaper, ?_⟩
      refine bind_ok.mpr ⟨pages, by rw [required, other _ (by decide)]; exact hPages, ?_⟩
      refine bind_ok.mpr ⟨_, required_ok.mpr ⟨.arr filled, by rw [lookup_dictInsert, if_pos rfl], parsed⟩, ?_⟩
      refine bind_ok.mpr ⟨style, by rw [optional, other _ (by decide)]; exact hStyle, ?_⟩
      exact passing_ok.mpr ⟨ResumeDocument.filled_checks passes, rfl⟩
  | _ => cases parsed

end ManifestCV.Document
