import ManifestCV.Document.Dump
import ManifestCV.Foundation.JsonRoundTrip

namespace ManifestCV.Document

open Foundation

def styleOrder (a b : Str × Str) : Prop := a.1 ≤ b.1

instance : DecidableRel styleOrder := fun a b => inferInstanceAs (Decidable (a.1 ≤ b.1))

def ResumeBlock.canonical (block : ResumeBlock) : ResumeBlock :=
  { block with
    content := sortKeys (Json.normalizeFields block.content)
    style := block.style.insertionSort styleOrder }

def ResumeDocument.sorted (document : ResumeDocument) : ResumeDocument :=
  { document with blocks := document.blocks.map (·.canonical) }

def ResumeDocument.canonical (document : ResumeDocument) : ResumeDocument := document.reloaded.sorted

def ResumeBlock.WellKeyed (block : ResumeBlock) : Prop :=
  (Json.obj block.content).WellKeyed ∧ (block.style.map Prod.fst).Nodup

/-- Sorting the keys below a value turns its parse `a` into `f a`. -/
def Sorts {α : Type} (parse : Str → Json → Checked α) (f : α → α) : Prop :=
  ∀ name value a, value.WellKeyed → parse name value = .ok a → parse name value.normalize = .ok (f a)

theorem lookup_wellKeyed {fields : Dict} {name : Str} {value : Json} (keyed : (Json.obj fields).WellKeyed)
    (found : fields.lookup name = some value) : value.WellKeyed := by
  simp only [Json.WellKeyed, Json.wellKeyedFields_iff] at keyed
  exact keyed.2 _ (lookup_mem found)

section Fields

variable {α : Type} {fields : Dict} {name : Str} {parse : Str → Json → Checked α} {f : α → α} {a default : α}

theorem required_sorted (keyed : (Json.obj fields).WellKeyed) (sorts : Sorts parse f)
    (parsed : required fields name parse = .ok a) :
    required (sortKeys (Json.normalizeFields fields)) name parse = .ok (f a) := by
  obtain ⟨value, found, ok⟩ := required_ok.mp parsed
  have distinct : (fields.map Prod.fst).Nodup := by
    simp only [Json.WellKeyed] at keyed
    exact keyed.1
  refine required_ok.mpr ⟨value.normalize, ?_, sorts name value a (lookup_wellKeyed keyed found) ok⟩
  rw [Json.lookup_normalize distinct, found, Option.map_some]

theorem optional_sorted (keyed : (Json.obj fields).WellKeyed) (sorts : Sorts parse f)
    (fixed : f default = default) (parsed : optional fields name default parse = .ok a) :
    optional (sortKeys (Json.normalizeFields fields)) name default parse = .ok (f a) := by
  have distinct : (fields.map Prod.fst).Nodup := by
    simp only [Json.WellKeyed] at keyed
    exact keyed.1
  refine optional_ok.mpr ?_
  rcases optional_ok.mp parsed with ⟨value, found, ok⟩ | ⟨absent, rfl⟩
  · left
    refine ⟨value.normalize, ?_, sorts name value a (lookup_wellKeyed keyed found) ok⟩
    rw [Json.lookup_normalize distinct, found, Option.map_some]
  · right
    exact ⟨by rw [Json.lookup_normalize distinct, absent, Option.map_none], fixed⟩

end Fields

theorem modelFields_sorted {known : List Str} {value : Json} {fields : Dict}
    (parsed : modelFields known value = .ok fields) :
    modelFields known value.normalize = .ok (sortKeys (Json.normalizeFields fields)) := by
  obtain ⟨rfl, inside⟩ := modelFields_ok.mp parsed
  refine modelFields_ok.mpr ⟨by rw [Json.normalize], ?_⟩
  intro field member
  rw [mem_sortKeys, Json.normalizeFields_eq] at member
  obtain ⟨original, own, rfl⟩ := List.mem_map.mp member
  exact inside original own

theorem modelFields_wellKeyed {known : List Str} {value : Json} {fields : Dict}
    (parsed : modelFields known value = .ok fields) (keyed : value.WellKeyed) :
    (Json.obj fields).WellKeyed := by
  rw [(modelFields_ok.mp parsed).1] at keyed
  exact keyed

theorem asStr_sorts : Sorts asStr id := by
  intro name value text _ parsed
  rw [asStr_ok] at parsed
  subst value
  rfl

theorem asFloat_sorts (rt : Runtime) : Sorts (asFloat rt) id := by
  intro name value x _ parsed
  unfold asFloat at parsed ⊢
  cases lax : rt.laxFloat value with
  | none => rw [lax] at parsed; cases parsed
  | some y =>
    rw [lax] at parsed
    rw [Json.normalize_scalar (rt.laxFloat_scalar _ _ lax), lax]
    exact parsed

theorem asNumber_sorts (rt : Runtime) : Sorts (asNumber rt) id := by
  intro name value x keyed parsed
  unfold asNumber at parsed ⊢
  cases float : asFloat rt name value with
  | error rejection => rw [float] at parsed; cases parsed
  | ok y =>
    rw [asFloat_sorts rt name value y keyed float]
    rw [float] at parsed
    exact parsed

theorem asBool_sorts (rt : Runtime) : Sorts (asBool rt) id := by
  intro name value b _ parsed
  unfold asBool at parsed ⊢
  cases lax : rt.laxBool value with
  | none => rw [lax] at parsed; cases parsed
  | some c =>
    rw [lax] at parsed
    rw [Json.normalize_scalar (rt.laxBool_scalar _ _ lax), lax]
    exact parsed

theorem asChoice_sorts {α : Type} (choices : Choices α) : Sorts (asChoice choices) id := by
  intro name value a _ parsed
  cases value with
  | str text => exact parsed
  | _ => cases parsed

theorem asOne_sorts : Sorts asOne id := by
  intro name value a _ parsed
  cases value with
  | int n => exact parsed
  | _ => cases parsed

theorem asDict_sorts : Sorts asDict fun content => sortKeys (Json.normalizeFields content) := by
  intro name value content _ parsed
  cases value with
  | obj fields => cases parsed; rfl
  | _ => cases parsed

theorem asList_sorts {α : Type} {parse : Str → Json → Checked α} {f : α → α} (sorts : Sorts parse f) :
    Sorts (fun name => asList name (parse name)) (List.map f) := by
  intro name value items keyed parsed
  cases value with
  | arr values =>
    simp only [Json.WellKeyed, Json.wellKeyedItems_iff] at keyed
    simp only [asList, Json.normalize, Json.normalizeItems_eq] at parsed ⊢
    exact traverse_image (fun item member a ok => sorts name item a (keyed item member) ok) parsed
  | _ => cases parsed

theorem list_strings_sorts : Sorts (fun name => asList name (asStr name)) id := by
  intro name value items keyed parsed
  simpa using asList_sorts asStr_sorts name value items keyed parsed

theorem traverse_strDict {name : Str} {fields : Dict} {style : List (Str × Str)} :
    traverse (asStrField name) fields = .ok style ↔ fields = style.map fun item =>
      (item.1, Json.str item.2) := by
  rw [traverse_ok]
  constructor
  · intro related
    induction related with
    | nil => rfl
    | @cons field item _ _ head _ ih =>
      unfold asStrField at head
      cases parsed : asStr name field.2 with
      | error e => simp only [parsed] at head; cases head
      | ok value =>
        simp only [parsed] at head
        cases head
        rw [List.map_cons, ← ih, ← asStr_ok.mp parsed]
  · rintro rfl
    rw [List.forall₂_map_left_iff, List.forall₂_same]
    exact fun _ _ => rfl

theorem sortKeys_map_str (style : List (Str × Str)) :
    sortKeys (Json.normalizeFields (style.map fun item => (item.1, Json.str item.2))) =
      (style.insertionSort styleOrder).map fun item => (item.1, Json.str item.2) := by
  rw [Json.normalizeFields_eq, List.map_map, sortKeys]
  exact (List.map_insertionSort styleOrder keyOrder _ style fun _ _ _ _ => Iff.rfl).symm

theorem asStrDict_sorts : Sorts asStrDict fun style => style.insertionSort styleOrder := by
  intro name value style _ parsed
  cases value with
  | obj fields =>
    simp only [asStrDict, Json.normalize] at parsed ⊢
    rw [traverse_strDict] at parsed ⊢
    rw [parsed, sortKeys_map_str]
  | _ => cases parsed

theorem contentIsBounded_sorted {rt : Runtime} {content : Dict}
    (accepted : contentIsBounded rt content = .ok ()) :
    contentIsBounded rt (sortKeys (Json.normalizeFields content)) = .ok () := by
  have same := Json.length_repr_normalize rt.floats rt.isPrintable (.obj content)
  unfold contentIsBounded at accepted ⊢
  rw [Json.normalize] at same
  rw [same]
  split at accepted
  · cases accepted
  · rename_i small
    rw [if_neg small]
    exact validateContent_normalize rt (.obj content) 0 accepted

theorem styleIsSafe_sorted {rt : Runtime} {style : List (Str × Str)}
    (accepted : styleIsSafe rt style = .ok ()) :
    styleIsSafe rt (style.insertionSort styleOrder) = .ok () := by
  have perm : (style.insertionSort styleOrder).Perm style := List.perm_insertionSort _ _
  unfold styleIsSafe at accepted ⊢
  cases content : validateContent rt 0 (.obj (style.map fun item => (item.1, .str item.2))) with
  | error message => simp only [content] at accepted; cases accepted
  | ok =>
    have sorted := validateContent_normalize rt _ 0 content
    rw [Json.normalize, sortKeys_map_str] at sorted
    simp only [content] at accepted
    simp only [sorted, perm.any_eq]
    exact accepted

theorem valueCheck_passes {result : Except Str Unit} : (valueCheck result).1 = true ↔ result = .ok () := by
  cases result with
  | error message => simp [valueCheck]
  | ok => simp [valueCheck]

theorem ResumeBlock.canonical_checks {rt : Runtime} {block : ResumeBlock}
    (passes : Passes (block.checks rt)) :
    Passes (block.canonical.checks rt) := by
  simp only [Passes, ResumeBlock.checks, List.forall_mem_cons, valueCheck_passes] at passes ⊢
  obtain ⟨id, pattern, title, sources, content, style, _⟩ := passes
  exact ⟨id, pattern, title, sources, contentIsBounded_sorted content, styleIsSafe_sorted style, by simp⟩

theorem validateBlock_sorts {rt : Runtime} : Sorts (fun _ => validateBlock rt) (·.canonical) := by
  intro _ value block keyed parsed
  unfold validateBlock at parsed ⊢
  obtain ⟨fields, known, parsed⟩ := bind_ok.mp parsed
  have keyed := modelFields_wellKeyed known keyed
  obtain ⟨id, hId, parsed⟩ := bind_ok.mp parsed
  obtain ⟨type, hType, parsed⟩ := bind_ok.mp parsed
  obtain ⟨title, hTitle, parsed⟩ := bind_ok.mp parsed
  obtain ⟨visible, hVisible, parsed⟩ := bind_ok.mp parsed
  obtain ⟨content, hContent, parsed⟩ := bind_ok.mp parsed
  obtain ⟨style, hStyle, parsed⟩ := bind_ok.mp parsed
  obtain ⟨sourceIds, hSources, parsed⟩ := bind_ok.mp parsed
  obtain ⟨passes, rfl⟩ := passing_ok.mp parsed
  refine bind_ok.mpr ⟨_, modelFields_sorted known, ?_⟩
  refine bind_ok.mpr ⟨id, required_sorted keyed asStr_sorts hId, ?_⟩
  refine bind_ok.mpr ⟨type, required_sorted keyed (asChoice_sorts blockType) hType, ?_⟩
  refine bind_ok.mpr ⟨title, required_sorted keyed asStr_sorts hTitle, ?_⟩
  refine bind_ok.mpr ⟨visible, optional_sorted keyed (asBool_sorts rt) rfl hVisible, ?_⟩
  refine bind_ok.mpr ⟨_, optional_sorted keyed asDict_sorts rfl hContent, ?_⟩
  refine bind_ok.mpr ⟨_, optional_sorted keyed asStrDict_sorts rfl hStyle, ?_⟩
  refine bind_ok.mpr ⟨sourceIds, optional_sorted keyed list_strings_sorts rfl hSources, ?_⟩
  exact passing_ok.mpr ⟨ResumeBlock.canonical_checks passes, rfl⟩

theorem validateColumn_sorts {rt : Runtime} : Sorts (fun _ => validateColumn rt) id := by
  intro _ value column keyed parsed
  unfold validateColumn at parsed ⊢
  obtain ⟨fields, known, parsed⟩ := bind_ok.mp parsed
  have keyed := modelFields_wellKeyed known keyed
  obtain ⟨id, hId, parsed⟩ := bind_ok.mp parsed
  obtain ⟨width, hWidth, parsed⟩ := bind_ok.mp parsed
  obtain ⟨minWidth, hMin, parsed⟩ := bind_ok.mp parsed
  obtain ⟨maxWidth, hMax, parsed⟩ := bind_ok.mp parsed
  obtain ⟨sectionIds, hSections, parsed⟩ := bind_ok.mp parsed
  refine bind_ok.mpr ⟨_, modelFields_sorted known, ?_⟩
  refine bind_ok.mpr ⟨id, required_sorted keyed asStr_sorts hId, ?_⟩
  refine bind_ok.mpr ⟨width, required_sorted keyed (asFloat_sorts rt) hWidth, ?_⟩
  refine bind_ok.mpr ⟨minWidth, required_sorted keyed (asFloat_sorts rt) hMin, ?_⟩
  refine bind_ok.mpr ⟨maxWidth, required_sorted keyed (asFloat_sorts rt) hMax, ?_⟩
  exact bind_ok.mpr ⟨sectionIds, optional_sorted keyed list_strings_sorts rfl hSections, parsed⟩

theorem list_sorts_id {α : Type} {parse : Json → Checked α} (sorts : Sorts (fun _ => parse) id) :
    Sorts (fun name => asList name parse) id := by
  intro name value items keyed parsed
  simpa using asList_sorts sorts name value items keyed parsed

theorem validateRow_sorts {rt : Runtime} : Sorts (fun _ => validateRow rt) id := by
  intro _ value row keyed parsed
  unfold validateRow at parsed ⊢
  obtain ⟨fields, known, parsed⟩ := bind_ok.mp parsed
  have keyed := modelFields_wellKeyed known keyed
  obtain ⟨id, hId, parsed⟩ := bind_ok.mp parsed
  obtain ⟨columns, hColumns, parsed⟩ := bind_ok.mp parsed
  refine bind_ok.mpr ⟨_, modelFields_sorted known, ?_⟩
  refine bind_ok.mpr ⟨id, required_sorted keyed asStr_sorts hId, ?_⟩
  exact bind_ok.mpr ⟨columns, required_sorted keyed (list_sorts_id validateColumn_sorts) hColumns, parsed⟩

theorem validatePage_sorts {rt : Runtime} : Sorts (fun _ => validatePage rt) id := by
  intro _ value page keyed parsed
  unfold validatePage at parsed ⊢
  obtain ⟨fields, known, parsed⟩ := bind_ok.mp parsed
  have keyed := modelFields_wellKeyed known keyed
  obtain ⟨id, hId, parsed⟩ := bind_ok.mp parsed
  obtain ⟨rows, hRows, parsed⟩ := bind_ok.mp parsed
  refine bind_ok.mpr ⟨_, modelFields_sorted known, ?_⟩
  refine bind_ok.mpr ⟨id, required_sorted keyed asStr_sorts hId, ?_⟩
  exact bind_ok.mpr ⟨rows, required_sorted keyed (list_sorts_id validateRow_sorts) hRows, parsed⟩

theorem validateStyle_sorts {rt : Runtime} : Sorts (fun _ => validateStyle rt) id := by
  intro _ value style keyed parsed
  unfold validateStyle at parsed ⊢
  obtain ⟨fields, known, parsed⟩ := bind_ok.mp parsed
  have keyed := modelFields_wellKeyed known keyed
  obtain ⟨family, hFamily, parsed⟩ := bind_ok.mp parsed
  obtain ⟨size, hSize, parsed⟩ := bind_ok.mp parsed
  obtain ⟨accent, hAccent, parsed⟩ := bind_ok.mp parsed
  obtain ⟨text, hText, parsed⟩ := bind_ok.mp parsed
  obtain ⟨margin, hMargin, parsed⟩ := bind_ok.mp parsed
  obtain ⟨spacing, hSpacing, parsed⟩ := bind_ok.mp parsed
  obtain ⟨density, hDensity, parsed⟩ := bind_ok.mp parsed
  refine bind_ok.mpr ⟨_, modelFields_sorted known, ?_⟩
  refine bind_ok.mpr ⟨family, optional_sorted keyed (asChoice_sorts _) rfl hFamily, ?_⟩
  refine bind_ok.mpr ⟨size, optional_sorted keyed (asNumber_sorts rt) rfl hSize, ?_⟩
  refine bind_ok.mpr ⟨accent, optional_sorted keyed asStr_sorts rfl hAccent, ?_⟩
  refine bind_ok.mpr ⟨text, optional_sorted keyed asStr_sorts rfl hText, ?_⟩
  refine bind_ok.mpr ⟨margin, optional_sorted keyed (asFloat_sorts rt) rfl hMargin, ?_⟩
  refine bind_ok.mpr ⟨spacing, optional_sorted keyed (asNumber_sorts rt) rfl hSpacing, ?_⟩
  exact bind_ok.mpr ⟨density, optional_sorted keyed (asChoice_sorts _) rfl hDensity, parsed⟩

theorem ResumeDocument.sorted_checks {document : ResumeDocument} (passes : Passes document.checks) :
    Passes document.sorted.checks := by
  have ids : document.sorted.blockIds = document.blockIds := by
    simp [ResumeDocument.blockIds, ResumeDocument.sorted, ResumeBlock.canonical, Function.comp_def]
  have references : document.sorted.references = document.references := rfl
  have pages : document.sorted.pages = document.pages := rfl
  have blocks : document.sorted.blocks.length = document.blocks.length := List.length_map _
  simpa [Passes, ResumeDocument.checks, counted, ids, references, pages, blocks] using passes

/-- Validation does not look at the order of the keys: reading back a payload with sorted keys gives
    the same document with the keys of its contents and styles sorted. -/
theorem validateDocument_normalize {rt : Runtime} {payload : Json} {document : ResumeDocument}
    (keyed : payload.WellKeyed) (parsed : validateDocument rt payload = .ok document) :
    validateDocument rt payload.normalize = .ok document.sorted := by
  unfold validateDocument at parsed ⊢
  obtain ⟨fields, known, parsed⟩ := bind_ok.mp parsed
  have keyed := modelFields_wellKeyed known keyed
  obtain ⟨_, hVersion, parsed⟩ := bind_ok.mp parsed
  obtain ⟨paper, hPaper, parsed⟩ := bind_ok.mp parsed
  obtain ⟨pages, hPages, parsed⟩ := bind_ok.mp parsed
  obtain ⟨blocks, hBlocks, parsed⟩ := bind_ok.mp parsed
  obtain ⟨style, hStyle, parsed⟩ := bind_ok.mp parsed
  obtain ⟨passes, rfl⟩ := passing_ok.mp parsed
  refine bind_ok.mpr ⟨_, modelFields_sorted known, ?_⟩
  refine bind_ok.mpr ⟨_, optional_sorted keyed asOne_sorts rfl hVersion, ?_⟩
  refine bind_ok.mpr ⟨paper, optional_sorted keyed (asChoice_sorts _) rfl hPaper, ?_⟩
  refine bind_ok.mpr ⟨pages, required_sorted keyed (list_sorts_id validatePage_sorts) hPages, ?_⟩
  refine bind_ok.mpr ⟨_, required_sorted keyed (asList_sorts validateBlock_sorts) hBlocks, ?_⟩
  refine bind_ok.mpr ⟨style, optional_sorted keyed validateStyle_sorts rfl hStyle, ?_⟩
  exact passing_ok.mpr ⟨ResumeDocument.sorted_checks passes, rfl⟩

theorem validateBlock_sound {rt : Runtime} {value : Json} {block : ResumeBlock} (keyed : value.WellKeyed)
    (parsed : validateBlock rt value = .ok block) : Passes (block.checks rt) ∧ block.WellKeyed := by
  unfold validateBlock at parsed
  obtain ⟨fields, known, parsed⟩ := bind_ok.mp parsed
  have keyed := modelFields_wellKeyed known keyed
  obtain ⟨id, _, parsed⟩ := bind_ok.mp parsed
  obtain ⟨type, _, parsed⟩ := bind_ok.mp parsed
  obtain ⟨title, _, parsed⟩ := bind_ok.mp parsed
  obtain ⟨visible, _, parsed⟩ := bind_ok.mp parsed
  obtain ⟨content, hContent, parsed⟩ := bind_ok.mp parsed
  obtain ⟨style, hStyle, parsed⟩ := bind_ok.mp parsed
  obtain ⟨sourceIds, _, parsed⟩ := bind_ok.mp parsed
  obtain ⟨passes, rfl⟩ := passing_ok.mp parsed
  refine ⟨passes, ?_, ?_⟩
  · rcases optional_ok.mp hContent with ⟨value, found, ok⟩ | ⟨_, rfl⟩
    · have inside := lookup_wellKeyed keyed found
      cases value with
      | obj own => cases ok; exact inside
      | _ => cases ok
    · simp [Json.WellKeyed, Json.WellKeyedFields]
  · rcases optional_ok.mp hStyle with ⟨value, found, ok⟩ | ⟨_, rfl⟩
    · have inside := lookup_wellKeyed keyed found
      cases value with
      | obj own =>
        rw [traverse_strDict.mp ok] at inside
        simp only [Json.WellKeyed, List.map_map] at inside
        exact inside.1
      | _ => cases ok
    · simp

theorem validateColumn_sound {rt : Runtime} {value : Json} {column : ResumeColumn}
    (parsed : validateColumn rt value = .ok column) : Passes column.checks := by
  unfold validateColumn at parsed
  obtain ⟨fields, _, parsed⟩ := bind_ok.mp parsed
  obtain ⟨id, _, parsed⟩ := bind_ok.mp parsed
  obtain ⟨width, _, parsed⟩ := bind_ok.mp parsed
  obtain ⟨minWidth, _, parsed⟩ := bind_ok.mp parsed
  obtain ⟨maxWidth, _, parsed⟩ := bind_ok.mp parsed
  obtain ⟨sectionIds, _, parsed⟩ := bind_ok.mp parsed
  obtain ⟨passes, rfl⟩ := passing_ok.mp parsed
  exact passes

theorem required_list_all {α : Type} {fields : Dict} {name : Str} {parse : Json → Checked α} {good : α → Prop}
    {results : List α} (keyed : (Json.obj fields).WellKeyed)
    (each : ∀ value : Json, value.WellKeyed → ∀ a, parse value = .ok a → good a)
    (parsed : required fields name (fun name => asList name parse) = .ok results) :
    ∀ a ∈ results, good a := by
  obtain ⟨value, found, ok⟩ := required_ok.mp parsed
  have inside := lookup_wellKeyed keyed found
  cases value with
  | arr items =>
    simp only [Json.WellKeyed, Json.wellKeyedItems_iff] at inside
    exact traverse_all (fun item member a ok => each item (inside item member) a ok) ok
  | _ => cases ok

theorem validateRow_sound {rt : Runtime} {value : Json} {row : ResumeRow} (keyed : value.WellKeyed)
    (parsed : validateRow rt value = .ok row) : row.Valid := by
  unfold validateRow at parsed
  obtain ⟨fields, known, parsed⟩ := bind_ok.mp parsed
  have keyed := modelFields_wellKeyed known keyed
  obtain ⟨id, _, parsed⟩ := bind_ok.mp parsed
  obtain ⟨columns, hColumns, parsed⟩ := bind_ok.mp parsed
  obtain ⟨passes, rfl⟩ := passing_ok.mp parsed
  exact ⟨passes, required_list_all keyed (fun _ _ _ ok => validateColumn_sound ok) hColumns⟩

theorem validatePage_sound {rt : Runtime} {value : Json} {page : ResumePage} (keyed : value.WellKeyed)
    (parsed : validatePage rt value = .ok page) : page.Valid := by
  unfold validatePage at parsed
  obtain ⟨fields, known, parsed⟩ := bind_ok.mp parsed
  have keyed := modelFields_wellKeyed known keyed
  obtain ⟨id, _, parsed⟩ := bind_ok.mp parsed
  obtain ⟨rows, hRows, parsed⟩ := bind_ok.mp parsed
  obtain ⟨passes, rfl⟩ := passing_ok.mp parsed
  exact ⟨passes, required_list_all keyed (fun _ inside _ ok => validateRow_sound inside ok) hRows⟩

theorem validateStyle_sound {rt : Runtime} {value : Json} {style : ResumeStyle}
    (parsed : validateStyle rt value = .ok style) : Passes style.checks := by
  unfold validateStyle at parsed
  obtain ⟨fields, _, parsed⟩ := bind_ok.mp parsed
  obtain ⟨family, _, parsed⟩ := bind_ok.mp parsed
  obtain ⟨size, _, parsed⟩ := bind_ok.mp parsed
  obtain ⟨accent, _, parsed⟩ := bind_ok.mp parsed
  obtain ⟨text, _, parsed⟩ := bind_ok.mp parsed
  obtain ⟨margin, _, parsed⟩ := bind_ok.mp parsed
  obtain ⟨spacing, _, parsed⟩ := bind_ok.mp parsed
  obtain ⟨density, _, parsed⟩ := bind_ok.mp parsed
  obtain ⟨passes, rfl⟩ := passing_ok.mp parsed
  exact passes

theorem defaultStyle_checks : Passes defaultStyle.checks := by
  unfold Passes
  with_unfolding_all decide

theorem validateDocument_sound {rt : Runtime} {payload : Json} {document : ResumeDocument}
    (keyed : payload.WellKeyed) (parsed : validateDocument rt payload = .ok document) :
    document.Valid rt ∧ ∀ block ∈ document.blocks, block.WellKeyed := by
  unfold validateDocument at parsed
  obtain ⟨fields, known, parsed⟩ := bind_ok.mp parsed
  have keyed := modelFields_wellKeyed known keyed
  obtain ⟨_, _, parsed⟩ := bind_ok.mp parsed
  obtain ⟨paper, _, parsed⟩ := bind_ok.mp parsed
  obtain ⟨pages, hPages, parsed⟩ := bind_ok.mp parsed
  obtain ⟨blocks, hBlocks, parsed⟩ := bind_ok.mp parsed
  obtain ⟨style, hStyle, parsed⟩ := bind_ok.mp parsed
  obtain ⟨passes, rfl⟩ := passing_ok.mp parsed
  have sound := required_list_all keyed (fun _ inside _ ok => validateBlock_sound inside ok) hBlocks
  refine ⟨⟨passes, ?_, fun block member => (sound block member).1, ?_⟩, fun block member =>
    (sound block member).2⟩
  · exact required_list_all keyed (fun _ inside _ ok => validatePage_sound inside ok) hPages
  · rcases optional_ok.mp hStyle with ⟨value, _, ok⟩ | ⟨_, rfl⟩
    · exact validateStyle_sound ok
    · exact defaultStyle_checks

theorem strings_wellKeyed (texts : List Str) : (strings texts).WellKeyed := by
  simp [strings, Json.WellKeyed, Json.wellKeyedItems_iff]

theorem dumpBlock_wellKeyed {block : ResumeBlock} (keyed : block.WellKeyed) :
    (dumpBlock block).WellKeyed := by
  have style : (Json.obj (block.style.map fun item => (item.1, .str item.2))).WellKeyed := by
    simp only [Json.WellKeyed, List.map_map, Json.wellKeyedFields_iff, List.mem_map]
    refine ⟨keyed.2, ?_⟩
    rintro field ⟨item, _, rfl⟩
    trivial
  have names : (["id", "type", "title", "visible", "content", "style", "source_ids"].map
      String.toList).Nodup := by
    decide
  simp only [dumpBlock, Json.WellKeyed]
  exact ⟨names, trivial, trivial, trivial, trivial, keyed.1, style, strings_wellKeyed _, trivial⟩

theorem dumpColumn_wellKeyed (column : ResumeColumn) : (dumpColumn column).WellKeyed := by
  have names : (columnFields).Nodup := by decide
  simp only [dumpColumn, Json.WellKeyed]
  exact ⟨names, trivial, trivial, trivial, trivial, strings_wellKeyed _, trivial⟩

theorem arr_wellKeyed {α : Type} {dump : α → Json} {items : List α}
    (each : ∀ item ∈ items, (dump item).WellKeyed) :
    (Json.arr (items.map dump)).WellKeyed := by
  simpa [Json.WellKeyed, Json.wellKeyedItems_iff] using each

theorem dumpRow_wellKeyed (row : ResumeRow) : (dumpRow row).WellKeyed := by
  have names : (rowFields).Nodup := by decide
  simp only [dumpRow]
  exact ⟨names, trivial, arr_wellKeyed fun column _ => dumpColumn_wellKeyed column, trivial⟩

theorem dumpPage_wellKeyed (page : ResumePage) : (dumpPage page).WellKeyed := by
  have names : (pageFields).Nodup := by decide
  exact ⟨names, trivial, arr_wellKeyed fun row _ => dumpRow_wellKeyed row, trivial⟩

theorem dumpStyle_wellKeyed (style : ResumeStyle) : (dumpStyle style).WellKeyed := by
  have names : (styleFields).Nodup := by decide
  exact ⟨names, trivial, trivial, trivial, trivial, trivial, trivial, trivial, trivial⟩

theorem modelDump_wellKeyed {document : ResumeDocument} (keyed : ∀ block ∈ document.blocks, block.WellKeyed) :
    (modelDump document).WellKeyed := by
  have names : (documentFields).Nodup := by decide
  exact ⟨names, trivial, trivial, arr_wellKeyed fun page _ => dumpPage_wellKeyed page,
    arr_wellKeyed fun block member => dumpBlock_wellKeyed (keyed block member), dumpStyle_wellKeyed _,
      trivial⟩

/-- The text `save_document` and `create_workspace` store for a document. -/
def storedText (rt : Runtime) (document : ResumeDocument) : Str := dumps rt.floats (modelDump document)

/-- `validate_document(json.loads(document_json))`, as the readers of a revision call it. -/
def readDocument (rt : Runtime) (documentJson : Str) : Option ResumeDocument :=
  match loads rt.floats documentJson with
  | none => none
  | some payload =>
    match validateDocument rt payload with
    | .error _ => none
    | .ok document => some document

/-- What is stored for an accepted document reads back as that document with its keys in order and `float`
    numbers. -/
theorem readDocument_stored {rt : Runtime} {document : ResumeDocument} (valid : document.Valid rt)
    (keyed : ∀ block ∈ document.blocks, block.WellKeyed) :
    readDocument rt (storedText rt document) = some document.canonical := by
  have payload := modelDump_wellKeyed keyed
  have back := validateDocument_normalize payload (validateDocument_dump valid)
  simp only [readDocument, storedText, ResumeDocument.canonical, loads_dumps rt.floats payload, back]

end ManifestCV.Document
