import ManifestCV.Document.Schema

namespace ManifestCV.Document

open Foundation

def strings (texts : List Str) : Json := .arr (texts.map .str)

def dumpBlock (block : ResumeBlock) : Json := .obj [
  ("id".toList, .str block.id),
  ("type".toList, .str (blockType.text block.type)),
  ("title".toList, .str block.title),
  ("visible".toList, .bool block.visible),
  ("content".toList, .obj block.content),
  ("style".toList, .obj (block.style.map fun item => (item.1, .str item.2))),
  ("source_ids".toList, strings block.sourceIds)]

def dumpColumn (column : ResumeColumn) : Json := .obj [
  ("id".toList, .str column.id),
  ("width".toList, .float column.width),
  ("min_width".toList, .float column.minWidth),
  ("max_width".toList, .float column.maxWidth),
  ("section_ids".toList, strings column.sectionIds)]

def dumpRow (row : ResumeRow) : Json := .obj [
  ("id".toList, .str row.id),
  ("columns".toList, .arr (row.columns.map dumpColumn))]

def dumpPage (page : ResumePage) : Json := .obj [
  ("id".toList, .str page.id),
  ("rows".toList, .arr (page.rows.map dumpRow))]

def dumpStyle (style : ResumeStyle) : Json := .obj [
  ("font_family".toList, .str (fontFamily.text style.fontFamily)),
  ("font_size".toList, .float style.fontSize.toDouble),
  ("accent_color".toList, .str style.accentColor),
  ("text_color".toList, .str style.textColor),
  ("margin".toList, .float style.margin),
  ("spacing".toList, .float style.spacing.toDouble),
  ("density".toList, .str (density.text style.density))]

/-- `document.model_dump(mode="json")`. -/
def modelDump (document : ResumeDocument) : Json := .obj [
  ("schema_version".toList, .int 1),
  ("paper".toList, .str (paper.text document.paper)),
  ("pages".toList, .arr (document.pages.map dumpPage)),
  ("blocks".toList, .arr (document.blocks.map dumpBlock)),
  ("style".toList, dumpStyle document.style)]

/-- The style as it is read back: a default that was an `int` comes back as a `float`. -/
def ResumeStyle.reloaded (style : ResumeStyle) : ResumeStyle :=
  { style with fontSize := .float style.fontSize.toDouble, spacing := .float style.spacing.toDouble }

def ResumeDocument.reloaded (document : ResumeDocument) : ResumeDocument :=
  { document with style := document.style.reloaded }

def ResumeStyle.Given (style : ResumeStyle) : Prop :=
  style.fontSize.isFloat = true ∧ style.spacing.isFloat = true

def Passes (checks : Checks) : Prop := ∀ check ∈ checks, check.1 = true

theorem passing_ok {α : Type} {checks : Checks} {value result : α} :
    passing checks value = .ok result ↔ Passes checks ∧ result = value := by
  unfold passing
  cases found : checks.find? (!·.1) with
  | none =>
    have all : Passes checks := by simpa [Passes] using found
    constructor
    · intro same
      cases same
      exact ⟨all, rfl⟩
    · rintro ⟨_, rfl⟩
      rfl
  | some check =>
    have failed := List.find?_some found
    constructor
    · intro same
      cases same
    · rintro ⟨all, _⟩
      rw [all check (List.mem_of_find?_eq_some found)] at failed
      cases failed

theorem bind_ok {α β : Type} {x : Checked α} {f : α → Checked β} {b : β} :
    (x >>= f) = .ok b ↔ ∃ a, x = .ok a ∧ f a = .ok b := by
  cases x with
  | error e => simp [bind, Except.bind]
  | ok a => simp [bind, Except.bind]

theorem traverse_ok {α β : Type} {parse : α → Checked β} {items : List α} {results : List β} :
    traverse parse items = .ok results ↔
      List.Forall₂ (fun item result => parse item = .ok result) items results := by
  induction items generalizing results with
  | nil =>
    simp only [traverse, Except.ok.injEq, List.forall₂_nil_left_iff]
    exact eq_comm
  | cons item items ih =>
    rw [traverse]
    cases first : parse item with
    | error e =>
      constructor
      · intro same
        cases same
      · intro related
        cases related with
        | cons head _ => rw [first] at head; cases head
    | ok result =>
      cases rest : traverse parse items with
      | error e =>
        constructor
        · intro same
          cases same
        · intro related
          cases related with
          | cons _ tail => rw [ih.mpr tail] at rest; cases rest
      | ok others =>
        simp only [Except.ok.injEq]
        constructor
        · rintro rfl
          exact .cons first (ih.mp rest)
        · intro related
          cases related with
          | cons head tail =>
            rw [first] at head
            rw [ih.mpr tail] at rest
            cases head
            cases rest
            rfl

theorem traverse_map {α β : Type} {parse : α → Checked β} {dump : β → α} {results : List β}
    (back : ∀ result ∈ results, parse (dump result) = .ok result) :
    traverse parse (results.map dump) = .ok results := by
  rw [traverse_ok, List.forall₂_map_left_iff, List.forall₂_same]
  exact back

theorem traverse_image {α β γ δ : Type} {parse : α → Checked β} {parse' : γ → Checked δ}
    {g : α → γ} {f : β → δ} {items : List α} {results : List β}
    (image : ∀ item ∈ items, ∀ b, parse item = .ok b → parse' (g item) = .ok (f b))
    (parsed : traverse parse items = .ok results) : traverse parse' (items.map g) = .ok (results.map f) := by
  rw [traverse_ok] at parsed ⊢
  induction parsed with
  | nil => exact .nil
  | cons head _ ih =>
    refine .cons (image _ List.mem_cons_self _ head) (ih ?_)
    exact fun item member => image item (List.mem_cons_of_mem _ member)

theorem traverse_all {α β : Type} {parse : α → Checked β} {good : β → Prop} {items : List α}
    {results : List β} (each : ∀ item ∈ items, ∀ b, parse item = .ok b → good b)
    (parsed : traverse parse items = .ok results) :
    ∀ b ∈ results, good b := by
  rw [traverse_ok] at parsed
  induction parsed with
  | nil => exact fun _ member => nomatch member
  | cons head _ ih =>
    intro b member
    rcases List.mem_cons.mp member with rfl | member
    · exact each _ List.mem_cons_self _ head
    · exact ih (fun item inside => each item (List.mem_cons_of_mem _ inside)) b member

theorem required_ok {α : Type} {fields : Dict} {name : Str} {parse : Str → Json → Checked α} {a : α} :
    required fields name parse = .ok a ↔ ∃ value, fields.lookup name = some value ∧
      parse name value = .ok a := by
  unfold required
  cases fields.lookup name <;> simp

theorem optional_ok {α : Type} {fields : Dict} {name : Str} {default a : α} {parse : Str → Json → Checked α} :
    optional fields name default parse = .ok a ↔
      (∃ value, fields.lookup name = some value ∧ parse name value = .ok a) ∨
        (fields.lookup name = none ∧ a = default) := by
  unfold optional
  cases fields.lookup name <;> simp [eq_comm]

theorem modelFields_ok {known : List Str} {value : Json} {fields : Dict} :
    modelFields known value = .ok fields ↔ value = .obj fields ∧ ∀ field ∈ fields, field.1 ∈ known := by
  cases value with
  | obj own =>
    rw [modelFields]
    cases found : own.find? (!known.contains ·.1) with
    | none =>
      have all : ∀ field ∈ own, field.1 ∈ known := by simpa using found
      constructor
      · intro same
        cases same
        exact ⟨rfl, all⟩
      · rintro ⟨same, _⟩
        cases same
        rfl
    | some field =>
      have failed := List.find?_some found
      constructor
      · intro same
        cases same
      · rintro ⟨same, all⟩
        cases same
        have inside := all field (List.mem_of_find?_eq_some found)
        simp [inside] at failed
  | _ => simp [modelFields]

theorem asStr_ok {name : Str} {value : Json} {text : Str} :
    asStr name value = .ok text ↔ value = .str text := by
  cases value <;> simp [asStr]

theorem asFloat_float (rt : Runtime) (name : Str) (x : Double) : asFloat rt name (.float x) = .ok x := by
  simp [asFloat, rt.laxFloat_float]

theorem asNumber_float (rt : Runtime) (name : Str) (x : Double) :
    asNumber rt name (.float x) = .ok (.float x) := by
  rw [asNumber, asFloat_float]
  rfl

theorem asBool_bool (rt : Runtime) (name : Str) (b : Bool) : asBool rt name (.bool b) = .ok b := by
  simp [asBool, rt.laxBool_bool]

theorem asChoice_text {α : Type} (choices : Choices α) (name : Str) (a : α) :
    asChoice choices name (.str (choices.text a)) = .ok a := by
  rw [asChoice]
  cases found : choices.all.find? (choices.text · = choices.text a) with
  | none =>
    have no := List.find?_eq_none.mp found a (choices.complete a)
    simp at no
  | some b =>
    have same := List.find?_some found
    rw [choices.distinct b a (by simpa using same)]

theorem asList_strings (name : Str) (texts : List Str) :
    asList name (asStr name) (strings texts) = .ok texts :=
  traverse_map fun _ _ => rfl

theorem asStrDict_map (name : Str) (items : List (Str × Str)) :
    asStrDict name (.obj (items.map fun item => (item.1, .str item.2))) = .ok items :=
  traverse_map fun _ _ => rfl

structure ResumeRow.Valid (row : ResumeRow) : Prop where
  checks : Passes row.checks
  columns : ∀ column ∈ row.columns, Passes column.checks

structure ResumePage.Valid (page : ResumePage) : Prop where
  checks : Passes page.checks
  rows : ∀ row ∈ page.rows, row.Valid

/-- Everything the schema promises of a validated document. -/
structure ResumeDocument.Valid (rt : Runtime) (document : ResumeDocument) : Prop where
  checks : Passes document.checks
  pages : ∀ page ∈ document.pages, page.Valid
  blocks : ∀ block ∈ document.blocks, Passes (block.checks rt)
  style : Passes document.style.checks

theorem validateBlock_dump {rt : Runtime} {block : ResumeBlock} (valid : Passes (block.checks rt)) :
    validateBlock rt (dumpBlock block) = .ok block := by
  refine bind_ok.mpr ⟨_, rfl, ?_⟩
  refine bind_ok.mpr ⟨block.id, rfl, ?_⟩
  refine bind_ok.mpr ⟨block.type, asChoice_text blockType _ _, ?_⟩
  refine bind_ok.mpr ⟨block.title, rfl, ?_⟩
  refine bind_ok.mpr ⟨block.visible, asBool_bool rt _ _, ?_⟩
  refine bind_ok.mpr ⟨block.content, rfl, ?_⟩
  refine bind_ok.mpr ⟨block.style, asStrDict_map _ _, ?_⟩
  refine bind_ok.mpr ⟨block.sourceIds, asList_strings _ _, ?_⟩
  exact passing_ok.mpr ⟨valid, rfl⟩

theorem validateColumn_dump {rt : Runtime} {column : ResumeColumn} (valid : Passes column.checks) :
    validateColumn rt (dumpColumn column) = .ok column := by
  refine bind_ok.mpr ⟨_, rfl, ?_⟩
  refine bind_ok.mpr ⟨column.id, rfl, ?_⟩
  refine bind_ok.mpr ⟨column.width, asFloat_float rt _ _, ?_⟩
  refine bind_ok.mpr ⟨column.minWidth, asFloat_float rt _ _, ?_⟩
  refine bind_ok.mpr ⟨column.maxWidth, asFloat_float rt _ _, ?_⟩
  refine bind_ok.mpr ⟨column.sectionIds, asList_strings _ _, ?_⟩
  exact passing_ok.mpr ⟨valid, rfl⟩

theorem validateRow_dump {rt : Runtime} {row : ResumeRow} (valid : row.Valid) :
    validateRow rt (dumpRow row) = .ok row := by
  refine bind_ok.mpr ⟨_, rfl, ?_⟩
  refine bind_ok.mpr ⟨row.id, rfl, ?_⟩
  refine bind_ok.mpr ⟨row.columns, traverse_map fun column member =>
    validateColumn_dump (valid.columns column member), ?_⟩
  exact passing_ok.mpr ⟨valid.checks, rfl⟩

theorem validatePage_dump {rt : Runtime} {page : ResumePage} (valid : page.Valid) :
    validatePage rt (dumpPage page) = .ok page := by
  refine bind_ok.mpr ⟨_, rfl, ?_⟩
  refine bind_ok.mpr ⟨page.id, rfl, ?_⟩
  refine bind_ok.mpr ⟨page.rows, traverse_map fun row member => validateRow_dump (valid.rows row member), ?_⟩
  exact passing_ok.mpr ⟨valid.checks, rfl⟩

theorem validateStyle_dump {rt : Runtime} {style : ResumeStyle} (valid : Passes style.checks) :
    validateStyle rt (dumpStyle style) = .ok style.reloaded := by
  refine bind_ok.mpr ⟨_, rfl, ?_⟩
  refine bind_ok.mpr ⟨style.fontFamily, asChoice_text fontFamily _ _, ?_⟩
  refine bind_ok.mpr ⟨.float style.fontSize.toDouble, asNumber_float rt _ _, ?_⟩
  refine bind_ok.mpr ⟨style.accentColor, rfl, ?_⟩
  refine bind_ok.mpr ⟨style.textColor, rfl, ?_⟩
  refine bind_ok.mpr ⟨style.margin, asFloat_float rt _ _, ?_⟩
  refine bind_ok.mpr ⟨.float style.spacing.toDouble, asNumber_float rt _ _, ?_⟩
  refine bind_ok.mpr ⟨style.density, asChoice_text density _ _, ?_⟩
  exact passing_ok.mpr ⟨valid, rfl⟩

/-- Dumping a validated document and validating it again changes nothing but the type of a default number. -/
theorem validateDocument_dump {rt : Runtime} {document : ResumeDocument} (valid : document.Valid rt) :
    validateDocument rt (modelDump document) = .ok document.reloaded := by
  refine bind_ok.mpr ⟨_, rfl, ?_⟩
  refine bind_ok.mpr ⟨(), rfl, ?_⟩
  refine bind_ok.mpr ⟨document.paper, asChoice_text paper _ _, ?_⟩
  refine bind_ok.mpr ⟨document.pages, traverse_map fun page member =>
    validatePage_dump (valid.pages page member), ?_⟩
  refine bind_ok.mpr ⟨document.blocks, traverse_map fun block member =>
    validateBlock_dump (valid.blocks block member), ?_⟩
  refine bind_ok.mpr ⟨document.style.reloaded, validateStyle_dump valid.style, ?_⟩
  exact passing_ok.mpr ⟨valid.checks, rfl⟩

end ManifestCV.Document
