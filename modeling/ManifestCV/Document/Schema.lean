import ManifestCV.Document.Security

namespace ManifestCV.Document

open Foundation

inductive Paper where
  | a4
  | letter
  deriving DecidableEq

inductive BlockType where
  | profileHeader
  | contact
  | socialLinks
  | summary
  | experience
  | project
  | education
  | skills
  | certifications
  | awards
  | publications
  | languages
  | customText
  | customList
  | divider
  deriving DecidableEq

inductive FontFamily where
  | inter
  | arial
  | georgia
  | sourceSans
  deriving DecidableEq

inductive Density where
  | comfortable
  | compact
  deriving DecidableEq

structure Choices (α : Type) where
  all : List α
  text : α → Str
  complete : ∀ a, a ∈ all
  distinct : ∀ a b, text a = text b → a = b

def paper : Choices Paper where
  all := [.a4, .letter]
  text
    | .a4 => "a4".toList
    | .letter => "letter".toList
  complete a := by cases a <;> decide
  distinct a b := by cases a <;> cases b <;> decide

def blockType : Choices BlockType where
  all := [.profileHeader, .contact, .socialLinks, .summary, .experience, .project, .education, .skills,
    .certifications, .awards, .publications, .languages, .customText, .customList, .divider]
  text
    | .profileHeader => "profile_header".toList
    | .contact => "contact".toList
    | .socialLinks => "social_links".toList
    | .summary => "summary".toList
    | .experience => "experience".toList
    | .project => "project".toList
    | .education => "education".toList
    | .skills => "skills".toList
    | .certifications => "certifications".toList
    | .awards => "awards".toList
    | .publications => "publications".toList
    | .languages => "languages".toList
    | .customText => "custom_text".toList
    | .customList => "custom_list".toList
    | .divider => "divider".toList
  complete a := by cases a <;> decide
  distinct a b := by cases a <;> cases b <;> decide

def fontFamily : Choices FontFamily where
  all := [.inter, .arial, .georgia, .sourceSans]
  text
    | .inter => "inter".toList
    | .arial => "arial".toList
    | .georgia => "georgia".toList
    | .sourceSans => "source_sans".toList
  complete a := by cases a <;> decide
  distinct a b := by cases a <;> cases b <;> decide

def density : Choices Density where
  all := [.comfortable, .compact]
  text
    | .comfortable => "comfortable".toList
    | .compact => "compact".toList
  complete a := by cases a <;> decide
  distinct a b := by cases a <;> cases b <;> decide

structure ResumeBlock where
  id : Str
  type : BlockType
  title : Str
  visible : Bool
  content : Dict
  style : List (Str × Str)
  sourceIds : List Str

structure ResumeColumn where
  id : Str
  width : Double
  minWidth : Double
  maxWidth : Double
  sectionIds : List Str

structure ResumeRow where
  id : Str
  columns : List ResumeColumn

structure ResumePage where
  id : Str
  rows : List ResumeRow

/-- A number of a `float` field: a value that is given becomes a `float`, a default stays as the class body
    has it. -/
inductive Number where
  | int (value : Int)
  | float (value : Double)

def Number.toDouble : Number → Double
  | .int value => Double.ofInt value
  | .float value => value

def Number.val (number : Number) : ℚ := number.toDouble.val

def Number.isFloat : Number → Bool
  | .int _ => false
  | .float _ => true

structure ResumeStyle where
  fontFamily : FontFamily
  fontSize : Number
  accentColor : Str
  textColor : Str
  margin : Double
  spacing : Number
  density : Density

structure ResumeDocument where
  paper : Paper
  pages : List ResumePage
  blocks : List ResumeBlock
  style : ResumeStyle

/-- Why `model_validate` refuses: a field pydantic refuses by its type or bounds, or the ValueError of
    one of the schema's own validators. -/
inductive Rejection where
  | field (name : Str)
  | value (message : Str)
  deriving DecidableEq

abbrev Checked (α : Type) := Except Rejection α

def asStr (name : Str) : Json → Checked Str
  | .str value => .ok value
  | _ => .error (.field name)

def asBool (rt : Runtime) (name : Str) (value : Json) : Checked Bool :=
  match rt.laxBool value with
  | some b => .ok b
  | none => .error (.field name)

def asFloat (rt : Runtime) (name : Str) (value : Json) : Checked Double :=
  match rt.laxFloat value with
  | some x => .ok x
  | none => .error (.field name)

def asNumber (rt : Runtime) (name : Str) (value : Json) : Checked Number := (asFloat rt name value).map .float

def asDict (name : Str) : Json → Checked Dict
  | .obj fields => .ok fields
  | _ => .error (.field name)

def traverse {α β : Type} (parse : α → Checked β) : List α → Checked (List β)
  | [] => .ok []
  | item :: items =>
    match parse item with
    | .error e => .error e
    | .ok first =>
      match traverse parse items with
      | .error e => .error e
      | .ok rest => .ok (first :: rest)

def asList {α : Type} (name : Str) (parse : Json → Checked α) : Json → Checked (List α)
  | .arr items => traverse parse items
  | _ => .error (.field name)

def asStrField (name : Str) (field : Str × Json) : Checked (Str × Str) :=
  match asStr name field.2 with
  | .error e => .error e
  | .ok value => .ok (field.1, value)

def asStrDict (name : Str) : Json → Checked (List (Str × Str))
  | .obj fields => traverse (asStrField name) fields
  | _ => .error (.field name)

def asChoice {α : Type} (choices : Choices α) (name : Str) : Json → Checked α
  | .str value =>
    match choices.all.find? (choices.text · = value) with
    | some a => .ok a
    | none => .error (.field name)
  | _ => .error (.field name)

def asOne (name : Str) : Json → Checked Unit
  | .int value => if value = 1 then .ok () else .error (.field name)
  | _ => .error (.field name)

/-- The fields of a model with `extra="forbid"`. -/
def modelFields (known : List Str) : Json → Checked Dict
  | .obj fields =>
    match fields.find? (!known.contains ·.1) with
    | some field => .error (.field field.1)
    | none => .ok fields
  | _ => .error (.field [])

def required {α : Type} (fields : Dict) (name : Str) (parse : Str → Json → Checked α) : Checked α :=
  match fields.lookup name with
  | some value => parse name value
  | none => .error (.field name)

def optional {α : Type} (fields : Dict) (name : Str) (default : α) (parse : Str → Json → Checked α) :
    Checked α :=
  match fields.lookup name with
  | some value => parse name value
  | none => .ok default

abbrev Checks := List (Bool × Rejection)

def passing {α : Type} (checks : Checks) (value : α) : Checked α :=
  match checks.find? (!·.1) with
  | some check => .error check.2
  | none => .ok value

def bounded (low high : Nat) (text : Str) (name : Str) : Bool × Rejection :=
  (decide (low ≤ text.length ∧ text.length ≤ high), .field name)

def counted {α : Type} (low high : Nat) (items : List α) (name : Str) : Bool × Rejection :=
  (decide (low ≤ items.length ∧ items.length ≤ high), .field name)

def maxText : Nat := 10000

def maxBlocks : Nat := 80

def isIdChar (c : Char) : Bool := c.isAlphanum || c = '_' || c = '-'

def isHexDigit (c : Char) : Bool := c.isDigit || ('a' ≤ c && c ≤ 'f') || ('A' ≤ c && c ≤ 'F')

def isColor (text : Str) : Bool :=
  match text with
  | '#' :: digits => digits.length = 6 && digits.all isHexDigit
  | _ => false

def valueCheck (result : Except Str Unit) : Bool × Rejection :=
  match result with
  | .ok () => (true, .value [])
  | .error message => (false, .value message)

def contentIsBounded (rt : Runtime) (content : Dict) : Except Str Unit :=
  if maxText < ((Json.obj content).repr rt.floats rt.isPrintable).length then
    .error "block content is too large".toList
  else validateContent rt 0 (.obj content)

def styleIsSafe (rt : Runtime) (style : List (Str × Str)) : Except Str Unit :=
  match validateContent rt 0 (.obj (style.map fun item => (item.1, .str item.2))) with
  | .error message => .error message
  | .ok () =>
    if style.any fun item => item.2.contains ';' || item.2.contains '{' || item.2.contains '}' then
      .error "block styles must be token values".toList
    else .ok ()

def ResumeBlock.checks (rt : Runtime) (block : ResumeBlock) : Checks := [
  bounded 1 80 block.id "id".toList,
  (block.id.all isIdChar, .field "id".toList),
  bounded 1 120 block.title "title".toList,
  counted 0 40 block.sourceIds "source_ids".toList,
  valueCheck (contentIsBounded rt block.content),
  valueCheck (styleIsSafe rt block.style)]

def asUnitInterval (x : Double) (name : Str) : Bool × Rejection :=
  (decide (0 < x.val ∧ x.val ≤ 1), .field name)

def ResumeColumn.checks (column : ResumeColumn) : Checks := [
  bounded 1 80 column.id "id".toList,
  asUnitInterval column.width "width".toList,
  asUnitInterval column.minWidth "min_width".toList,
  asUnitInterval column.maxWidth "max_width".toList,
  counted 0 maxBlocks column.sectionIds "section_ids".toList,
  (decide (column.minWidth.val ≤ column.width.val ∧ column.width.val ≤ column.maxWidth.val),
    .value "column width must be within its constraints".toList)]

def ResumeRow.total (row : ResumeRow) : Double := Double.sum (row.columns.map (·.width))

def ResumeRow.checks (row : ResumeRow) : Checks := [
  bounded 1 80 row.id "id".toList,
  counted 1 4 row.columns "columns".toList,
  (decide ((Double.sub row.total (Double.ofInt 1)).abs.val ≤ (Double.ofRat (2 / 100)).val),
    .value "column widths must add up to 1".toList),
  (decide (row.columns.map (·.id)).Nodup, .value "column ids must be unique".toList)]

def ResumePage.checks (page : ResumePage) : Checks := [
  bounded 1 80 page.id "id".toList,
  counted 1 8 page.rows "rows".toList]

def within (low high : ℚ) (x : Double) (name : Str) : Bool × Rejection :=
  (decide (low ≤ x.val ∧ x.val ≤ high), .field name)

def ResumeStyle.checks (style : ResumeStyle) : Checks := [
  within 8 16 style.fontSize.toDouble "font_size".toList,
  (isColor style.accentColor, .field "accent_color".toList),
  (isColor style.textColor, .field "text_color".toList),
  within (1 / 4) (5 / 4) style.margin "margin".toList,
  within (1 / 2) 2 style.spacing.toDouble "spacing".toList]

def ResumePage.columns (page : ResumePage) : List ResumeColumn := page.rows.flatMap (·.columns)

def ResumeDocument.references (document : ResumeDocument) : List Str :=
  document.pages.flatMap fun page => page.columns.flatMap (·.sectionIds)

def ResumeDocument.blockIds (document : ResumeDocument) : List Str := document.blocks.map (·.id)

def ResumeRow.resizable (row : ResumeRow) : Bool :=
  decide (row.columns.length ≤ 1) || row.columns.all fun column => decide (column.minWidth.val < 1)

def ResumeDocument.checks (document : ResumeDocument) : Checks := [
  counted 1 10 document.pages "pages".toList,
  counted 1 maxBlocks document.blocks "blocks".toList,
  (decide document.blockIds.Nodup, .value "block ids must be unique".toList),
  (decide document.references.Nodup, .value "a block can only appear once in the layout".toList),
  (document.references.all (document.blockIds.contains ·) &&
    document.blockIds.all (document.references.contains ·),
    .value "layout must reference every block exactly once".toList),
  (document.pages.all fun page => page.rows.all (·.resizable),
    .value "multi-column rows need resizable columns".toList)]

def blockFields : List Str :=
  ["id", "type", "title", "visible", "content", "style", "source_ids"].map String.toList

def validateBlock (rt : Runtime) (value : Json) : Checked ResumeBlock := do
  let fields ← modelFields blockFields value
  let id ← required fields "id".toList asStr
  let type ← required fields "type".toList (asChoice blockType)
  let title ← required fields "title".toList asStr
  let visible ← optional fields "visible".toList true (asBool rt)
  let content ← optional fields "content".toList [] asDict
  let style ← optional fields "style".toList [] asStrDict
  let sourceIds ← optional fields "source_ids".toList [] (fun name => asList name (asStr name))
  let block : ResumeBlock := { id, type, title, visible, content, style, sourceIds }
  passing (block.checks rt) block

def columnFields : List Str := ["id", "width", "min_width", "max_width", "section_ids"].map String.toList

def validateColumn (rt : Runtime) (value : Json) : Checked ResumeColumn := do
  let fields ← modelFields columnFields value
  let id ← required fields "id".toList asStr
  let width ← required fields "width".toList (asFloat rt)
  let minWidth ← required fields "min_width".toList (asFloat rt)
  let maxWidth ← required fields "max_width".toList (asFloat rt)
  let sectionIds ← optional fields "section_ids".toList [] (fun name => asList name (asStr name))
  let column : ResumeColumn := { id, width, minWidth, maxWidth, sectionIds }
  passing column.checks column

def rowFields : List Str := ["id", "columns"].map String.toList

def validateRow (rt : Runtime) (value : Json) : Checked ResumeRow := do
  let fields ← modelFields rowFields value
  let id ← required fields "id".toList asStr
  let columns ← required fields "columns".toList (fun name => asList name (validateColumn rt))
  let row : ResumeRow := { id, columns }
  passing row.checks row

def pageFields : List Str := ["id", "rows"].map String.toList

def validatePage (rt : Runtime) (value : Json) : Checked ResumePage := do
  let fields ← modelFields pageFields value
  let id ← required fields "id".toList asStr
  let rows ← required fields "rows".toList (fun name => asList name (validateRow rt))
  let page : ResumePage := { id, rows }
  passing page.checks page

def styleFields : List Str :=
  ["font_family", "font_size", "accent_color", "text_color", "margin", "spacing", "density"].map String.toList

def defaultStyle : ResumeStyle where
  fontFamily := .inter
  fontSize := .int 10
  accentColor := "#2563eb".toList
  textColor := "#1f2937".toList
  margin := Double.ofRat (6 / 10)
  spacing := .int 1
  density := .comfortable

def validateStyle (rt : Runtime) (value : Json) : Checked ResumeStyle := do
  let fields ← modelFields styleFields value
  let fontFamily ← optional fields "font_family".toList defaultStyle.fontFamily (asChoice fontFamily)
  let fontSize ← optional fields "font_size".toList defaultStyle.fontSize (asNumber rt)
  let accentColor ← optional fields "accent_color".toList defaultStyle.accentColor asStr
  let textColor ← optional fields "text_color".toList defaultStyle.textColor asStr
  let margin ← optional fields "margin".toList defaultStyle.margin (asFloat rt)
  let spacing ← optional fields "spacing".toList defaultStyle.spacing (asNumber rt)
  let density ← optional fields "density".toList defaultStyle.density (asChoice density)
  let style : ResumeStyle := { fontFamily, fontSize, accentColor, textColor, margin, spacing, density }
  passing style.checks style

def documentFields : List Str := ["schema_version", "paper", "pages", "blocks", "style"].map String.toList

/-- `ResumeDocument.model_validate`. -/
def validateDocument (rt : Runtime) (payload : Json) : Checked ResumeDocument := do
  let fields ← modelFields documentFields payload
  let _ ← optional fields "schema_version".toList () asOne
  let paper ← optional fields "paper".toList .a4 (asChoice paper)
  let pages ← required fields "pages".toList (fun name => asList name (validatePage rt))
  let blocks ← required fields "blocks".toList (fun name => asList name (validateBlock rt))
  let style ← optional fields "style".toList defaultStyle (fun _ => validateStyle rt)
  let document : ResumeDocument := { paper, pages, blocks, style }
  passing document.checks document

/-- A document that some request body or stored text is validated to. -/
def Accepted (rt : Runtime) (document : ResumeDocument) : Prop :=
  ∃ payload : Json, payload.WellKeyed ∧ validateDocument rt payload = .ok document

end ManifestCV.Document
