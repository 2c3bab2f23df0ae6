import ManifestCV.Document.Markdown
import ManifestCV.Foundation.Lists
import ManifestCV.Editor.Store

namespace ManifestCV.Editor

open Foundation Document

structure EditorColumn (K : Type) where
  id : Str
  width : K
  minWidth : K
  maxWidth : K
  sectionIds : List Str

structure EditorRow (K : Type) where
  id : Str
  columns : List (EditorColumn K)

structure EditorPage (K : Type) where
  id : Str
  rows : List (EditorRow K)

/-- `ResumeDocument`; a block without `style` or `source_ids` has them empty. -/
structure EditorDocument (K : Type) where
  paper : Paper
  pages : List (EditorPage K)
  blocks : List ResumeBlock
  style : ResumeStyle

section Columns

variable {K : Type}

def EditorColumn.setSectionIds (column : EditorColumn K) (sectionIds : List Str) : EditorColumn K :=
  { column with sectionIds }

def EditorColumn.push (blockId : Str) (column : EditorColumn K) : EditorColumn K :=
  column.setSectionIds (column.sectionIds ++ [blockId])

def EditorColumn.remove (blockId : Str) (column : EditorColumn K) : EditorColumn K :=
  column.setSectionIds (column.sectionIds.filter (· ≠ blockId))

abbrev Place := Nat × Nat × Nat

def cells (pages : List (EditorPage K)) : List (Place × EditorColumn K) :=
  pages.zipIdx.flatMap fun (page, i) => page.rows.zipIdx.flatMap fun (row, j) =>
    row.columns.zipIdx.map fun (column, k) => ((i, j, k), column)

def columnsOf (pages : List (EditorPage K)) : List (EditorColumn K) :=
  pages.flatMap fun page => page.rows.flatMap (·.columns)

def modifyColumn (pages : List (EditorPage K)) (place : Place) (f : EditorColumn K → EditorColumn K) :
    List (EditorPage K) :=
  pages.modify place.1 fun page => { page with
    rows := page.rows.modify place.2.1 fun row => { row with columns := row.columns.modify place.2.2 f } }

def mapColumns (f : EditorColumn K → EditorColumn K) (pages : List (EditorPage K)) : List (EditorPage K) :=
  pages.map fun page =>
    { page with rows := page.rows.map fun row => { row with columns := row.columns.map f } }

def modifyFirstRow (f : EditorRow K → Option (EditorRow K)) (pages : List (EditorPage K)) :
    Option (List (EditorPage K)) :=
  modifyFirst (fun page => (modifyFirst f page.rows).map fun rows => { page with rows }) pages

end Columns

inductive Direction where
  | up
  | down
  | left
  | right

def capitalize (inWord : Bool) : Str → Str
  | [] => []
  | c :: rest =>
    let word := c.isAlphanum || c = '_'
    (if word && !inWord then c.toUpper else c) :: capitalize word rest

def labelFor (key : Str) : Str := capitalize false (replaceChar '_' [' '] key)

abbrev ColorValue := { value : Str // isColor value = true }

inductive StyleInput where
  | fontFamily (value : FontFamily)
  | accentColor (value : ColorValue)
  | textColor (value : ColorValue)
  | paper (value : Paper)
  | spacing (value : Double)

inductive Entered where
  | text (value : Str)
  | lines (value : List Str)

def Entered.value : Entered → Json
  | .text value => .str value
  | .lines value => strings value

structure Patch where
  title : Option Str
  content : Option Dict
  visible : Option Bool

def patchBlock (block : ResumeBlock) (patch : Patch) : ResumeBlock :=
  { block with
    title := patch.title.getD block.title
    content := patch.content.getD block.content
    visible := patch.visible.getD block.visible }

namespace EditorDocument

variable {K : Type}

def blockIds (document : EditorDocument K) : List Str := document.blocks.map (·.id)

def references (document : EditorDocument K) : List Str := (columnsOf document.pages).flatMap (·.sectionIds)

def swapInColumn (direction : Direction) (column : EditorColumn K) (index : Nat) : EditorColumn K :=
  let next := match direction with
    | .up => if index = 0 then none else some (index - 1)
    | _ => some (index + 1)
  match column.sectionIds[index]?, next.bind fun next => column.sectionIds[next]?.map ((next, ·)) with
  | some here, some (next, there) => column.setSectionIds ((column.sectionIds.set index there).set next here)
  | _, _ => column

def moveInRow (blockId : Str) (direction : Direction) (row : EditorRow K) : Option (EditorRow K) :=
  match row.columns.findIdx? (·.sectionIds.contains blockId) with
  | none => none
  | some columnIndex =>
    match row.columns[columnIndex]? with
    | none => none
    | some column =>
      let index := column.sectionIds.idxOf blockId
      match direction with
      | .up | .down => some { row with
          columns := row.columns.set columnIndex (swapInColumn direction column index) }
      | .left | .right =>
        let neighbor := match direction with
          | .left => if columnIndex = 0 then none else some (columnIndex - 1)
          | _ => some (columnIndex + 1)
        match neighbor.bind fun target => row.columns[target]?.map ((target, ·)) with
        | none => some row
        | some (targetIndex, target) => some { row with
            columns := (row.columns.set columnIndex
              (column.setSectionIds (column.sectionIds.eraseIdx index))).set targetIndex
              (target.push blockId) }

def move (blockId : Str) (direction : Direction) (document : EditorDocument K) : EditorDocument K :=
  match modifyFirstRow (moveInRow blockId direction) document.pages with
  | some pages => { document with pages }
  | none => document

def moveToColumn (blockId columnId : Str) (document : EditorDocument K) : EditorDocument K :=
  let source := ((cells document.pages).filter (·.2.sectionIds.contains blockId)).getLast?
  let target := (cells document.pages).find? (·.2.id = columnId)
  match source, target with
  | some (source, _), some (target, _) =>
    if source = target then document
    else { document with
      pages := modifyColumn (modifyColumn document.pages source (·.remove blockId)) target (·.push blockId) }
  | _, _ => document

def resizeInRow [LinearOrder K] [Sub K] (columnId : Str) (width : K) (row : EditorRow K) :
    Option (EditorRow K) :=
  match row.columns.findIdx? (·.id = columnId) with
  | none => none
  | some index =>
    if row.columns.length < 2 then none
    else
      let beside := if index = row.columns.length - 1 then index - 1 else index + 1
      match row.columns[index]?, row.columns[beside]? with
      | some column, some neighbor =>
        let nextWidth := max column.minWidth (min column.maxWidth width)
        let neighborWidth := neighbor.width - (nextWidth - column.width)
        if neighborWidth < neighbor.minWidth ∨ neighbor.maxWidth < neighborWidth then some row
        else some { row with
          columns := (row.columns.set index { column with width := nextWidth }).set beside
            { neighbor with width := neighborWidth } }
      | _, _ => none

def resizeColumn [LinearOrder K] [Sub K] (columnId : Str) (width : K) (document : EditorDocument K) :
    EditorDocument K :=
  match modifyFirstRow (resizeInRow columnId width) document.pages with
  | some pages => { document with pages }
  | none => document

def newBlockId (now : Nat) : Str := "custom-".toList ++ decimal now

def newBlock (type : BlockType) (now : Nat) : ResumeBlock where
  id := newBlockId now
  type := type
  title := labelFor (blockType.text type)
  visible := true
  content := match type with
    | .customList => [("bullets".toList, .arr [.str []])]
    | .divider => []
    | _ => [("text".toList, .str [])]
  style := []
  sourceIds := []

def addBlock (type : BlockType) (now : Nat) (document : EditorDocument K) : EditorDocument K :=
  { document with
    blocks := document.blocks ++ [newBlock type now]
    pages := modifyColumn document.pages (0, 0, 0) (·.push (newBlockId now)) }

def newRow [One K] (now later : Nat) : EditorRow K where
  id := "row-".toList ++ decimal now
  columns := [⟨"column-".toList ++ decimal later, 1, 1, 1, []⟩]

def addRow [One K] (now later : Nat) (document : EditorDocument K) : EditorDocument K :=
  { document with
    pages := document.pages.modify 0 fun page => { page with rows := page.rows ++ [newRow now later] } }

def copyId (now : Nat) : Str := "copy-".toList ++ decimal now

def insertAfter (blockId new : Str) (column : EditorColumn K) : EditorColumn K :=
  match column.sectionIds.idxOf? blockId with
  | some index => column.setSectionIds (column.sectionIds.insertIdx (index + 1) new)
  | none => column

def duplicate (selected : ResumeBlock) (now : Nat) (document : EditorDocument K) : EditorDocument K :=
  { document with
    blocks := document.blocks ++
      [{ selected with id := copyId now, title := selected.title ++ " copy".toList }]
    pages := mapColumns (insertAfter selected.id (copyId now)) document.pages }

def remove (blockId : Str) (document : EditorDocument K) : EditorDocument K :=
  { document with
    blocks := document.blocks.filter (·.id ≠ blockId)
    pages := mapColumns (·.remove blockId) document.pages }

def editBlock (selectedId : Option Str) (patch : Patch) (document : EditorDocument K) : EditorDocument K :=
  { document with
    blocks := document.blocks.map fun block => if some block.id = selectedId then patchBlock block patch
      else block }

def applyStyle (document : EditorDocument K) : StyleInput → EditorDocument K
  | .fontFamily value => { document with style := { document.style with fontFamily := value } }
  | .accentColor value => { document with style := { document.style with accentColor := value.val } }
  | .textColor value => { document with style := { document.style with textColor := value.val } }
  | .paper value => { document with paper := value }
  | .spacing value => { document with style := { document.style with spacing := .float value } }

end EditorDocument

def exactColumn (column : ResumeColumn) : EditorColumn ℚ :=
  ⟨column.id, column.width.val, column.minWidth.val, column.maxWidth.val, column.sectionIds⟩

def exactRow (row : ResumeRow) : EditorRow ℚ := ⟨row.id, row.columns.map exactColumn⟩

def exactPage (page : ResumePage) : EditorPage ℚ := ⟨page.id, page.rows.map exactRow⟩

def exact (document : ResumeDocument) : EditorDocument ℚ :=
  ⟨document.paper, document.pages.map exactPage, document.blocks, document.style⟩

inductive Operation (K : Type) where
  | move (blockId : Str) (direction : Direction)
  | moveToColumn (blockId columnId : Str)
  | resizeColumn (columnId : Str) (width : K)
  | addBlock (type : BlockType) (now : Nat)
  | addRow (now later : Nat)
  | duplicateSelected (now : Nat)
  | removeSelected
  | editBlock (patch : Patch)
  | editContent (key : Str) (value : Entered)
  | style (input : StyleInput)
  | undo
  | redo
  | select (id : Option Str)

variable {K : Type}

abbrev Draft (K : Type) := EditorState (EditorDocument K)

def updateDocument (approved : Bool) (draft : Draft K) (change : EditorDocument K → EditorDocument K) :
    Draft K :=
  if approved then draft else draft.update change

def selectedBlock (draft : Draft K) : Option ResumeBlock :=
  match draft.document with
  | some document => document.blocks.find? fun block => some block.id = draft.selectedId
  | none => none

def duplicateSelected (approved : Bool) (now : Nat) (draft : Draft K) : Draft K :=
  match selectedBlock draft with
  | some selected => updateDocument approved draft (·.duplicate selected now)
  | none => draft

def removeSelected (approved : Bool) (draft : Draft K) : Draft K :=
  match draft.document, draft.selectedId with
  | some document, some selectedId =>
    if selectedId = [] ∨ document.blocks.length ≤ 1 ∨ approved then draft
    else (updateDocument approved draft (·.remove selectedId)).select none
  | _, _ => draft

def editBlock (approved : Bool) (patch : Patch) (draft : Draft K) : Draft K :=
  updateDocument approved draft (·.editBlock draft.selectedId patch)

def editContent (approved : Bool) (key : Str) (value : Entered) (draft : Draft K) : Draft K :=
  let content := ((selectedBlock draft).map (·.content)).getD []
  editBlock approved ⟨none, some (dictInsert content key value.value), none⟩ draft

/-- Undo and redo are disabled in an approved workspace. -/
def operate [LinearOrder K] [Sub K] [One K] (approved : Bool) (draft : Draft K) : Operation K → Draft K
  | .move blockId direction => updateDocument approved draft (·.move blockId direction)
  | .moveToColumn blockId columnId => updateDocument approved draft (·.moveToColumn blockId columnId)
  | .resizeColumn columnId width => updateDocument approved draft (·.resizeColumn columnId width)
  | .addBlock type now => updateDocument approved draft (·.addBlock type now)
  | .addRow now later => updateDocument approved draft (·.addRow now later)
  | .duplicateSelected now => duplicateSelected approved now draft
  | .removeSelected => removeSelected approved draft
  | .editBlock patch => editBlock approved patch draft
  | .editContent key value => editContent approved key value draft
  | .style input => updateDocument approved draft (·.applyStyle input)
  | .undo => if approved then draft else draft.undoChange
  | .redo => if approved then draft else draft.redoChange
  | .select id => draft.select id

end ManifestCV.Editor
