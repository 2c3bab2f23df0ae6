import ManifestCV.Document.Plain
import ManifestCV.Editor.Operations

namespace ManifestCV.Editor

open Foundation Document

instance : LinearOrder Double := LinearOrder.lift' Double.val fun _ _ same => Double.ext same

instance : Sub Double := ⟨Double.sub⟩

instance : One Double := ⟨Double.ofInt 1⟩

def openedColumn (column : ResumeColumn) : EditorColumn Double :=
  ⟨column.id, column.width, column.minWidth, column.maxWidth, column.sectionIds⟩

def openedRow (row : ResumeRow) : EditorRow Double := ⟨row.id, row.columns.map openedColumn⟩

def openedPage (page : ResumePage) : EditorPage Double := ⟨page.id, page.rows.map openedRow⟩

def opened (document : ResumeDocument) : EditorDocument Double :=
  ⟨document.paper, document.pages.map openedPage, document.blocks, document.style⟩

section Limits

def Within (low high n : Nat) : Prop := low ≤ n ∧ n ≤ high

def InUnit (x : Double) : Prop := 0 < x.val ∧ x.val ≤ 1

def printed (rt : Runtime) (value : Json) : Nat := (value.repr rt.floats rt.isPrintable).length

mutual
def measured (depth : Nat) (value : Json) : Bool :=
  decide (depth ≤ maxDepth) &&
    match value with
    | .obj fields => decide (fields.length ≤ maxItems) && measuredFields (depth + 1) fields
    | .arr items => decide (items.length ≤ maxItems) && measuredItems (depth + 1) items
    | _ => true

def measuredItems (depth : Nat) : List Json → Bool
  | [] => true
  | item :: items => measured depth item && measuredItems depth items

def measuredFields (depth : Nat) : List (Str × Json) → Bool
  | [] => true
  | (_, value) :: fields => measured depth value && measuredFields depth fields
end

structure BoundedBlock (rt : Runtime) (block : ResumeBlock) : Prop where
  id : Within 1 80 block.id.length
  characters : block.id.all isIdChar = true
  title : Within 1 120 block.title.length
  sources : block.sourceIds.length ≤ 40
  size : printed rt (.obj block.content) ≤ maxText
  content : measured 0 (.obj block.content) = true
  style : measured 0 (.obj (block.style.map fun item => (item.1, .str item.2))) = true

structure EditorColumn.Bounded (most : Nat) (column : EditorColumn Double) : Prop where
  id : Editor.Within 1 80 column.id.length
  width : InUnit column.width
  minWidth : InUnit column.minWidth
  maxWidth : InUnit column.maxWidth
  sections : column.sectionIds.length ≤ most

structure EditorRow.Bounded (most : Nat) (row : EditorRow Double) : Prop where
  id : Editor.Within 1 80 row.id.length
  count : Editor.Within 1 4 row.columns.length
  columns : ∀ column ∈ row.columns, column.Bounded most

structure EditorPage.Bounded (most : Nat) (page : EditorPage Double) : Prop where
  id : Within 1 80 page.id.length
  count : Within 1 8 page.rows.length
  rows : ∀ row ∈ page.rows, row.Bounded most

structure EditorDocument.Bounded (rt : Runtime) (document : EditorDocument Double) : Prop where
  pageCount : Within 1 10 document.pages.length
  pages : ∀ page ∈ document.pages, page.Bounded maxBlocks
  blockCount : Within 1 maxBlocks document.blocks.length
  blocks : ∀ block ∈ document.blocks, BoundedBlock rt block
  style : Passes document.style.checks

end Limits

inductive Control where
  | addBlock (type : BlockType) (now : Nat)
  | addRow (now later : Nat)
  | duplicate (now : Nat)
  | heading (title : Str)
  | visibility (visible : Bool)
  | content (key : Str) (value : Entered)
  | style (input : StyleInput)

def Control.operation : Control → Operation Double
  | .addBlock type now => .addBlock type now
  | .addRow now later => .addRow now later
  | .duplicate now => .duplicateSelected now
  | .heading title => .editBlock ⟨some title, none, none⟩
  | .visibility visible => .editBlock ⟨none, none, some visible⟩
  | .content key value => .editContent key value
  | .style input => .style input

def maxTime : Nat := 8640000000000000

def Entered.suits : Entered → Json → Bool
  | .text _, .str _ => true
  | .lines _, .arr _ => true
  | _, _ => false

def offered (draft : Draft Double) : Control → Bool
  | .addBlock _ now => decide (now ≤ maxTime)
  | .addRow now later => decide (now ≤ maxTime ∧ later ≤ maxTime)
  | .duplicate now => decide (now ≤ maxTime)
  | .heading _ => (selectedBlock draft).isSome
  | .visibility _ => (selectedBlock draft).isSome
  | .content key value => (selectedBlock draft).any fun block => (block.content.lookup key).any value.suits
  | .style _ => true

section Opening

variable {rt : Runtime}

theorem depth_of_validated {value : Json} {depth : Nat} (accepted : validateContent rt depth value = .ok ()) :
    depth ≤ maxDepth := by
  unfold validateContent at accepted
  split at accepted
  · cases accepted
  · omega

mutual
theorem measured_of_validated : ∀ (value : Json) (depth : Nat), validateContent rt depth value = .ok () →
    measured depth value = true
  | .obj fields, depth, accepted => by
    rw [validateContent] at accepted
    rw [measured]
    split at accepted
    · cases accepted
    rename_i shallow
    split at accepted
    · cases accepted
    rename_i few
    simp only [not_lt.mp shallow, not_lt.mp few, decide_true, Bool.true_and]
    exact measuredFields_of_validated fields (depth + 1) accepted
  | .arr items, depth, accepted => by
    rw [validateContent] at accepted
    rw [measured]
    split at accepted
    · cases accepted
    rename_i shallow
    split at accepted
    · cases accepted
    rename_i few
    simp only [not_lt.mp shallow, not_lt.mp few, decide_true, Bool.true_and]
    exact measuredItems_of_validated items (depth + 1) accepted
  | .null, depth, accepted => by
    simp [measured, depth_of_validated accepted]
  | .bool _, depth, accepted => by
    simp [measured, depth_of_validated accepted]
  | .int _, depth, accepted => by
    simp [measured, depth_of_validated accepted]
  | .float _, depth, accepted => by
    simp [measured, depth_of_validated accepted]
  | .str _, depth, accepted => by
    simp [measured, depth_of_validated accepted]

theorem measuredItems_of_validated :
    ∀ (items : List Json) (depth : Nat), validateItems rt depth items = .ok () →
    measuredItems depth items = true
  | [], _, _ => rfl
  | item :: items, depth, accepted => by
    have each := (validateItems_ok rt depth (item :: items)).mp accepted
    have rest := (validateItems_ok rt depth items).mpr fun other member =>
      each other (List.mem_cons_of_mem _ member)
    simp only [measuredItems, measured_of_validated item depth (each item List.mem_cons_self),
      measuredItems_of_validated items depth rest, Bool.and_self]

theorem measuredFields_of_validated :
    ∀ (fields : List (Str × Json)) (depth : Nat), validateFields rt depth fields = .ok () →
    measuredFields depth fields = true
  | [], _, _ => rfl
  | (key, value) :: fields, depth, accepted => by
    have each := (validateFields_ok rt depth ((key, value) :: fields)).mp accepted
    have rest := (validateFields_ok rt depth fields).mpr fun other member =>
      each other (List.mem_cons_of_mem _ member)
    simp only [measuredFields, measured_of_validated value depth (each (key, value) List.mem_cons_self),
      measuredFields_of_validated fields depth rest, Bool.and_self]
end

theorem EditorColumn.Bounded.mono {most more : Nat} {column : EditorColumn Double}
    (bounded : column.Bounded most) (larger : most ≤ more) : column.Bounded more :=
  ⟨bounded.id, bounded.width, bounded.minWidth, bounded.maxWidth, bounded.sections.trans larger⟩

theorem EditorRow.Bounded.mono {most more : Nat} {row : EditorRow Double} (bounded : row.Bounded most)
    (larger : most ≤ more) :
    row.Bounded more := ⟨bounded.id, bounded.count, fun column member =>
      (bounded.columns column member).mono larger⟩

theorem EditorPage.Bounded.mono {most more : Nat} {page : EditorPage Double} (bounded : page.Bounded most)
    (larger : most ≤ more) :
    page.Bounded more := ⟨bounded.id, bounded.count, fun row member => (bounded.rows row member).mono larger⟩

end Opening

section Growing

variable {rt : Runtime} {most : Nat} {pages : List (EditorPage Double)}
  {f : EditorColumn Double → EditorColumn Double}

end Growing

section Controls

variable {rt : Runtime} {document : ResumeDocument}

end Controls

end ManifestCV.Editor
