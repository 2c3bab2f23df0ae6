import ManifestCV.Document.Schema

namespace ManifestCV.Render

open Foundation Document

structure Line where
  text : Str
  heading : Bool := false
  deriving DecidableEq

/-- A row, or the part of a row on one page; a column's label stands for its width. -/
structure PageRow (ω : Type) where
  columns : List (ω × List Line)
  deriving DecidableEq

def str (rt : Runtime) (value : Json) : Str := value.toStr rt.floats rt.isPrintable

def contentLines (rt : Runtime) : Json → List Line
  | .str value =>
    if (strip value).isEmpty then []
    else ((splitlines value).filter fun text => !(strip text).isEmpty).map fun text => { text }
  | .arr items =>
    (items.filter fun item => !(strip (str rt item)).isEmpty).map fun item =>
      { text := "- ".toList ++ str rt item }
  | _ => []

def wrapLine (rt : Runtime) (maxChars : Nat) (line : Line) : List Line :=
  let chunks := if (rt.wrap line.text maxChars).isEmpty then [[]] else rt.wrap line.text maxChars
  chunks.mapIdx fun index text => { text, heading := line.heading && index == 0 }

def blockLines (rt : Runtime) (block : ResumeBlock) (maxChars : Nat) : List Line :=
  let lines := { text := block.title, heading := true } :: block.content.flatMap fun field =>
    contentLines rt field.2
  lines.flatMap (wrapLine rt maxChars) ++ [{ text := [] }]

def findBlock (document : ResumeDocument) (id : Str) : Option ResumeBlock :=
  document.blocks.reverse.find? (·.id = id)

def sectionLines (rt : Runtime) (document : ResumeDocument) (maxChars : Nat) (id : Str) :
    Option (List Line) :=
  (findBlock document id).map fun block => if block.visible then blockLines rt block maxChars else []

def columnLines (rt : Runtime) (document : ResumeDocument) (maxChars : Nat) (column : ResumeColumn) :
    Option (List Line) :=
  (column.sectionIds.mapM (sectionLines rt document maxChars)).map List.flatten

def rowLines (rt : Runtime) (document : ResumeDocument) (maxChars : Nat) (row : ResumeRow) :
    Option (PageRow Double) :=
  (row.columns.mapM fun column => (columnLines rt document maxChars column).map (column.width, ·)).map (⟨·⟩)

end ManifestCV.Render
