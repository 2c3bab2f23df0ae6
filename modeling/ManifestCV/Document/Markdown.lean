import ManifestCV.Document.Canonical
import ManifestCV.Foundation.JsonKeys

namespace ManifestCV.Document

open Foundation

/-- `re.match(r"^#{1,3}\s+(.+)$", line)` for a stripped line: the heading's text. -/
def headingText (line : Str) : Option Str :=
  let hashes := line.takeWhile (· = '#')
  let rest := line.dropWhile (· = '#')
  if 1 ≤ hashes.length ∧ hashes.length ≤ 3 ∧ rest.head?.any isSpace ∧ (lstrip rest) ≠ [] then
    some (strip rest)
  else none

abbrev Sections := List (Str × List Str)

def addLines (sections : Sections) (name : Str) (lines : List Str) : Sections :=
  if sections.any (·.1 = name) then
    sections.map fun item => if item.1 = name then (item.1, item.2 ++ lines) else item
  else sections ++ [(name, lines)]

def readLine (rt : Runtime) (state : Str × Sections) (line : Str) : Str × Sections :=
  let (current, sections) := state
  let line := strip line
  match headingText line with
  | some heading =>
    let current := rt.lower (strip heading)
    (current, addLines sections current [])
  | none =>
    if line.isEmpty then state else (current, addLines sections current [lstripChars "-* ".toList line])

def readSections (rt : Runtime) (markdown : Str) : Sections :=
  ((splitlines markdown).foldl (readLine rt) ("summary".toList, [("summary".toList, [])])).2

def sectionFor (rt : Runtime) (sections : Sections) (title type : Str) : List Str :=
  let candidates := [rt.lower title, replaceChar '_' " ".toList type]
  let matching := sections.find? fun item => candidates.any fun candidate => occursIn candidate item.1 ||
    occursIn item.1 candidate
  match matching with
  | some item => item.2
  | none => (sections.lookup []).getD []

def bulletTypes : List Str :=
  ["experience".toList, "project".toList, "skills".toList, "custom_list".toList]

def sectionContent (type : Str) (lines : List Str) : Dict := [
  ("text".toList, .str (joinWith ['\n'] lines)),
  ("bullets".toList, strings (if bulletTypes.contains type then lines else []))]

/-- The title and type `markdown_to_blocks` reads of a block; `none` is a KeyError or an AttributeError. -/
def titleAndType (fields : Dict) : Option (Str × Str) :=
  match fields.lookup "title".toList, fields.lookup "type".toList with
  | some (.str title), some (.str type) => some (title, type)
  | _, _ => none

def fillBlock (rt : Runtime) (sections : Sections) : Json → Option Json
  | .obj fields =>
    (titleAndType fields).map fun (title, type) =>
      .obj (dictInsert fields "content".toList
        (.obj (sectionContent type (sectionFor rt sections title type))))
  | _ => none

def markdownToBlocks (rt : Runtime) (markdown : Str) (existing : List Json) : Option (List Json) :=
  existing.mapM (fillBlock rt (readSections rt markdown))

def structuredDocument (rt : Runtime) (generated : Str) : Json → Option Json
  | .obj fields =>
    match fields.lookup "blocks".toList with
    | some (.arr existing) =>
      (markdownToBlocks rt generated existing).map fun blocks =>
        .obj (dictInsert fields "blocks".toList (.arr blocks))
    | _ => none
  | _ => none

/-- A text that some writer may store: the sorted dump of a document that the schema accepts. -/
def Stored (rt : Runtime) (text : Str) : Prop :=
  ∃ payload document, payload.WellKeyed ∧ validateDocument rt payload = .ok document ∧
    text = dumps rt.floats payload

theorem Stored.loads {rt : Runtime} {text : Str} (stored : Stored rt text) :
    ∃ payload document, payload.WellKeyed ∧ validateDocument rt payload = .ok document ∧
      loads rt.floats text = some payload := by
  obtain ⟨payload, document, keyed, accepted, rfl⟩ := stored
  exact ⟨payload.normalize, document.sorted, Json.normalize_wellKeyed payload keyed,
    validateDocument_normalize keyed accepted, loads_dumps rt.floats keyed⟩

theorem Stored.reads {rt : Runtime} {text : Str} (stored : Stored rt text) :
    ∃ document, readDocument rt text = some document := by
  obtain ⟨payload, document, _, accepted, loaded⟩ := stored.loads
  exact ⟨document, by simp only [readDocument, loaded, accepted]⟩

theorem storedText_stored {rt : Runtime} {payload : Json} {document : ResumeDocument}
    (keyed : payload.WellKeyed) (accepted : validateDocument rt payload = .ok document) :
    Stored rt (storedText rt document) := by
  obtain ⟨valid, blocks⟩ := validateDocument_sound keyed accepted
  exact ⟨modelDump document, document.reloaded, modelDump_wellKeyed blocks, validateDocument_dump valid, rfl⟩

end ManifestCV.Document
