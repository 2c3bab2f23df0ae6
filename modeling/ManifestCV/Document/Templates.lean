import ManifestCV.Document.Markdown

namespace ManifestCV.Document

open Foundation

def templateBlock (blockId type title : String) : Json := .obj [
  ("id".toList, .str blockId.toList),
  ("type".toList, .str type.toList),
  ("title".toList, .str title.toList),
  ("visible".toList, .bool true),
  ("content".toList, .obj [])]

def templateColumn (id : String) (width minWidth maxWidth : Json) (sectionIds : List String) : Json := .obj [
  ("id".toList, .str id.toList),
  ("width".toList, width),
  ("min_width".toList, minWidth),
  ("max_width".toList, maxWidth),
  ("section_ids".toList, strings (sectionIds.map String.toList))]

def templatePayload (style : Dict) (blocks columns : List Json) : Json := .obj [
  ("schema_version".toList, .int 1),
  ("paper".toList, .str "a4".toList),
  ("style".toList, .obj style),
  ("blocks".toList, .arr blocks),
  ("pages".toList, .arr [.obj [
    ("id".toList, .str "page-1".toList),
    ("rows".toList, .arr [.obj [("id".toList, .str "row-1".toList), ("columns".toList, .arr columns)]])]])]

def fraction (numerator denominator : Nat) : Json := .float (Double.ofRat (numerator / denominator))

def classicSingleColumn : Json :=
  templatePayload [("accent_color".toList, .str "#2563eb".toList)]
    [templateBlock "profile" "profile_header" "Profile", templateBlock "summary" "summary" "Summary",
      templateBlock "experience" "experience" "Experience", templateBlock "projects" "project" "Projects",
      templateBlock "education" "education" "Education", templateBlock "skills" "skills" "Skills",
      templateBlock "custom" "custom_text" "Additional information"]
    [templateColumn "main" (.int 1) (.int 1) (.int 1)
      ["profile", "summary", "experience", "projects", "education", "skills", "custom"]]

def modernSidebar : Json :=
  templatePayload [("accent_color".toList, .str "#0f766e".toList)]
    [templateBlock "profile" "profile_header" "Profile", templateBlock "contact" "contact" "Contact",
      templateBlock "skills" "skills" "Skills", templateBlock "summary" "summary" "Summary",
      templateBlock "experience" "experience" "Experience", templateBlock "projects" "project" "Projects",
      templateBlock "education" "education" "Education"]
    [templateColumn "sidebar" (fraction 32 100) (fraction 24 100) (fraction 45 100)
        ["profile", "contact", "skills"],
      templateColumn "main" (fraction 68 100) (fraction 55 100) (fraction 76 100)
        ["summary", "experience", "projects", "education"]]

def compactTechnical : Json :=
  templatePayload
    [("font_family".toList, .str "source_sans".toList), ("font_size".toList, fraction 95 10),
      ("accent_color".toList, .str "#7c3aed".toList), ("text_color".toList, .str "#1f2937".toList),
      ("margin".toList, fraction 5 10), ("spacing".toList, fraction 75 100),
        ("density".toList, .str "compact".toList)]
    [templateBlock "profile" "profile_header" "Profile", templateBlock "summary" "summary" "Summary",
      templateBlock "skills" "skills" "Technical skills",
        templateBlock "experience" "experience" "Experience",
      templateBlock "projects" "project" "Selected projects",
        templateBlock "education" "education" "Education",
      templateBlock "certifications" "certifications" "Certifications"]
    [templateColumn "main" (.int 1) (.int 1) (.int 1)
      ["profile", "summary", "skills", "experience", "projects", "education", "certifications"]]

def academic : Json :=
  templatePayload
    [("font_family".toList, .str "georgia".toList), ("font_size".toList, .int 10),
      ("accent_color".toList, .str "#374151".toList), ("text_color".toList, .str "#111827".toList),
      ("margin".toList, fraction 7 10), ("spacing".toList, .int 1),
        ("density".toList, .str "comfortable".toList)]
    [templateBlock "profile" "profile_header" "Profile", templateBlock "summary" "summary" "Research focus",
      templateBlock "education" "education" "Education", templateBlock "experience" "experience" "Experience",
      templateBlock "publications" "publications" "Publications",
        templateBlock "awards" "awards" "Awards and grants",
      templateBlock "skills" "skills" "Skills", templateBlock "languages" "languages" "Languages"]
    [templateColumn "main" (.int 1) (.int 1) (.int 1)
      ["profile", "summary", "education", "experience", "publications", "awards", "skills", "languages"]]

def templates : Dict := [
  ("classic_single_column".toList, classicSingleColumn),
  ("modern_sidebar".toList, modernSidebar),
  ("compact_technical".toList, compactTechnical),
  ("academic".toList, academic)]

/-- `template_document`; `none` is the KeyError of an unknown key. -/
def templateDocument (rt : Runtime) (key : Str) : Option (Checked ResumeDocument) :=
  (templates.lookup key).map (validateDocument rt)

theorem templateBlock_wellKeyed (blockId type title : String) :
    (templateBlock blockId type title).WellKeyed := by
  have names : (["id", "type", "title", "visible", "content"].map String.toList).Nodup := by decide
  exact ⟨names, trivial, trivial, trivial, trivial, ⟨List.nodup_nil, trivial⟩, trivial⟩

theorem templateColumn_wellKeyed (id : String) {width minWidth maxWidth : Json} (sectionIds : List String)
    (first : width.WellKeyed) (second : minWidth.WellKeyed) (third : maxWidth.WellKeyed) :
    (templateColumn id width minWidth maxWidth sectionIds).WellKeyed := by
  have names : (columnFields).Nodup := by decide
  exact ⟨names, trivial, first, second, third, strings_wellKeyed _, trivial⟩

theorem templatePayload_wellKeyed {style : Dict} {blocks columns : List Json}
    (styleKeyed : (Json.obj style).WellKeyed) (blocksKeyed : ∀ block ∈ blocks, block.WellKeyed)
    (columnsKeyed : ∀ column ∈ columns, column.WellKeyed) :
    (templatePayload style blocks columns).WellKeyed := by
  have names : (["schema_version", "paper", "style", "blocks", "pages"].map String.toList).Nodup := by decide
  have rowNames : (["id", "columns"].map String.toList).Nodup := by decide
  have pageNames : (["id", "rows"].map String.toList).Nodup := by decide
  have columnsArr : Json.WellKeyedItems columns := (Json.wellKeyedItems_iff _).mpr columnsKeyed
  refine ⟨names, trivial, trivial, styleKeyed, (Json.wellKeyedItems_iff _).mpr blocksKeyed, ?_, trivial⟩
  exact ⟨⟨pageNames, trivial, ⟨⟨rowNames, trivial, columnsArr, trivial⟩, trivial⟩, trivial⟩, trivial⟩

theorem templates_wellKeyed : ∀ entry ∈ templates, entry.2.WellKeyed := by
  have style : ∀ fields : Dict, (fields.map Prod.fst).Nodup → (∀ field ∈ fields, field.2.WellKeyed) →
      (Json.obj fields).WellKeyed := by
    intro fields names each
    exact ⟨names, (Json.wellKeyedFields_iff _).mpr each⟩
  have decimals : ∀ numerator denominator : Nat, (fraction numerator denominator).WellKeyed :=
    fun _ _ => trivial
  have column : ∀ id sectionIds, (templateColumn id (.int 1) (.int 1) (.int 1) sectionIds).WellKeyed :=
    fun id sectionIds => templateColumn_wellKeyed id sectionIds trivial trivial trivial
  simp only [templates, List.forall_mem_cons]
  refine ⟨?_, ?_, ?_, ?_, fun _ member => (nomatch member)⟩
  · exact templatePayload_wellKeyed (style _ (by decide) (by simp [Json.WellKeyed]))
      (by simp [templateBlock_wellKeyed])
      (by simp [column])
  · exact templatePayload_wellKeyed (style _ (by decide) (by simp [Json.WellKeyed]))
      (by simp [templateBlock_wellKeyed])
      (by simp [templateColumn_wellKeyed, decimals])
  · exact templatePayload_wellKeyed (style _ (by decide) (by simp [Json.WellKeyed, decimals]))
      (by simp [templateBlock_wellKeyed]) (by simp [column])
  · exact templatePayload_wellKeyed (style _ (by decide) (by simp [Json.WellKeyed, decimals]))
      (by simp [templateBlock_wellKeyed]) (by simp [column])

end ManifestCV.Document
