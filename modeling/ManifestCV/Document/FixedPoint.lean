import ManifestCV.Document.Markdown

namespace ManifestCV.Document

open Foundation

variable {rt : Runtime}

theorem dumpBlock_canonical (block : ResumeBlock) :
    (dumpBlock block.canonical).normalize = (dumpBlock block).normalize := by
  have content : (Json.obj block.canonical.content).normalize = (Json.obj block.content).normalize := by
    show Json.normalize (Json.normalize (.obj block.content)) = _
    exact Json.normalize_normalize _
  have style : (Json.obj (block.canonical.style.map fun item => (item.1, Json.str item.2))).normalize =
      (Json.obj (block.style.map fun item => (item.1, Json.str item.2))).normalize := by
    show (Json.obj ((block.style.insertionSort styleOrder).map fun item =>
      (item.1, Json.str item.2))).normalize = _
    rw [← sortKeys_map_str]
    exact Json.normalize_normalize (.obj _)
  simp only [dumpBlock, Json.normalize, Json.normalizeFields, Json.obj.injEq] at content style ⊢
  rw [content, style]
  rfl

theorem storedText_canonical (document : ResumeDocument) :
    storedText rt document.canonical = storedText rt document := by
  have blocks : (Json.arr (document.canonical.blocks.map dumpBlock)).normalize =
      (Json.arr (document.blocks.map dumpBlock)).normalize := by
    simp only [Json.normalize, Json.normalizeItems_eq, ResumeDocument.canonical, ResumeDocument.sorted,
      ResumeDocument.reloaded, List.map_map, Json.arr.injEq]
    apply List.map_congr_left
    intro block _
    exact dumpBlock_canonical block
  have whole : (modelDump document.canonical).normalize = (modelDump document).normalize := by
    simp only [modelDump, Json.normalize, Json.normalizeFields, Json.obj.injEq] at blocks ⊢
    rw [blocks]
    rfl
  rw [storedText, storedText, dumps, dumps, whole]

/-- Parsing, validating and dumping the text that is stored for an accepted payload gives that text. -/
theorem storedText_fixed {payload : Json} {document : ResumeDocument} (keyed : payload.WellKeyed)
    (accepted : validateDocument rt payload = .ok document) :
    ∃ fields restored, loads rt.floats (storedText rt document) = some (.obj fields) ∧
      validateDocument rt (.obj fields) = .ok restored ∧ storedText rt restored = storedText rt document := by
  obtain ⟨valid, blocks⟩ := validateDocument_sound keyed accepted
  have loaded := loads_dumps rt.floats (modelDump_wellKeyed blocks)
  have back := validateDocument_normalize (modelDump_wellKeyed blocks) (validateDocument_dump valid)
  rw [modelDump, Json.normalize] at back
  exact ⟨_, document.canonical, loaded, back, storedText_canonical document⟩

def Canonical (rt : Runtime) (text : Str) : Prop :=
  ∃ payload document, payload.WellKeyed ∧ validateDocument rt payload = .ok document ∧
    text = storedText rt document

def RestoredFrom (rt : Runtime) (source text : Str) : Prop :=
  ∃ payload document, loads rt.floats source = some payload ∧ validateDocument rt payload = .ok document ∧
    text = storedText rt document

theorem Canonical.fixed {text : Str} (canonical : Canonical rt text) :
    ∃ fields document, loads rt.floats text = some (.obj fields) ∧ validateDocument rt (.obj fields) =
      .ok document ∧
      storedText rt document = text := by
  obtain ⟨payload, document, keyed, accepted, rfl⟩ := canonical
  exact storedText_fixed keyed accepted

theorem Canonical.restored {source text : Str} (canonical : Canonical rt source)
    (restored : RestoredFrom rt source text) :
    text = source := by
  obtain ⟨fields, document, loaded, accepted, same⟩ := canonical.fixed
  obtain ⟨payload, other, loaded', accepted', rfl⟩ := restored
  cases Option.some.inj (loaded.symm.trans loaded')
  cases Except.ok.inj (accepted.symm.trans accepted')
  exact same

end ManifestCV.Document
