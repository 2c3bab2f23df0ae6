import ManifestCV.Foundation.PdfTables
import ManifestCV.Document.Plain
import ManifestCV.Render.PdfDocument

namespace ManifestCV.Render

open Foundation Document Pdf

theorem mem_pageObjects {stream : Bytes} {streams : List Bytes} (member : stream ∈ streams)
    (document : ResumeDocument) (pagesId fontId contentId : Nat) :
    .stream (streamEntries stream) stream ∈ pageObjects document pagesId fontId contentId streams := by
  induction streams generalizing contentId with
  | nil => cases member
  | cons first streams ih =>
    rcases List.mem_cons.mp member with rfl | member
    · exact List.mem_cons_self
    · exact List.mem_cons_of_mem _ (List.mem_cons_of_mem _ (ih member (contentId + 2)))

/-- The tables of an accepted document's PDF are exact: each page stream is one of its objects. -/
theorem renderDocumentPdf_tables (rt : Runtime) (document : ResumeDocument)
    (accepted : Accepted rt document) :
    ∃ pdf streams, renderDocumentPdf rt document = some pdf ∧ pageStreams rt document = some streams ∧
      (pdf.length < 10 ^ 10 → ∃ objects start root entries, ExactTables pdf objects start root entries ∧
        ∀ stream ∈ streams, ∃ dict, .stream dict stream ∈ objects) := by
  obtain ⟨payload, keyed, parsed⟩ := accepted
  have drawn := pageStreams_accepted (validateDocument_sound keyed parsed).1
  refine ⟨_, _, renderDocumentPdf_writeFile drawn, drawn, fun small => ?_⟩
  obtain ⟨start, entries, tables⟩ := writeFile_tables (pdfObjects_sound 1 document _) small
  exact ⟨_, start, _, entries, tables, fun stream member =>
    ⟨_, List.mem_append_left _ (mem_pageObjects member document _ _ _)⟩⟩

theorem renderDocumentPdf_tables_onePager : ∃ pdf streams,
    renderDocumentPdf plainRuntime (onePager "Engineer".toList) = some pdf ∧
      pageStreams plainRuntime (onePager "Engineer".toList) = some streams ∧
      (pdf.length < 10 ^ 10 → ∃ objects start root entries, ExactTables pdf objects start root entries ∧
        ∀ stream ∈ streams, ∃ dict, .stream dict stream ∈ objects) :=
  renderDocumentPdf_tables plainRuntime _ onePager_accepted

end ManifestCV.Render
