import ManifestCV.Render.Crowded
import ManifestCV.Workspace.Catalogue

namespace ManifestCV.Workspace

open Foundation Foundation.Transactions Document Render

def sizeAssertion : Assertion Database Outside Phase Write where
  common _ outside := ∀ entry ∈ outside.storage, entry.2.length ≤ maxArtifactBytes
  own _ _ _ _ := True
  pair _ _ _ _ := True

theorem next_sizes {rt : Runtime} {db : Database} {outside : Outside} {phase : Phase} {input : Input}
    {effect : Effect Outside Phase Write} (step : Next rt db outside phase input effect)
    (small : ∀ entry ∈ outside.storage, entry.2.length ≤ maxArtifactBytes) :
    ∀ entry ∈ (effect.outside outside).storage, entry.2.length ≤ maxArtifactBytes := by
  cases step with
  | put fits => exact List.forall_mem_cons.mpr ⟨fits, small⟩
  | _ => exact small

theorem size_stable (rt : Runtime) : Stable (resumeSystem rt) Guard.free Assertion.trivial sizeAssertion where
  start _ small started := by
    cases started
    exact ⟨small, trivial⟩
  startOther _ _ _ _ := ⟨trivial, trivial, trivial⟩
  own _ _ small _ _ moves := by
    refine ⟨?_, trivial⟩
    cases moves with
    | read next => exact next_sizes (next_cases next) small
    | write next _ => exact next_sizes (next_cases next) small
    | refused _ _ => exact small
    | commit next => exact next_sizes (next_cases next) small
    | fail next => exact small
    | abort => exact small
  other _ _ _ _ _ _ _ _ _ _ _ _ _ := ⟨trivial, trivial, trivial⟩

theorem stored_sizes {rt : Runtime} {s : State Database Outside Phase Write} (reachable : Reachable rt s) :
    ∀ entry ∈ s.outside.storage, entry.2.length ≤ maxArtifactBytes :=
  (holds_idle_runs conflicts_symm (size_stable rt) (fun t _ => Assertion.trivial_holds t) rfl
    (by intro _ member; cases member) reachable).2.common

/-- A document is drawn within the limit as long as its lines fit their budget, which 140 000 printed
    characters always do; nothing over the limit is ever stored. -/
theorem drawn_within_limit (rt : Runtime) (document : ResumeDocument) (accepted : Accepted rt document) :
    ∃ pdf, renderDocumentPdf rt document = some pdf ∧
      (drawnBudget rt document ≤ maxArtifactBytes → pdf.length ≤ drawnBudget rt document) ∧
      (WrapsOnce rt → printedSize rt document ≤ 140000 → pdf.length ≤ maxArtifactBytes) ∧
      ∀ s, Reachable rt s → ∀ entry ∈ s.outside.storage, entry.2.length ≤ maxArtifactBytes := by
  obtain ⟨payload, keyed, parsed⟩ := accepted
  obtain ⟨valid, _⟩ := validateDocument_sound keyed parsed
  obtain ⟨pdf, drawn⟩ : ∃ pdf, renderDocumentPdf rt document = some pdf :=
    ⟨_, renderDocumentPdf_pages valid rfl⟩
  have bounded : drawnBudget rt document ≤ maxArtifactBytes → pdf.length ≤ drawnBudget rt document := by
    intro fits
    obtain ⟨other, same, short⟩ := pdf_length_le valid (le_trans fits (by decide))
    rw [drawn] at same
    exact Option.some.inj same ▸ short
  refine ⟨pdf, drawn, bounded, fun wraps few => ?_, fun s reachable => stored_sizes reachable⟩
  have budget : drawnBudget rt document ≤ maxArtifactBytes := by
    have printed := drawnBudget_le wraps valid
    have limit : maxArtifactBytes = 10485760 := rfl
    omega
  exact le_trans (bounded budget) budget

theorem drawn_within_limit_onePager :
    ∃ pdf, renderDocumentPdf plainRuntime (onePager "Engineer".toList) = some pdf ∧
    pdf.length ≤ maxArtifactBytes := by
  obtain ⟨pdf, drawn, _, small, _⟩ := drawn_within_limit plainRuntime _ onePager_accepted
  exact ⟨pdf, drawn, small plainRuntime_wrapsOnce (by decide)⟩

theorem crowded_oversize : Accepted plainRuntime crowded ∧
    ∃ pdf, renderDocumentPdf plainRuntime crowded = some pdf ∧ maxArtifactBytes < pdf.length := by
  obtain ⟨pdf, drawn, long⟩ := pdf_length_ge crowded_valid
  have lines := crowded_lines
  have limit : maxArtifactBytes = 10485760 := rfl
  exact ⟨accepted_of_valid crowded_valid crowded_wellKeyed rfl, pdf, drawn, by omega⟩

end ManifestCV.Workspace
