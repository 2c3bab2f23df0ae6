import ManifestCV.Workspace.History

namespace ManifestCV.Workspace

open Foundation Foundation.Transactions Document Render

/-- The text that the language model gives the worker fits the blocks of the revision it is for, and the PDF
    of a revision that is asked for is no larger than the store takes. -/
def fittingGuard (rt : Runtime) : Guard Database Outside Phase Input where
  alone _ _ phase input :=
    match phase, input with
    | .jobThinking _ _ source, .generated text =>
        (readDocument rt source.documentJson).all (generatedFits rt text)
    | .artifact _ revision _, _ =>
      ((readDocument rt revision.documentJson).bind (renderDocumentPdf rt)).all fun pdf =>
        pdf.length ≤ maxArtifactBytes
    | _, _ => true
  beside _ _ _ := true

theorem readable_of_stored {rt : Runtime} {text : Str} (stored : Stored rt text) : Readable rt text := by
  obtain ⟨payload, document, _, accepted, loaded⟩ := stored.loads
  obtain ⟨fields, known, _⟩ := bind_ok.mp accepted
  have object := (modelFields_ok.mp known).1
  subst object
  exact ⟨fields, document, loaded, accepted⟩

def Phase.Carries (rt : Runtime) : Phase → Prop
  | .saving _ caller payload => payload.document.WellKeyed ∧
      ∀ source, caller = .restore source → ∃ document, validateDocument rt payload.document = .ok document
  | .latest _ _ payload document => payload.document.WellKeyed ∧ validateDocument rt payload.document =
      .ok document
  | .insertRevision _ text | .flush (.revision _ _ text) _ => Stored rt text
  | .store _ _ _ pdf => pdf.length ≤ maxArtifactBytes
  | .finished (.unreadable _) => False
  | _ => True

section Validity

variable {rt : Runtime} {db db' : Database} {outside outside' : Outside} {phase phase' : Phase}
  {pending pending' : List Write} {input : Input} {effect : Effect Outside Phase Write}

theorem next_carries (step : Next rt db outside phase input effect)
    (keeps : phase.pending = [] → ∀ row ∈ db.revisions, Stored rt row.documentJson)
    (sources : ∀ source, phase.source? = some source → Stored rt source.documentJson)
    (carries : phase.Carries rt) (fitting : (fittingGuard rt).alone db outside phase input = true) :
    (∀ source, effect.phase.source? = some source → Stored rt source.documentJson) ∧
    effect.phase.Carries rt := by
  have later : ∀ source, effect.phase.source? = some source → Stored rt source.documentJson := by
    intro source loads
    rcases next_source step with nothing | ⟨kept, _⟩ | ⟨empty, _, row, _, _, loaded, member, _⟩
    · exact absurd (nothing.symm.trans loads) (fun same => nomatch same)
    · exact sources source (kept ▸ loads)
    · cases Option.some.inj (loaded.symm.trans loads)
      exact keeps empty source member
  refine ⟨later, ?_⟩
  cases step with
  | created template =>
    obtain ⟨entry, found, accepted⟩ := Option.map_eq_some_iff.mp template
    exact storedText_stored (templates_wellKeyed _ (lookup_mem found)) accepted
  | checked found passed =>
    rename_i userId workspaceId payload expected kind held document
    exact ⟨payload.property, passed.accepted⟩
  | checkedAgain found passed => exact ⟨carries.1, passed.accepted⟩
  | restoring found home text =>
    rename_i held revisionId source fields
    obtain ⟨payload, document, keyed, accepted, loaded⟩ := (later source rfl).loads
    cases Option.some.inj (text.symm.trans loaded)
    exact ⟨keyed, fun _ _ => ⟨document, accepted⟩⟩
  | written loaded structured =>
    rename_i held refining source text payload document
    obtain ⟨stored, _, keyed, _, same⟩ := (sources source rfl).loads
    cases Option.some.inj (loaded.symm.trans same)
    refine ⟨structuredDocument_wellKeyed keyed structured, ?_⟩
    intro other same
    cases refining <;> cases same
  | numbered => exact storedText_stored carries.1 carries.2
  | jobWritten loaded structured =>
    rename_i job held source text payload document
    obtain ⟨stored, read, keyed, accepted, same⟩ := (sources source rfl).loads
    cases Option.some.inj (loaded.symm.trans same)
    have reads : readDocument rt source.documentJson = some read :=
      by simp only [readDocument, loaded, accepted]
    have fits : generatedFits rt text read = true := by
      simpa only [fittingGuard, reads, Option.all_some] using fitting
    obtain ⟨written, done, writtenKeyed, valid⟩ := structuredDocument_accepted keyed accepted fits
    cases Option.some.inj (structured.symm.trans done)
    exact ⟨document, _, writtenKeyed, valid, rfl⟩
  | inserted => exact carries
  | rendering absent read drawn =>
    simp only [fittingGuard, read, Option.bind_some, drawn, Option.all_some, decide_eq_true_eq] at fitting
    exact fitting
  | sent more =>
    rename_i batch sent w
    cases batch <;> exact carries
  | blamed bad known =>
    rcases known with loaded | ⟨⟨held, call, rfl⟩, member⟩
    · exact bad (readable_of_stored (sources _ loaded))
    · exact bad (readable_of_stored (keeps rfl _ member))
  | committed all =>
    rename_i batch sent
    cases batch <;> trivial
  | verified kept digest =>
    rename_i held revision reader row pdf
    cases reader <;> trivial
  | catalogued =>
    rename_i held revision reader key pdf
    cases reader <;> trivial
  | failed plain =>
    rename_i outcome
    cases outcome <;> trivial
  | _ => trivial

end Validity

def queueing : Action Input Request := .start (.owned 7 1 .queueGenerationJob)

end ManifestCV.Workspace
