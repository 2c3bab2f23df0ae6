import ManifestCV.Workspace.Numbering

namespace ManifestCV.Workspace

open Foundation Foundation.Transactions Document

def Caller.rewritten? : Caller → Option ResumeRevision
  | .generate source | .refine source => some source
  | _ => none

def Writer.rewritten? : Writer → Option ResumeRevision
  | .create _ => none
  | .save _ caller _ _ => caller.rewritten?
  | .worker _ _ source => some source

/-- When `save_document` looks for the latest revision on behalf of the language model, it finds the one
    that the model was given. -/
def rewriteGuard : Guard Database Outside Phase Input :=
  baseGuard fun caller _ => caller.rewritten?.map (·.id)

def Rewrites (rt : Runtime) (source : ResumeRevision) (document : Json) : Prop :=
  ∃ text payload, loads rt.floats source.documentJson = some payload ∧ structuredDocument rt text payload =
    some document

def RewriteOf (rt : Runtime) (source : ResumeRevision) (text : Str) : Prop :=
  ∃ document, Rewrites rt source document ∧
    (text = dumps rt.floats document ∨ ∃ accepted, validateDocument rt document = .ok accepted ∧
      text = storedText rt accepted)

def Phase.Rewritten (rt : Runtime) : Phase → Prop
  | .saving _ caller payload => ∀ source, caller.rewritten? = some source →
      Rewrites rt source payload.document
  | .latest _ caller payload accepted => ∀ source, caller.rewritten? = some source →
      Rewrites rt source payload.document ∧ validateDocument rt payload.document = .ok accepted
  | .insertRevision writer text | .flush (.revision writer _ text) _ => ∀ source,
      writer.rewritten? = some source →
      RewriteOf rt source text
  | _ => True

theorem next_rewritten {rt : Runtime} {db : Database} {outside : Outside} {phase : Phase} {input : Input}
    {effect : Effect Outside Phase Write} (step : Next rt db outside phase input effect)
    (ok : phase.Rewritten rt) :
    effect.phase.Rewritten rt := by
  cases step with
  | created template => exact fun source same => (nomatch same)
  | checked found passed => exact fun source same => (nomatch same)
  | checkedAgain found passed => exact fun source same => ⟨ok source same, passed.accepted⟩
  | restoring found home text => exact fun source same => (nomatch same)
  | written loaded structured =>
    rename_i held refining source text payload document
    intro given same
    have named : given = source := by
      cases refining <;> exact (Option.some.inj same).symm
    exact named ▸ ⟨text, payload, loaded, structured⟩
  | numbered =>
    intro source same
    obtain ⟨rewrites, accepted⟩ := ok source same
    exact ⟨_, rewrites, .inr ⟨_, accepted, rfl⟩⟩
  | inserted => exact ok
  | jobWritten loaded structured =>
    intro source same
    cases same
    exact ⟨_, ⟨_, _, loaded, structured⟩, .inl rfl⟩
  | sent more =>
    rename_i batch sent w
    cases batch <;> exact ok
  | verified kept digest =>
    rename_i held revision reader row pdf
    cases reader <;> trivial
  | catalogued =>
    rename_i held revision reader key pdf
    cases reader <;> trivial
  | committed all =>
    rename_i batch sent
    cases batch <;> trivial
  | _ => trivial

theorem rewritten_stable (rt : Runtime) (g : Guard Database Outside Phase Input)
    (known : Assertion Database Outside Phase Write) :
    Stable (resumeSystem rt) g known (Assertion.phase (Phase.Rewritten rt)) := by
  refine phase_stable ?_ (fun next ok => next_rewritten (next_cases next) ok) ?_
  · intro outside request phase outside' started
    cases started
    cases request <;> trivial
  · intro phase _
    change (failedPhase phase).Rewritten rt
    cases phase <;> trivial

theorem rewritten_base {writer : Writer} {source : ResumeRevision}
    (rewritten : writer.rewritten? = some source) :
    writer.source? = some source ∧ writer.base (fun caller _ => caller.rewritten?.map (·.id)) =
      some source.id := by
  cases writer with
  | create workspace => cases rewritten
  | save held caller payload number => cases caller <;> cases rewritten <;> exact ⟨rfl, rfl⟩
  | worker job held given =>
    cases rewritten
    exact ⟨rfl, rfl⟩

/-- While the model is given the latest revision whenever its answer is numbered, what it writes replaces
    the revision it was given. -/
theorem ai_replaces_source {rt : Runtime} {s s' : State Database Outside Phase Write}
    (reached : Runs (resumeSystem rt) rewriteGuard initialState s)
    (step : Step (resumeSystem rt) rewriteGuard s s') {id : Nat} {before after : ResumeWorkspace}
    (found : s.db.workspace? id = some before) (found' : s'.db.workspace? id = some after)
    (moved : after.currentRevisionId ≠ before.currentRevisionId) :
    ∃ session ∈ s.sessions, ∃ writer revisionId text sent,
      session.phase = .flush (.revision writer revisionId text) sent ∧
      after.currentRevisionId = some revisionId ∧ ∀ source, writer.rewritten? = some source →
        before.currentRevisionId = some source.id ∧ source ∈ s.db.revisions ∧ RewriteOf rt source text := by
  obtain ⟨i, session, writer, revisionId, text, sent, placed, here, rfl, pointer⟩ :=
    pointer_moved reached.free step.free found found' moved
  obtain ⟨_, holds⟩ := history_holds reached.free
  obtain ⟨_, carried⟩ := holds_idle_runs conflicts_symm (rewritten_stable rt rewriteGuard Assertion.trivial)
    (fun t _ => Assertion.trivial_holds t) rfl trivial reached
  have sound := holds.own i session placed
  have rewritten := carried.own i session placed
  have current := (base_holds reached).own i session placed
  rw [here] at sound rewritten current
  refine ⟨session, List.mem_of_getElem? placed, writer, revisionId, text, sent, here, pointer, ?_⟩
  intro source author
  obtain ⟨loaded, base⟩ := rewritten_base author
  obtain ⟨held, holding, home⟩ := base_held base
  have inside := flush_pending sound.inserted
  rw [← sound.shape] at inside
  have present : s.db.workspace? held.id ≠ none := by rw [home, found]; exact Option.some_ne_none _
  exact ⟨current writer source.id rfl base (sound.writes _ inside).2.2 before found,
    (sound.source held source holding loaded present).1, rewritten source author⟩

def generating : Action Input Request := .start (.owned 7 1 .generateWorkspaceDocument)

def answering (i : Nat) : Action Input Request := .run i (.generated "- Built engines".toList)

def pointsTo (revisionId : Nat) (s : State Database Outside Phase Write) : Bool :=
  (s.db.workspace? 1).any (·.currentRevisionId = some revisionId)

theorem pointsTo_row {revisionId : Nat} {s : State Database Outside Phase Write}
    (points : pointsTo revisionId s = true) :
    ∃ row, s.db.workspace? 1 = some row ∧ row.currentRevisionId = some revisionId := by
  obtain ⟨row, found, same⟩ := (Option.any_eq_true _ _).mp points
  exact ⟨row, found, of_decide_eq_true same⟩

theorem ai_replaces_source_generation :
    ∃ (s s' : State Database Outside Phase Write) (before after : ResumeWorkspace),
    Runs (resumeSystem plainRuntime) rewriteGuard initialState s ∧ s.db.workspace? 1 = some before ∧
    s'.db.workspace? 1 = some after ∧ after.currentRevisionId = some 2 ∧
    ∃ session ∈ s.sessions, ∃ writer revisionId text sent,
      session.phase = .flush (.revision writer revisionId text) sent ∧
      after.currentRevisionId = some revisionId ∧ ∀ source, writer.rewritten? = some source →
        before.currentRevisionId = some source.id ∧ source ∈ s.db.revisions ∧
          RewriteOf plainRuntime source text := by
  let actions := creating ++ generating :: stepping 1 2 ++ answering 1 :: stepping 1 4
  have ran : ((resumeSystem plainRuntime).perform rewriteGuard initialState actions).any
      (fun s => pointsTo 1 s ∧ ((resumeSystem plainRuntime).perform rewriteGuard s [.run 1 .answer]).any
        (pointsTo 2) = true) =
      true := by decide +kernel
  obtain ⟨s, reached, check⟩ := runs_of_performed ran
  obtain ⟨first, second⟩ := of_decide_eq_true check
  obtain ⟨s', step, _, second⟩ := step_of_performed second
  obtain ⟨before, found, pointer⟩ := pointsTo_row first
  obtain ⟨after, found', pointer'⟩ := pointsTo_row second
  have moved : after.currentRevisionId ≠ before.currentRevisionId := by
    rw [pointer, pointer']
    decide
  exact ⟨s, s', before, after, reached, found, found', pointer',
    ai_replaces_source reached step found found' moved⟩

/-- A save commits while the model works, and the answer replaces it all the same. -/
theorem generation_overwrites : ∃ (s s' : State Database Outside Phase Write) (session : Session Phase Write)
    (writer : Writer) (source : ResumeRevision), Reachable plainRuntime s ∧ s.sessions[1]? = some session ∧
    session.phase.writer? = some writer ∧ writer.rewritten? = some source ∧ source.id = 1 ∧ pointsTo 2 s ∧
    (resumeSystem plainRuntime).step s (.run 1 .answer) = some s' ∧ pointsTo 3 s' := by
  let actions := creating ++ generating :: stepping 1 2 ++ saving (some 1) :: stepping 2 5 ++ answering 1 ::
    stepping 1 4
  have ran : ((resumeSystem plainRuntime).perform Guard.free initialState actions).any
      (fun s => pointsTo 2 s ∧
        (s.sessions[1]?.any fun session => session.phase.writer?.any fun writer =>
          writer.rewritten?.any (·.id = 1)) = true ∧
        ((resumeSystem plainRuntime).perform Guard.free s [.run 1 .answer]).any (pointsTo 3) = true) =
            true := by
    decide +kernel
  obtain ⟨s, reached, check⟩ := runs_of_performed ran
  obtain ⟨saved, writing, second⟩ := of_decide_eq_true check
  obtain ⟨s', _, step, second⟩ := step_of_performed second
  obtain ⟨session, here, writing⟩ := (Option.any_eq_true _ _).mp writing
  obtain ⟨writer, writes, writing⟩ := (Option.any_eq_true _ _).mp writing
  obtain ⟨source, author, first⟩ := (Option.any_eq_true _ _).mp writing
  exact ⟨s, s', session, writer, source, reached, here, writes, author, of_decide_eq_true first,
    saved, step, second⟩

end ManifestCV.Workspace
