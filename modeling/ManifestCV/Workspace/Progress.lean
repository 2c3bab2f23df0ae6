import ManifestCV.Foundation.Progress
import ManifestCV.Workspace.Approval

namespace ManifestCV.Workspace

open Foundation Foundation.Transactions Document

def Batch.remaining : Batch → Nat
  | .queueJob _ => 1
  | .startJob _ _ => 10
  | _ => 0

def Phase.remaining : Phase → Nat
  | .finished _ => 0
  | .deferring _ => 1
  | .flush batch sent => batch.remaining + (batch.writes.length - sent) + 1
  | .insertJob _ _ => 3
  | .application _ _ _ => 4
  | .insertRevision _ _ | .insertApplication _ _ _ _ => 5
  | .create _ _ | .latest _ _ _ _ | .insertArtifact _ _ _ _ _ | .jobThinking _ _ _ => 6
  | .saving _ _ _ | .store _ _ _ _ | .readStored _ _ _ _ => 7
  | .thinking _ _ _ | .artifact _ _ _ => 8
  | .source _ _ | .jobRevision _ _ _ => 9
  | .owned _ _ _ | .jobWorkspace _ _ => 10
  | .job _ _ => 13

def Write.asks : Write → Nat
  | .lockWorkspace _ => 0
  | .insertWorkspace _ => 1
  | .insertRevision _ | .insertArtifact _ _ => 2
  | .setCurrentRevision _ _ | .setStatus _ _ => 3
  | .insertJob _ | .updateJob _ _ _ | .insertApplication _ | .updateApplication _ _ | .deleteApplication _ =>
      4
  | .deleteWorkspace _ => 5

/-- A deletion locks its workspace at once and follows the foreign keys last; after it, or the UPDATE of a
    job, a session sends nothing more, so that whoever waits for it waits for a commit. -/
def Write.locked : Write → Nat
  | .lockWorkspace _ => 4
  | .deleteWorkspace _ | .updateJob _ _ _ => 5
  | w => w.asks

def Write.Cascades (w v : Write) : Prop := ∃ id, w = .deleteWorkspace id ∧ v.within = some id ∧ v.locked < 5

/-- The one session has locked a workspace to delete it, and the other one has inserted an artifact of the
    workspace. -/
def Crossing (first second : Session Phase Write) : Prop :=
  ∃ id row, .lockWorkspace id ∈ first.pending ∧ .insertArtifact id row ∈ second.pending

def Call.loads : Call → Bool
  | .saveDocument _ _ _ | .approveWorkspace | .deleteWorkspace | .queueGenerationJob | .queueExportJob =>
      false
  | _ => true

def Phase.Loads : Phase → Prop
  | .source _ call => call.loads = true
  | _ => True

theorem failed_remaining (phase : Phase) : (failedPhase phase).remaining = 0 := by
  cases phase <;> rfl

theorem rendering_length (held : ResumeWorkspace) (rendering : Rendering) :
    (rendering.writes held).length ≤ 1 := by
  unfold Rendering.writes
  split
  · exact Nat.le_refl _
  · exact Nat.zero_le _

theorem rendered_remaining (held : ResumeWorkspace) (revision : ResumeRevision) (rendering : Rendering)
    (reader : Reader) :
    (afterRendering held revision rendering reader).remaining ≤ 5 := by
  have drawn := rendering_length held rendering
  cases reader with
  | createApplication fields => exact Nat.le_refl _
  | exportWorkspace =>
    simp only [afterRendering, Phase.remaining, Batch.remaining, Batch.writes]
    omega
  | renderJob job =>
    simp only [afterRendering, Phase.remaining, Batch.remaining, Batch.writes, List.length_append,
      List.length_singleton]
    omega

theorem after_remaining (batch : Batch) : batch.after.remaining = batch.remaining := by
  cases batch <;> rfl

section Steps

variable {rt : Runtime} {db : Database} {outside : Outside} {phase : Phase} {input : Input}
  {effect : Effect Outside Phase Write}

theorem finished_or_remaining (phase : Phase) :
    (∃ outcome, phase = .finished outcome) ∨ 0 < phase.remaining := by
  cases phase with
  | finished outcome => exact .inl ⟨outcome, rfl⟩
  | flush batch sent => exact .inr (Nat.succ_pos _)
  | _ => exact .inr (Nat.succ_pos _)

theorem running_remaining {job : ResumeJob} (running : phase.job? = some job) : 5 < phase.remaining := by
  cases phase with
  | artifact held revision reader => exact (by decide : 5 < 8)
  | readStored held revision reader row => exact (by decide : 5 < 7)
  | store held revision reader pdf => exact (by decide : 5 < 7)
  | jobWorkspace function row => exact (by decide : 5 < 10)
  | jobRevision function row held => exact (by decide : 5 < 9)
  | jobThinking row held source => exact (by decide : 5 < 6)
  | _ => cases running

theorem reports_length (writer : Writer) (revisionId : Nat) : (writer.reports revisionId).length ≤ 1 := by
  cases writer <;> exact of_decide_eq_true rfl

theorem next_remaining (answer : next rt db outside phase input = some effect) :
    effect.phase.remaining < phase.remaining := by
  have unfinished : 0 < phase.remaining := by
    cases finished_or_remaining phase with
    | inl finished =>
      obtain ⟨outcome, rfl⟩ := finished
      cases answer
    | inr more => exact more
  cases next_cases answer with
  | failed plain => exact unfinished
  | blamed bad known => exact unfinished
  | inserted =>
    rename_i writer text
    have reported := reports_length writer outside.nextRevisionId
    simp only [Effect.phase, Phase.remaining, Batch.remaining, Batch.writes, List.length_append,
      List.length_cons, List.length_nil]
    omega
  | approving found =>
    rename_i held
    have short : (Batch.approve held).writes.length ≤ 1 := by
      simp only [Batch.writes]
      split <;> exact of_decide_eq_true rfl
    simp only [Effect.phase, Phase.remaining, Batch.remaining]
    omega
  | tracking found =>
    rename_i updateData row
    have short : (Batch.tracked row updateData.modelDump).writes.length ≤ 1 := by
      simp only [Batch.writes]
      split <;> exact of_decide_eq_true rfl
    simp only [Effect.phase, Phase.remaining, Batch.remaining]
    omega
  | started found =>
    rename_i function jobId job
    have short : (Batch.startJob function job).writes.length ≤ 1 := by
      simp only [Batch.writes]
      split <;> exact of_decide_eq_true rfl
    simp only [Effect.phase, Phase.remaining, Batch.remaining]
    omega
  | applied =>
    rename_i held revision fields rendering
    simp only [Effect.phase, Phase.remaining, Batch.remaining, Batch.writes, List.length_append,
      List.length_singleton]
    omega
  | verified kept digest =>
    rename_i held revision reader row pdf
    exact Nat.lt_of_le_of_lt (rendered_remaining held revision _ reader) (by decide : 5 < 7)
  | catalogued =>
    rename_i held revision reader key pdf
    exact Nat.lt_of_le_of_lt (rendered_remaining held revision _ reader) (by decide : 5 < 6)
  | sent more =>
    rename_i batch sent w
    have inside := (List.getElem?_eq_some_iff.mp more).1
    simp only [Effect.phase, Phase.remaining]
    omega
  | committed all =>
    rename_i batch sent
    show batch.after.remaining < _
    rw [after_remaining]
    simp only [Phase.remaining]
    omega
  | jobFailed running => exact Nat.lt_trans (by decide : 2 < 5) (running_remaining running)
  | _ => exact of_decide_eq_true rfl

theorem owned_loads {held : ResumeWorkspace} {call : Call}
    (answer : afterOwned rt outside held call = some effect) : effect.phase.Loads := by
  cases call with
  | saveDocument document expected kind =>
    cases checkSave_cases answer with
    | inl refused =>
      obtain ⟨outcome, _, rfl⟩ := refused
      trivial
    | inr passed =>
      obtain ⟨checked, _, rfl⟩ := passed
      trivial
  | approveWorkspace =>
    cases answer
    trivial
  | deleteWorkspace =>
    cases answer
    trivial
  | previewWorkspace =>
    cases answer
    rfl
  | _ =>
    simp only [afterOwned] at answer
    split at answer <;> cases answer <;> trivial

theorem next_loads (answer : next rt db outside phase input = some effect) : effect.phase.Loads := by
  cases next_cases answer with
  | reading found editing publishing =>
    simp only [next, found] at answer
    exact owned_loads answer
  | verified kept digest =>
    rename_i held revision reader row pdf
    cases reader <;> trivial
  | catalogued =>
    rename_i held revision reader key pdf
    cases reader <;> trivial
  | committed all =>
    rename_i batch sent
    cases batch <;> trivial
  | _ => trivial

section Answers

variable {held : ResumeWorkspace} {source : ResumeRevision} {reader : Reader} {call : Call}

theorem checkSave_answers (caller : Caller) (payload : DocumentSave) :
    ∃ effect, checkSave rt outside held caller payload = some effect := by
  unfold checkSave
  split
  · exact ⟨_, rfl⟩
  · split
    · exact ⟨_, rfl⟩
    · split <;> exact ⟨_, rfl⟩

theorem afterOwned_answers (call : Call) : ∃ effect, afterOwned rt outside held call = some effect := by
  cases call with
  | saveDocument document expected kind => exact checkSave_answers _ _
  | approveWorkspace => exact ⟨_, rfl⟩
  | deleteWorkspace => exact ⟨_, rfl⟩
  | previewWorkspace => exact ⟨_, rfl⟩
  | _ =>
    simp only [afterOwned]
    split <;> exact ⟨_, rfl⟩

theorem afterSource_answers (loads : call.loads = true) :
    ∃ effect, afterSource rt db outside held call = some effect := by
  cases call with
  | generateWorkspaceDocument =>
    simp only [afterSource]
    split <;> exact ⟨_, rfl⟩
  | refineWorkspaceDocument =>
    simp only [afterSource]
    split <;> exact ⟨_, rfl⟩
  | restoreRevision revisionId =>
    simp only [afterSource]
    split
    · exact ⟨_, rfl⟩
    · split
      · exact ⟨_, rfl⟩
      · split <;> exact ⟨_, rfl⟩
  | previewWorkspace =>
    simp only [afterSource]
    split
    · exact ⟨_, rfl⟩
    · split <;> exact ⟨_, rfl⟩
  | exportWorkspace =>
    simp only [afterSource]
    split <;> exact ⟨_, rfl⟩
  | createApplication fields =>
    simp only [afterSource]
    split
    · exact ⟨_, rfl⟩
    · split <;> exact ⟨_, rfl⟩
  | _ => cases loads

theorem renderingFailed_answers (otherwise : Outcome) (reader : Reader) :
    ∃ effect, renderingFailed outside otherwise reader = some effect := by
  cases reader <;> exact ⟨_, rfl⟩

end Answers

theorem unfinished_next (loads : phase.Loads) (unfinished : ∀ outcome, phase ≠ .finished outcome) :
    ∃ input effect, next rt db outside phase input = some effect := by
  cases phase with
  | finished outcome => exact absurd rfl (unfinished outcome)
  | thinking held refining source => exact ⟨.unavailable, _, rfl⟩
  | jobThinking job held source => exact ⟨.unavailable, _, rfl⟩
  | source held call => exact ⟨.answer, afterSource_answers loads⟩
  | create userId key =>
    apply Exists.intro Input.answer
    simp only [next]
    split <;> exact ⟨_, rfl⟩
  | owned userId workspaceId call =>
    apply Exists.intro Input.answer
    simp only [next]
    split
    · exact ⟨_, rfl⟩
    · exact afterOwned_answers call
  | saving held caller payload =>
    apply Exists.intro Input.answer
    simp only [next]
    split
    · exact ⟨_, rfl⟩
    · exact checkSave_answers caller payload
  | artifact held revision reader =>
    apply Exists.intro Input.answer
    simp only [next]
    split
    · exact ⟨_, rfl⟩
    · split
      · exact renderingFailed_answers _ reader
      · split <;> exact ⟨_, rfl⟩
  | readStored held revision reader row =>
    apply Exists.intro Input.answer
    simp only [next]
    split
    · exact renderingFailed_answers _ reader
    · exact ⟨_, rfl⟩
  | store held revision reader pdf =>
    apply Exists.intro Input.answer
    simp only [next]
    split
    · exact renderingFailed_answers _ reader
    · exact ⟨_, rfl⟩
  | jobWorkspace function job =>
    apply Exists.intro Input.answer
    simp only [next]
    split
    · exact ⟨_, rfl⟩
    · cases function <;> exact ⟨_, rfl⟩
  | jobRevision function job held =>
    apply Exists.intro Input.answer
    simp only [next]
    split
    · exact ⟨_, rfl⟩
    · exact ⟨_, rfl⟩
    · split <;> exact ⟨_, rfl⟩
    · exact ⟨_, rfl⟩
  | application userId applicationId call =>
    apply Exists.intro Input.answer
    simp only [next]
    split <;> exact ⟨_, rfl⟩
  | flush batch sent =>
    apply Exists.intro Input.answer
    simp only [next]
    split <;> exact ⟨_, rfl⟩
  | job function jobId =>
    apply Exists.intro Input.answer
    simp only [next]
    split <;> exact ⟨_, rfl⟩
  | _ => exact ⟨.answer, _, rfl⟩

end Steps

section Order

theorem conflict_levels {w v : Write} (conflict : conflicts w v = true) :
    w.asks ≤ v.locked ∨ w.Cascades v := by
  cases w with
  | deleteWorkspace id =>
    by_cases last : v.locked < 5
    · right
      refine ⟨id, rfl, ?_, last⟩
      rcases (Bool.or_eq_true _ _).mp conflict with below | below
      · exact of_decide_eq_true below
      · cases v with
        | lockWorkspace other => exact (of_decide_eq_true below).symm
        | deleteWorkspace other => exact absurd last (Nat.lt_irrefl 5)
        | _ => simp [locks, Write.updated] at below
    · exact .inl (Nat.le_of_not_lt last)
  | _ =>
    left
    cases v <;> first
      | exact of_decide_eq_true rfl
      | simp [conflicts, locks, Write.updated] at conflict

def resumeOrder (rt : Runtime) : LockOrder (resumeSystem rt) where
  asks := Write.asks
  holds := Write.locked
  top := 5
  bounded w := by cases w <;> exact of_decide_eq_true rfl
  against := Write.Cascades
  conflict := conflict_levels

def resumeDescent (rt : Runtime) : Descent (resumeSystem rt) where
  remaining := Phase.remaining
  next answer := by
    have less := next_remaining answer
    exact ⟨less, (failed_remaining _).symm ▸ Nat.lt_of_le_of_lt (Nat.zero_le _) less⟩
  failed phase := (failed_remaining phase).symm ▸ Nat.zero_le _

theorem writes_ascend (batch : Batch) : batch.writes.Pairwise fun v w => v.locked < w.asks := by
  have drawn : ∀ (held : ResumeWorkspace) (rendering : Rendering) (last : Write), last.asks = 4 →
      (rendering.writes held ++ [last]).Pairwise fun v w => v.locked < w.asks := by
    intro held rendering last top
    unfold Rendering.writes
    split
    · simp [top, Write.locked, Write.asks.eq_def (.insertArtifact held.id rendering.artifact)]
    · exact List.pairwise_singleton _ _
  cases batch with
  | revision writer revisionId text =>
    cases writer <;> simp [Batch.writes, Writer.before, Writer.reports, Write.locked, Write.asks]
  | approve held =>
    simp only [Batch.writes]
    split
    · exact .nil
    · exact List.pairwise_singleton _ _
  | startJob function job =>
    simp only [Batch.writes]
    split
    · exact .nil
    · exact List.pairwise_singleton _ _
  | tracked row fields =>
    simp only [Batch.writes]
    split
    · exact .nil
    · exact List.pairwise_singleton _ _
  | delete held =>
      exact List.pairwise_cons.mpr ⟨fun w member =>
        by rw [List.mem_singleton.mp member]; exact (by decide : 4 < 5),
      List.pairwise_singleton _ _⟩
  | exported held source rendering =>
    exact (List.pairwise_append.mp (drawn held rendering (.deleteApplication 0) rfl)).1
  | rendered job held source rendering => exact drawn held rendering _ rfl
  | applied held source fields rendering applicationId => exact drawn held rendering _ rfl
  | _ => exact List.pairwise_singleton _ _

theorem next_upwards {rt : Runtime} {db : Database} {outside outside' : Outside} {phase phase' : Phase}
    {input : Input} {w : Write} (step : Next rt db outside phase input (.write w phase' outside')) :
    ∀ v ∈ phase.pending, v.locked < w.asks := by
  cases step with
  | created template => exact fun v member => absurd member List.not_mem_nil
  | queued => exact fun v member => absurd member List.not_mem_nil
  | catalogued => exact fun v member => absurd member List.not_mem_nil
  | inserted =>
    rename_i writer text
    intro v member
    cases writer with
    | create workspace =>
      rw [List.mem_singleton.mp member]
      exact (by decide : 1 < 2)
    | save held caller payload number => cases member
    | worker job held source => cases member
  | applied =>
    rename_i held revision fields rendering
    intro v member
    have ascends := writes_ascend (.applied held revision fields rendering outside.nextApplicationId)
    exact (List.pairwise_append.mp ascends).2.2 v member _ List.mem_cons_self
  | sent more =>
    rename_i batch sent
    intro v member
    obtain ⟨inside, rfl⟩ := List.getElem?_eq_some_iff.mp more
    obtain ⟨n, before, rfl⟩ := List.mem_take_iff_getElem.mp member
    exact List.pairwise_iff_getElem.mp (writes_ascend batch) n sent _ inside (by omega)

theorem loads_stable (rt : Runtime) :
    Stable (resumeSystem rt) Guard.free Assertion.trivial (Assertion.phase Phase.Loads) := by
  apply phase_stable
  · intro outside request phase outside' started
    cases started
    cases request <;> trivial
  · intro db outside phase input effect answer _
    exact next_loads answer
  · intro phase _
    cases phase <;> trivial

theorem loads_holds {rt : Runtime} {s : State Database Outside Phase Write} (reachable : Reachable rt s) :
    (Assertion.phase Phase.Loads : Assertion Database Outside Phase Write).Holds s := by
  apply And.right
  exact holds_idle_runs conflicts_symm (loads_stable rt) (fun t _ => Assertion.trivial_holds t)
    rfl trivial reachable

theorem resume_going {rt : Runtime} {s : State Database Outside Phase Write} (reachable : Reachable rt s)
    {session : Session Phase Write} (member : session ∈ s.sessions)
    (unfinished : ∀ outcome, session.phase ≠ .finished outcome) :
    (resumeSystem rt).Going s session := by
  obtain ⟨i, found⟩ := List.mem_iff_getElem?.mp member
  exact unfinished_next ((loads_holds reachable).own i session found) unfinished

theorem resume_keeps {rt : Runtime} {s : State Database Outside Phase Write} (reachable : Reachable rt s) :
    (resumeOrder rt).Keeps s where
  going session member held := by
    obtain ⟨i, found⟩ := List.mem_iff_getElem?.mp member
    have shape := ((history_holds reachable).2.own i session found).shape
    apply resume_going reachable member
    intro outcome same
    apply held
    rw [shape, same]
    rfl
  upwards session member w wants := by
    obtain ⟨i, found⟩ := List.mem_iff_getElem?.mp member
    have shape := ((history_holds reachable).2.own i session found).shape
    obtain ⟨input, phase, outside, answer⟩ := wants
    rw [shape]
    exact next_upwards (next_cases answer)

end Order

theorem deletes_locked {rt : Runtime} {db : Database} {outside outside' : Outside} {phase phase' : Phase}
    {input : Input} {id : Nat}
    (step : Next rt db outside phase input (.write (.deleteWorkspace id) phase' outside')) :
    .lockWorkspace id ∈ phase.pending := by
  cases step with
  | sent more =>
    rename_i batch sent
    obtain ⟨held, rfl⟩ := Batch.deletes (List.mem_of_getElem? more)
    obtain _ | _ | sent := sent
    · cases more
    · cases more
      exact List.mem_cons_self
    · cases more

/-- A wait against the order is a deletion's for a session that has inserted an artifact of the workspace. -/
theorem crossed_artifact {rt : Runtime} {s : State Database Outside Phase Write} (reachable : Reachable rt s)
    (crossed : (resumeOrder rt).Crossed s) :
    ∃ first ∈ s.sessions, ∃ second ∈ s.sessions, Crossing first second := by
  obtain ⟨i, j, first, second, w, v, apart, foundFirst, foundSecond, wants, held, id, rfl, below, low⟩ :=
    crossed
  obtain ⟨separate, holds⟩ := history_holds reachable
  obtain ⟨input, phase, outside, answer⟩ := wants
  have locked : .lockWorkspace id ∈ first.pending := by
    rw [(holds.own i first foundFirst).shape]
    exact deletes_locked (next_cases answer)
  have free := separate i j first second apart foundFirst foundSecond _ locked v held
  have elsewhere : v.parent ≠ some id := by
    intro same
    simp [resumeSystem, conflicts, locks, same] at free
  refine ⟨first, List.mem_of_getElem? foundFirst, second, List.mem_of_getElem? foundSecond, id, ?_⟩
  cases v with
  | insertArtifact workspaceId row =>
    cases below
    exact ⟨row, locked, held⟩
  | updateJob workspaceId jobId update => exact absurd low (Nat.lt_irrefl 5)
  | _ => exact absurd below elsewhere

theorem stuck_crosses {rt : Runtime} {s : State Database Outside Phase Write} (reachable : Reachable rt s)
    (stuck : ∀ i input, (resumeSystem rt).step s (.run i input) = none) :
    (∀ session ∈ s.sessions, ∃ outcome, session.phase = .finished outcome) ∨
      ∃ first ∈ s.sessions, ∃ second ∈ s.sessions, Crossing first second := by
  by_cases crossed : (resumeOrder rt).Crossed s
  · exact .inr (crossed_artifact reachable crossed)
  · left
    intro session member
    apply Classical.byContradiction
    intro unfinished
    have going := resume_going reachable member (fun outcome same => unfinished ⟨outcome, same⟩)
    cases no_deadlock (resumeOrder rt) (resume_keeps reachable) member going with
    | inl moving =>
      obtain ⟨i, input, moves⟩ := moving
      rw [stuck i input] at moves
      cases moves
    | inr other => exact crossed other

/-- However requests and jobs interleave, and whichever of them lose their connection: those that were started
    take only so many more steps, and as long as one of them is unfinished some session is free to take one,
    unless a deletion has locked its workspace: what it waits for may be waiting for it. -/
theorem requests_finish {rt : Runtime} {s : State Database Outside Phase Write} (reachable : Reachable rt s) :
    (∀ actions s', (∀ action ∈ actions, action.starting = false) →
      (resumeSystem rt).perform Guard.free s actions = some s' →
      actions.countP Action.running ≤ (s.sessions.map fun session => session.phase.remaining).sum) ∧
    ((∀ session ∈ s.sessions, ∀ id, .lockWorkspace id ∉ session.pending) →
      (∀ i input, (resumeSystem rt).step s (.run i input) = none) →
      ∀ session ∈ s.sessions, ∃ outcome, session.phase = .finished outcome) := by
  constructor
  · intro actions s' running performed
    have bounded := runs_bounded (resumeDescent rt) running performed
    exact Nat.le_trans (Nat.le_add_right _ _) bounded
  · intro unlocked stuck
    cases stuck_crosses reachable stuck with
    | inl finished => exact finished
    | inr crossing =>
      obtain ⟨first, member, _, _, id, _, locked, _⟩ := crossing
      exact absurd locked (unlocked first member id)

/-- Two saves of revision 1 that have both counted the revisions: ten steps bring both to their end. -/
theorem requests_finish_overlap : ∃ s, Reachable plainRuntime s ∧
    (s.sessions.map fun session => session.phase.remaining).sum = 10 ∧
    ∀ actions s', (∀ action ∈ actions, action.starting = false) →
      (resumeSystem plainRuntime).perform Guard.free s actions = some s' →
      actions.countP Action.running ≤ 10 := by
  have ran : ((resumeSystem plainRuntime).perform Guard.free initialState
      (creating ++ [saving (some 1), saving (some 1)] ++ stepping 1 2 ++ stepping 2 2)).any
      (fun s => decide ((s.sessions.map fun session => session.phase.remaining).sum = 10)) = true :=
        by decide +kernel
  obtain ⟨s, reachable, counted⟩ := runs_of_performed ran
  have left := of_decide_eq_true counted
  refine ⟨s, reachable, left, ?_⟩
  rw [← left]
  exact (requests_finish reachable).1

def Phase.deaf : Phase → Bool
  | .finished _ | .flush _ _ | .insertApplication _ _ _ _ => true
  | _ => false

theorem deaf_next {rt : Runtime} {db : Database} {outside : Outside} {phase : Phase}
    (deaf : phase.deaf = true) (input : Input) :
    next rt db outside phase input = next rt db outside phase .answer := by
  cases phase <;> first
    | rfl
    | cases deaf

/-- An application that has stored its PDF and a deletion of its workspace wait for each other. -/
theorem deletion_deadlocks : ∃ s, Reachable plainRuntime s ∧
    (∀ i input, (resumeSystem plainRuntime).step s (.run i input) = none) ∧
    ∃ first ∈ s.sessions, ∃ second ∈ s.sessions, Crossing first second := by
  let actions := creating ++ approving :: stepping 1 3 ++ applying :: stepping 2 5 ++
    .start (.owned 7 1 .deleteWorkspace) :: stepping 3 2
  have ran : ((resumeSystem plainRuntime).perform Guard.free initialState actions).any (fun s =>
      (s.sessions.zipIdx.all fun (session, i) => session.phase.deaf &&
        ((resumeSystem plainRuntime).step s (.run i .answer)).isNone) &&
        s.sessions.any fun session => decide (session.phase.remaining = 2)) = true := by decide +kernel
  obtain ⟨s, reachable, check⟩ := runs_of_performed ran
  obtain ⟨waiting, unfinished⟩ := Bool.and_eq_true_iff.mp check
  have stuck : ∀ i input, (resumeSystem plainRuntime).step s (.run i input) = none := by
    intro i input
    cases found : s.sessions[i]? with
    | none => rw [System.step, found]; rfl
    | some session =>
      have each := List.all_eq_true.mp waiting (session, i)
        (List.mem_iff_getElem?.mpr ⟨i, by rw [List.getElem?_zipIdx, found]; simp⟩)
      obtain ⟨deaf, none⟩ := Bool.and_eq_true_iff.mp each
      have same : (resumeSystem plainRuntime).step s (.run i input) = (resumeSystem plainRuntime).step s
          (.run i .answer) := by
        have asked : (resumeSystem plainRuntime).next = next plainRuntime := rfl
        rw [System.step, System.step, found, asked]
        simp only [Option.bind_eq_bind, Option.bind_some, deaf_next deaf input]
      rw [same]
      exact Option.isNone_iff_eq_none.mp none
  refine ⟨s, reachable, stuck, ?_⟩
  cases stuck_crosses reachable stuck with
  | inr crossing => exact crossing
  | inl finished =>
    obtain ⟨session, member, left⟩ := List.any_eq_true.mp unfinished
    obtain ⟨outcome, ended⟩ := finished session member
    rw [ended] at left
    cases left

end ManifestCV.Workspace
