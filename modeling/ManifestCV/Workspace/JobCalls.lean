import ManifestCV.Workspace.Catalogue
import ManifestCV.Workspace.History

namespace ManifestCV.Workspace

open Foundation Foundation.Transactions Document Render

def Phase.calls? : Phase → Option Nat
  | .job _ jobId => some jobId
  | .deferring _ | .flush (.queueJob _) _ | .finished _ => none
  | phase => phase.jobObject?.map (·.id)

/-- The job is gone or its status is final. -/
def Database.Concluded (db : Database) (jobId : Nat) : Prop :=
  ∀ row ∈ db.jobs, row.id = jobId → row.status = .succeeded ∨ row.status = .failed

/-- A step of a job's function raises what the function does not catch: the KeyError of `markdown_to_blocks`,
    an error of the renderer, or the IntegrityError of an INSERT. -/
def uncaught (rt : Runtime) (db : Database) (outside : Outside) (phase : Phase) (input : Input) : Bool :=
  match phase, input with
  | .jobThinking _ _ source, .generated text =>
    (loads rt.floats source.documentJson).any fun payload => (structuredDocument rt text payload).isNone
  | .artifact _ revision (.renderJob _), _ =>
    (db.artifact? revision.id).isNone &&
      (readDocument rt revision.documentJson).any fun document => (renderDocumentPdf rt document).isNone
  | .insertRevision (.worker job held source) text, _ =>
    !admitsWrite db (.insertRevision (revisionRow (.worker job held source) outside.nextRevisionId text))
  | .insertArtifact held revision (.renderJob _) key pdf, _ =>
    !admitsWrite db (.insertArtifact held.id ⟨outside.nextArtifactId, revision.id, key,
      pdf.length, sha256 pdf⟩)
  | _, _ => false

/-- The next step of a job's function raises an exception that it does not catch; any other exception, such as
    one of the storage client, may come at any step. -/
def raises (rt : Runtime) (s : State Database Outside Phase Write) : Action Input Request → Bool
  | .start _ => false
  | .run i input => s.sessions[i]?.any fun session =>
      uncaught rt ((resumeSystem rt).view s.db session.pending) s.outside session.phase input
  | .abort i => s.sessions[i]?.any fun session => session.phase.calls?.isSome

section Steps

variable {rt : Runtime} {db db' : Database} {outside outside' : Outside} {phase phase' : Phase}
  {input : Input}
  {pending pending' : List Write} {effect : Effect Outside Phase Write} {batch : Batch} {jobId : Nat}

theorem running_calls {job : ResumeJob} (running : phase.job? = some job) : phase.calls? = some job.id := by
  cases phase with
  | jobWorkspace function row => cases running; rfl
  | jobRevision function row held => cases running; rfl
  | jobThinking row held source => cases running; rfl
  | artifact held source reader =>
    cases reader <;> cases running
    rfl
  | readStored held source reader row =>
    cases reader <;> cases running
    rfl
  | store held source reader pdf =>
    cases reader <;> cases running
    rfl
  | _ => cases running

theorem afterRendering_calls {held : ResumeWorkspace} {source : ResumeRevision} {rendering : Rendering}
    {reader : Reader} :
    (afterRendering held source rendering reader).calls? = reader.job?.map (·.id) := by
  cases reader <;> rfl

theorem next_calls (step : Next rt db outside phase input effect) (calls : phase.calls? = some jobId) :
    effect.phase.calls? = some jobId ∨
      ∃ outcome, effect = .fail (.finished outcome) ∨ ∃ outside',
        effect = .commit (.finished outcome) outside' := by
  cases step with
  | written =>
    rename_i held refining source text payload document
    cases refining <;> cases calls
  | verified => exact .inl (afterRendering_calls.trans calls)
  | catalogued => exact .inl (afterRendering_calls.trans calls)
  | publishing => cases calls
  | sent =>
    rename_i batch sent w more
    cases batch with
    | queueJob row => cases calls
    | _ => exact .inl calls
  | committed =>
    rename_i batch sent all
    cases batch with
    | startJob function job => exact .inl calls
    | queueJob row => cases calls
    | _ => exact .inr ⟨_, .inr ⟨_, rfl⟩⟩
  | started found =>
    cases calls
    exact .inl (congrArg some (job?_some found).2)
  | jobFailed running => exact .inl ((running_calls running).symm.trans calls)
  | queued => cases calls
  | deferred => cases calls
  | failed => exact .inr ⟨_, .inl rfl⟩
  | blamed => exact .inr ⟨_, .inl rfl⟩
  | _ => exact .inl calls

theorem calls_object {sent : Nat} (calls : (Phase.flush batch sent).calls? = some jobId) :
    ∃ job, batch.job? = some job ∧ job.id = jobId := by
  cases batch with
  | queueJob row => cases calls
  | _ => exact Option.map_eq_some_iff.mp calls

theorem job_workspace {job row : ResumeJob} {held : ResumeWorkspace}
    (sound : (resumeFacts rt).Sound outside ((resumeFacts rt).seen db outside phase pending))
    (ok : Placed phase) (catalogued : Catalogued db outside) (employs : phase.jobObject? = some job)
    (holds : phase.held? = some held) (member : row ∈ db.jobs) (same : row.id = job.id) :
    db.workspace? held.id ≠ none := by
  have place : row.workspaceId = job.workspaceId :=
    (sound.agreed _ _ (job_fact member (jobHome_mem row)) (object_fact employs (jobHome_mem job))).1 same
  rw [ok.house held job holds employs, ← place]
  exact catalogued.placed row member

theorem job?_isSome {row : ResumeJob} (member : row ∈ db.jobs) : (db.job? row.id).isSome := by
  rw [Database.job?, List.find?_isSome]
  exact ⟨row, member, decide_eq_true rfl⟩

theorem revision?_isSome {row : ResumeRevision} (member : row ∈ db.revisions) :
    (db.revision? row.id).isSome := by
  rw [Database.revision?, List.find?_isSome]
  exact ⟨row, member, decide_eq_true rfl⟩

/-- A statement of a call that the database refuses, without the call raising for it, finds the job gone. -/
theorem refused_gone {w : Write} (history : Sound db outside phase pending)
    (sound : (resumeFacts rt).Sound outside ((resumeFacts rt).seen db outside phase pending))
    (ok : Placed phase) (catalogued : Catalogued db outside) (kept : Kept db outside phase pending)
    (calls : phase.calls? = some jobId)
    (step : Next rt (replay db pending) outside phase input (.write w phase' outside'))
    (refused : admitsWrite (replay db pending) w = false)
    (caught : uncaught rt (replay db pending) outside phase input = false) :
    ∀ row ∈ db.jobs, row.id ≠ jobId := by
  have raised : uncaught rt (replay db pending) outside phase input = !admitsWrite (replay db pending) w →
      False := by
    intro same
    rw [same, refused] at caught
    cases caught
  cases step with
  | created => cases calls
  | queued => cases calls
  | applied => cases calls
  | inserted =>
    rename_i writer text
    cases writer with
    | worker job held source => exact (raised rfl).elim
    | _ => cases calls
  | catalogued =>
    rename_i held source reader key pdf
    cases reader with
    | renderJob job => exact (raised rfl).elim
    | _ => cases calls
  | sent more =>
    rename_i batch sent
    intro row member named
    have written := List.mem_of_getElem? more
    have issued : ∀ v ∈ pending, v ∈ batch.writes := by
      rw [history.shape]
      exact fun v inside => List.mem_of_mem_take inside
    have keeps : ∀ id, .deleteWorkspace id ∉ pending := by
      intro id inside
      obtain ⟨held, rfl⟩ := Batch.deletes (issued _ inside)
      cases calls
    obtain ⟨_, revisions, workspaces⟩ := @replay_keeps db pending keeps
    obtain ⟨job, employs, here⟩ := calls_object calls
    have present : ∀ held, batch.held? = some held → db.workspace? held.id ≠ none := fun held holds =>
      job_workspace sound ok catalogued (employs : (Phase.flush batch sent).jobObject? = some job) holds
        member (named.trans here.symm)
    have found : ∀ workspaceId update, w = .updateJob workspaceId jobId update →
        ((replay db pending).job? jobId).isSome = true := by
      rintro workspaceId update rfl
      obtain ⟨noJobs, _⟩ := updates_alone written
      have ids := @replay_jobIds db pending (fun row inside => noJobs row (issued _ inside)) keeps
      obtain ⟨other, listed, same⟩ :=
        List.mem_map.mp (ids ▸ List.mem_map_of_mem member : row.id ∈ (replay db pending).jobs.map (·.id))
      exact named ▸ same ▸ job?_isSome listed
    cases Batch.mem_writes written with
    | opens => cases calls
    | inserts => exact absurd (Batch.sent_createsNothing history.inserted more) not_false
    | points =>
      rename_i writer revisionId text
      cases writer with
      | worker worked held source =>
        rw [admitsWrite, Option.isSome_eq_false_iff, Option.isNone_iff_eq_none] at refused
        exact workspaces _ (present held rfl) refused
      | _ => cases calls
    | reports =>
      rename_i worked held source revisionId text
      cases calls
      have inserted : revisionRow (.worker worked held source) revisionId text ∈
          (replay db pending).revisions := by
        have three : sent = 2 := by
          obtain _ | _ | _ | sent := sent
          · cases more
          · cases more
          · rfl
          · cases more
        rw [history.shape, three]
        exact List.mem_append_right _ List.mem_cons_self
      have one := found _ _ rfl
      have two := revision?_isSome inserted
      simp only [admitsWrite, one, Option.all_some, Bool.true_and] at refused
      exact absurd (refused.symm.trans two) Bool.false_ne_true
    | approves => cases calls
    | locks => cases calls
    | deletes => cases calls
    | queues => cases calls
    | starts =>
      cases calls
      simp only [admitsWrite, found _ _ rfl, Option.all_none, Bool.and_self] at refused
      cases refused
    | fails =>
      cases calls
      simp only [admitsWrite, found _ _ rfl, Option.all_none, Bool.and_self] at refused
      cases refused
    | draws published inserted =>
      have rest := kept.left _
        (List.mem_of_getElem?
        (by rwa [List.getElem?_drop, Nat.add_zero] : (batch.writes.drop sent)[0]? = some _))
      cases rest
    | renders =>
      rename_i worked held source rendering
      cases calls
      have listed := (history.source held source rfl rfl (present held rfl)).1
      have one := found _ _ rfl
      have two := revision?_isSome (revisions source listed)
      simp only [admitsWrite, one, Option.all_some, Bool.true_and] at refused
      exact absurd (refused.symm.trans two) Bool.false_ne_true
    | applies => cases calls
    | tracks => cases calls
    | removes => cases calls

/-- An exception that a call raises in its own code is among the uncaught ones, unless there is no job. -/
theorem fails_gone (calls : phase.calls? = some jobId)
    (step : next rt db outside phase input = some (.fail phase'))
    (caught : uncaught rt db outside phase input = false) :
    phase.pending = [] ∧ ∀ row ∈ db.jobs, row.id ≠ jobId := by
  have failing : ∀ {outcome reader}, renderingFailed outside outcome reader = some (.fail phase') →
      reader.job? = none := by
    intro outcome reader answer
    cases reader with
    | renderJob job => cases answer
    | _ => rfl
  cases phase with
  | job function id =>
    cases calls
    simp only [next] at step
    split at step
    · rename_i missing
      refine ⟨rfl, fun row member same => ?_⟩
      rw [← same] at missing
      exact absurd ((congrArg Option.isSome missing).symm.trans (job?_isSome member)) Bool.false_ne_true
    · cases step
  | jobWorkspace function job =>
    simp only [next] at step
    split at step
    · cases step
    · cases function <;> cases step
  | jobRevision function job held =>
    simp only [next] at step
    split at step
    · cases step
    · cases step
    · split at step <;> cases step
    · cases step
  | jobThinking job held source =>
    cases input with
    | generated text =>
      simp only [next, afterJobThinking] at step
      simp only [uncaught] at caught
      split at step
      · cases step
      · rename_i payload loaded
        split at step
        · rename_i structured
          rw [loaded, Option.any_some, structured] at caught
          cases caught
        · cases step
    | _ => cases step
  | artifact held source reader =>
    cases reader with
    | renderJob job =>
      simp only [next] at step
      simp only [uncaught] at caught
      split at step
      · cases step
      · rename_i absent
        split at step
        · cases step
        · rename_i document read
          split at step
          · rename_i drawn
            rw [absent, read, Option.any_some, drawn] at caught
            cases caught
          · cases step
    | _ => cases calls
  | readStored held source reader row =>
    simp only [next] at step
    split at step
    · have object : reader.job?.map (·.id) = some jobId := calls
      rw [failing step] at object
      cases object
    · cases step
  | store held source reader pdf =>
    have job : reader.job? = none := by
      simp only [next] at step
      split at step
      · exact failing step
      · split at step
        · cases step
        · exact failing step
    have object : reader.job?.map (·.id) = some jobId := calls
    rw [job] at object
    cases object
  | insertArtifact held source reader key pdf => cases step
  | insertRevision writer text => cases step
  | flush batch sent =>
    simp only [next] at step
    split at step <;> cases step
  | _ => cases calls

theorem concluded_update (workspaceId : Nat) {update : JobUpdate}
    (final : update.status = .succeeded ∨ update.status = .failed) :
    (applyWrite db (.updateJob workspaceId jobId update)).Concluded jobId := by
  intro row member named
  obtain ⟨old, _, rfl⟩ := List.mem_map.mp member
  split at named
  · rw [if_pos ‹_›]
    exact final
  · exact absurd named ‹_›

theorem commit_concludes {sent : Nat} {outcome : Outcome}
    (calls : (Phase.flush batch sent).calls? = some jobId) (ends : batch.after = .finished outcome) :
    (replay db batch.writes).Concluded jobId := by
  cases batch with
  | revision writer revisionId text =>
    cases writer with
    | worker job held source =>
      cases calls
      rw [Batch.writes, replay_append]
      exact concluded_update job.workspaceId (.inl rfl)
    | _ => cases calls
  | failJob job code message =>
    cases calls
    exact concluded_update job.workspaceId (.inr rfl)
  | rendered job held source rendering =>
    cases calls
    rw [Batch.writes, replay_append]
    exact concluded_update job.workspaceId (.inl rfl)
  | startJob function job => cases ends
  | _ => cases calls

theorem commit_running {row : ResumeJob} (rooted : ∀ w ∈ batch.writes, w.Rooted db outside)
    (member : row ∈ (replay db batch.writes).jobs) (running : row.status = .running) :
    (∃ old ∈ db.jobs, old.id = row.id ∧ old.status = .running) ∨ ∃ function job,
    batch = .startJob function job ∧ job.id = row.id := by
  by_cases deletes : ∃ held, batch = .delete held
  · obtain ⟨held, rfl⟩ := deletes
    obtain ⟨old, inside, rfl⟩ := List.mem_map.mp member
    exact .inl ⟨old, (List.mem_filter.mp inside).1, rfl, running⟩
  · refine replay_jobs (P := fun row => row.status = .running →
      (∃ old ∈ db.jobs, old.id = row.id ∧ old.status = .running) ∨
      ∃ function job, batch = .startJob function job ∧ job.id = row.id) ?_ ?_ ?_ (fun id inside =>
        deletes (Batch.deletes inside))
      row member running
    · exact fun old listed status => .inl ⟨old, listed, rfl, status⟩
    · intro new inserted status
      exact nomatch (rooted _ inserted).1.symm.trans status
    · intro workspaceId id update updated old _ named status
      have set : update.status = .running := status
      generalize written : Write.updateJob workspaceId id update = w at updated
      cases Batch.mem_writes updated <;> cases written
      · cases set
      · exact .inr ⟨_, _, rfl, named.symm⟩
      · cases set
      · cases set

/-- A call that ends, without an exception that it does not catch, leaves its job concluded. -/
theorem moves_ends {label : Option Input} {outcome : Outcome}
    (known : (knownAssertion rt).own db outside phase pending) (catalogued : Catalogued db outside)
    (kept : Kept db outside phase pending) (calls : phase.calls? = some jobId)
    (caught : ∃ input, label = some input ∧ uncaught rt (replay db pending) outside phase input = false)
    (moves : (resumeSystem rt).Moves db outside phase pending label db' outside'
      (.finished outcome) pending') :
    db'.Concluded jobId := by
  obtain ⟨history, sound, ok⟩ := known
  obtain ⟨input, rfl, caught⟩ := caught
  have gone : (∀ row ∈ db.jobs, row.id ≠ jobId) → db.Concluded jobId := fun missing row member named =>
    absurd named (missing row member)
  generalize ends : Phase.finished outcome = after at moves
  cases moves with
  | read next =>
    subst ends
    rcases next_calls (next_cases next) calls with more | ⟨_, same | ⟨_, same⟩⟩
    · cases more
    · cases same
    · cases same
  | write next admitted =>
    subst ends
    rcases next_calls (next_cases next) calls with more | ⟨_, same | ⟨_, same⟩⟩
    · cases more
    · cases same
    · cases same
  | refused next refused =>
      exact gone (refused_gone history sound ok catalogued kept calls (next_cases next) refused caught)
  | commit next =>
    obtain ⟨batch, sent, rfl, _, rfl, rfl, rfl, _⟩ := commit_change history (next_cases next)
    exact commit_concludes calls ends.symm
  | fail next =>
    obtain ⟨empty, missing⟩ := fails_gone calls next caught
    exact gone (clean_view history empty ▸ missing)

theorem uncaught_unchanged (raised : uncaught rt (replay db pending) outside phase input = true)
    (moves : (resumeSystem rt).Moves db outside phase pending (some input) db' outside' phase' pending') :
    db' = db := by
  cases moves with
  | commit next =>
    obtain ⟨batch, sent, rfl, _⟩ := next_commit (next_cases next)
    cases raised
  | _ => rfl

theorem aborted_unchanged
    (moves : (resumeSystem rt).Moves db outside phase pending none db' outside' phase' pending') :
    db' = db := by
  cases moves
  rfl

/-- A job that is running after a step was so before it, or the acting session has started it. -/
theorem moves_running {label : Option Input} {row : ResumeJob}
    (known : (knownAssertion rt).own db outside phase pending) (kept : Kept db outside phase pending)
    (moves : (resumeSystem rt).Moves db outside phase pending label db' outside' phase' pending')
    (member : row ∈ db'.jobs) (running : row.status = .running) :
    (∃ old ∈ db.jobs, old.id = row.id ∧ old.status = .running) ∨ phase'.calls? = some row.id := by
  cases moves with
  | commit next =>
    obtain ⟨batch, sent, rfl, _, rfl, rfl, rfl, _⟩ := commit_change known.1 (next_cases next)
    rcases commit_running kept.rooted member running with old | ⟨function, job, rfl, named⟩
    · exact .inl old
    · exact .inr (congrArg some named)
  | _ => exact .inl ⟨row, member, rfl, running⟩

theorem moves_calls {label : Option Input}
    (moves : (resumeSystem rt).Moves db outside phase pending label db' outside' phase' pending')
    (calls : phase.calls? = some jobId) :
    phase'.calls? = some jobId ∨ ∃ outcome, phase' = .finished outcome := by
  have ends : ∀ {effect : Effect Outside Phase Write},
    (effect.phase.calls? = some jobId ∨ ∃ outcome, effect = .fail (.finished outcome) ∨
      ∃ outside', effect = .commit (.finished outcome) outside') → effect.phase.calls? = some jobId ∨
          ∃ outcome, effect.phase = .finished outcome := by
    rintro effect (more | ⟨outcome, rfl | ⟨_, rfl⟩⟩)
    · exact .inl more
    · exact .inr ⟨outcome, rfl⟩
    · exact .inr ⟨outcome, rfl⟩
  cases moves with
  | read next => exact ends (next_calls (next_cases next) calls)
  | write next _ => exact ends (next_calls (next_cases next) calls)
  | refused _ _ => exact .inr (finished_failed phase)
  | commit next => exact ends (next_calls (next_cases next) calls)
  | fail next => exact ends (next_calls (next_cases next) calls)
  | abort => exact .inr (finished_failed phase)

end Steps

/-- Some session still works on every job that is running. -/
def Attended (s : State Database Outside Phase Write) : Prop :=
  ∀ job ∈ s.db.jobs, job.status = .running → ∃ session ∈ s.sessions, session.phase.calls? = some job.id

section Runs

variable {rt : Runtime} {s s' : State Database Outside Phase Write} {action : Action Input Request}

/-- The step by which a call ends leaves its job concluded, or the call raises and the step changes
    nothing. -/
theorem call_ends (reachable : Reachable rt s) {i jobId : Nat} {session last : Session Phase Write}
    {outcome : Outcome} (here : s.sessions[i]? = some session) (calls : session.phase.calls? = some jobId)
    (step : (resumeSystem rt).step s action = some s') (after : s'.sessions[i]? = some last)
    (ended : last.phase = .finished outcome) :
    if raises rt s action then s'.db = s.db else s'.db.Concluded jobId := by
  have going : s'.sessions[i]? = some session → False := by
    intro same
    cases after.symm.trans same
    rw [ended] at calls
    cases calls
  rcases step_moves step with ⟨request, phase, outside, rfl, _, rfl⟩ | ⟨j, acting, label, phase, pending,
    found, acts, moves, _, placed⟩
  · rw [List.getElem?_append_left (List.getElem?_eq_some_iff.mp here).1] at going
    exact (going here).elim
  · by_cases same : j = i
    · subst same
      cases found.symm.trans here
      have known := (known_holds reachable).own j session here
      have catalogue := catalogue_holds reachable
      rw [placed, List.getElem?_set_self (List.getElem?_eq_some_iff.mp here).1] at after
      cases after
      rcases acts with ⟨rfl, rfl⟩ | ⟨input, rfl, rfl⟩
      · rw [if_pos (by rw [raises, here, Option.any_some, calls]; rfl)]
        exact aborted_unchanged moves
      · have condition : raises rt s (.run j input) = uncaught rt (replay s.db session.pending) s.outside
            session.phase input := by
          rw [raises, here, Option.any_some]
          rfl
        rw [condition]
        split
        · exact uncaught_unchanged ‹_› moves
        · subst ended
          exact moves_ends known catalogue.common (catalogue.own j session here) calls
            ⟨input, rfl, Bool.eq_false_iff.mpr ‹_›⟩ moves
    · rw [placed, List.getElem?_set_ne same] at going
      exact (going here).elim

theorem attended_step (reachable : Reachable rt s) (attended : Attended s)
    (step : (resumeSystem rt).step s action = some s') (caught : raises rt s action = false) :
    Attended s' := by
  intro job member running
  rcases step_moves step with ⟨request, phase, outside, _, _, rfl⟩ | ⟨i, session, label, phase, pending, here,
    _, moves, _, placed⟩
  · obtain ⟨worker, inside, calls⟩ := attended job member running
    exact ⟨worker, List.mem_append_left _ inside, calls⟩
  · have inside := (List.getElem?_eq_some_iff.mp here).1
    have known := (known_holds reachable).own i session here
    have kept := (catalogue_holds reachable).own i session here
    have mine : s'.sessions[i]? = some ⟨phase, pending⟩ := by rw [placed, List.getElem?_set_self inside]
    rcases moves_running known kept moves member running with ⟨old, listed, named, status⟩ | calls
    · obtain ⟨worker, present, calls⟩ := attended old listed status
      rw [named] at calls
      obtain ⟨k, found⟩ := List.getElem?_of_mem present
      by_cases same : k = i
      · subst same
        cases found.symm.trans here
        rcases moves_calls moves calls with more | ⟨outcome, rfl⟩
        · exact ⟨_, List.mem_of_getElem? mine, more⟩
        · have ends := call_ends reachable here calls step mine rfl
          rw [caught] at ends
          rcases ends job member rfl with done | done <;> exact nomatch done.symm.trans running
      · have stays : s'.sessions[k]? = some worker :=
          by rw [placed, List.getElem?_set_ne (Ne.symm same), found]
        exact ⟨worker, List.mem_of_getElem? stays, calls⟩
    · exact ⟨_, List.mem_of_getElem? mine, calls⟩

theorem attended_runs
    (run : RunsWhere (resumeSystem rt) (fun t action => !raises rt t action) initialState s) :
    Attended s := by
  induction run with
  | refl => exact fun _ member => (nomatch member)
  | tail run step ih =>
    obtain ⟨action, caught, stepped⟩ := step
    exact attended_step (RunsWhere.free run) ih stepped (by simpa using caught)

/-- Job calls conclude their jobs as far as they raise nothing that they do not catch: the step by which a
    call ends leaves the job concluded exactly if it raises nothing or the job was concluded already, and in a
    run without such steps no job stays running. -/
theorem job_calls_conclude (rt : Runtime) :
    (∀ s, Reachable rt s → ∀ (i : Nat) session jobId, s.sessions[i]? = some session →
      session.phase.calls? = some jobId →
      ∀ action s', (resumeSystem rt).step s action = some s' →
        ∀ last outcome, s'.sessions[i]? = some last → last.phase = .finished outcome →
          (s'.db.Concluded jobId ↔ (raises rt s action = true → s.db.Concluded jobId))) ∧
    ∀ s, RunsWhere (resumeSystem rt) (fun t action => !raises rt t action) initialState s → ∀ job ∈ s.db.jobs,
      job.status = .running →
      ∃ session ∈ s.sessions, session.phase.calls? = some job.id := by
  refine ⟨?_, fun s run => attended_runs run⟩
  intro s reachable i session jobId here calls action s' step last outcome after ended
  have ends := call_ends reachable here calls step after ended
  cases raised : raises rt s action with
  | true =>
    rw [raised, if_pos rfl] at ends
    rw [ends]
    exact ⟨fun concluded _ => concluded, fun kept => kept rfl⟩
  | false =>
    rw [raised] at ends
    exact ⟨fun _ impossible => (nomatch impossible), fun _ => ends⟩

end Runs

def awaiting : List (Action Input Request) :=
  creating ++ .start (.owned 7 1 .queueGenerationJob) :: stepping 1 4 ++ .start (.runGenerationJob 1) ::
    stepping 2 5

def hasEnded (session : Session Phase Write) : Bool :=
  match session.phase with
  | .finished _ => true
  | _ => false

theorem ended_phase {session : Session Phase Write} (ended : hasEnded session = true) :
    ∃ outcome, session.phase = .finished outcome := by
  unfold hasEnded at ended
  split at ended
  · exact ⟨_, ‹_›⟩
  · cases ended

/-- The model cannot be reached: the call raises nothing and its job has failed. -/
theorem job_calls_conclude_unavailable : ∃ s action s', Reachable plainRuntime s ∧
    (resumeSystem plainRuntime).step s action = some s' ∧ raises plainRuntime s action = false ∧
    s'.db.Concluded 1 ∧
    s'.db.jobs.map (·.status) = [.failed] := by
  have ran : ((resumeSystem plainRuntime).perform Guard.free initialState
      (awaiting ++ .run 2 .unavailable :: stepping 2 1)).any (fun s =>
      (s.sessions[2]?.any fun session => session.phase.calls? = some 1) ∧
        raises plainRuntime s (.run 2 .answer) = false ∧
        (((resumeSystem plainRuntime).perform Guard.free s [.run 2 .answer]).any fun s' =>
          s'.sessions[2]?.any hasEnded ∧ s'.db.jobs.map (·.status) = [.failed]) = true) = true :=
            by with_unfolding_all decide
  obtain ⟨s, reachable, check⟩ := runs_of_performed ran
  obtain ⟨worker, caught, check⟩ := of_decide_eq_true check
  obtain ⟨s', _, step, check⟩ := step_of_performed check
  obtain ⟨after, statuses⟩ := of_decide_eq_true check
  obtain ⟨session, here, calls⟩ := (Option.any_eq_true _ _).mp worker
  obtain ⟨last, later, ended⟩ := (Option.any_eq_true _ _).mp after
  obtain ⟨outcome, done⟩ := ended_phase ended
  have ends := (job_calls_conclude plainRuntime).1 s reachable 2 session 1 here (of_decide_eq_true calls) _ s'
    step last outcome later done
  exact ⟨s, _, s', reachable, step, caught, ends.mpr fun raised => (nomatch caught.symm.trans raised),
    statuses⟩

set_option maxRecDepth 20000 in
/-- A save commits revision 2 while the model answers the worker: the INSERT of the worker's revision 2 raises
    an IntegrityError, and its job is running for ever. -/
theorem job_left_running : ¬ ∀ s, Reachable plainRuntime s → ∀ (i : Nat) session jobId,
    s.sessions[i]? = some session →
    session.phase.calls? = some jobId → ∀ action s', (resumeSystem plainRuntime).step s action = some s' →
      ∀ last outcome, s'.sessions[i]? = some last → last.phase = .finished outcome →
        s'.db.Concluded jobId := by
  intro claim
  let actions := awaiting ++ saving (some 1) :: stepping 3 5 ++ [.run 2 (.generated "- Built engines".toList)]
  have ran : ((resumeSystem plainRuntime).perform Guard.free initialState actions).any (fun s =>
      (s.sessions[2]?.any fun session => session.phase.calls? = some 1) ∧
        (((resumeSystem plainRuntime).perform Guard.free s [.run 2 .answer]).any fun s' =>
          s'.sessions[2]?.any hasEnded ∧ s'.db.jobs.map (fun row => (row.id, row.status)) = [(1, .running)]) =
              true) = true := by
    with_unfolding_all decide
  obtain ⟨s, reachable, check⟩ := runs_of_performed ran
  obtain ⟨worker, check⟩ := of_decide_eq_true check
  obtain ⟨s', _, step, check⟩ := step_of_performed check
  obtain ⟨after, statuses⟩ := of_decide_eq_true check
  obtain ⟨session, here, calls⟩ := (Option.any_eq_true _ _).mp worker
  obtain ⟨last, later, ended⟩ := (Option.any_eq_true _ _).mp after
  obtain ⟨outcome, done⟩ := ended_phase ended
  have concluded := claim s reachable 2 session 1 here (of_decide_eq_true calls) _ s' step
    last outcome later done
  obtain ⟨row, rows, pair⟩ := List.map_eq_singleton_iff.mp statuses
  have status := concluded row (by rw [rows]; exact List.mem_cons_self) (congrArg Prod.fst pair)
  rcases status with final | final <;> exact nomatch (congrArg Prod.snd pair).symm.trans final

end ManifestCV.Workspace
