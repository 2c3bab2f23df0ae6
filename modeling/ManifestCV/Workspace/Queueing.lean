import ManifestCV.Workspace.JobCalls

namespace ManifestCV.Workspace

open Foundation Foundation.Transactions Document

def Awaits (s : State Database Outside Phase Write) (row : ResumeJob) : Prop :=
  row ∈ s.db.jobs ∧ row.status = .queued ∧ ∀ session ∈ s.sessions, session.phase.calls? ≠ some row.id

/-- What the task of a job passes to `generate_resume_job` or `render_resume_job`. -/
def jobTask (row : ResumeJob) : Task := ⟨row.kind, [("job_id".toList, row.id)]⟩

def commitsJob (s : State Database Outside Phase Write) : Action Input Request → Bool
  | .run i _ => s.sessions[i]?.any fun session =>
      match session.phase with
      | .flush (.queueJob row) sent => (Batch.queueJob row).writes[sent]?.isNone
      | _ => false
  | _ => false

def taskAssertion : Assertion Database Outside Phase Write where
  common _ outside := ∀ task ∈ outside.tasks, task.arguments = []
  own _ _ _ _ := True
  pair _ _ _ _ := True

section Steps

variable {rt : Runtime} {db db' : Database} {outside outside' : Outside} {phase phase' : Phase}
  {input : Input}
  {pending pending' : List Write} {effect : Effect Outside Phase Write} {batch : Batch}

theorem next_tasks (step : Next rt db outside phase input effect)
    (bare : ∀ task ∈ outside.tasks, task.arguments = []) :
    ∀ task ∈ (effect.outside outside).tasks, task.arguments = [] := by
  cases step with
  | deferred =>
    intro task member
    rcases List.mem_append.mp member with old | new
    · exact bare task old
    · rw [List.mem_singleton.mp new]
  | _ => exact bare

theorem task_stable (rt : Runtime) : Stable (resumeSystem rt) Guard.free Assertion.trivial taskAssertion where
  start _ bare started := by
    cases started
    exact ⟨bare, trivial⟩
  startOther _ _ _ _ := ⟨trivial, trivial, trivial⟩
  own _ _ bare _ _ moves := by
    refine ⟨?_, trivial⟩
    cases moves with
    | read next => exact next_tasks (next_cases next) bare
    | write next _ => exact next_tasks (next_cases next) bare
    | commit next => exact next_tasks (next_cases next) bare
    | _ => exact bare
  other _ _ _ _ _ _ _ _ _ _ _ _ _ := ⟨trivial, trivial, trivial⟩

theorem tasks_bare {s : State Database Outside Phase Write} (reachable : Reachable rt s) :
    ∀ task ∈ s.outside.tasks, task.arguments = [] :=
  (holds_idle_runs conflicts_symm (task_stable rt) (fun t _ => Assertion.trivial_holds t) rfl
    (by intro _ member; cases member) reachable).2.common

theorem commit_jobless (nothing : db.jobs = []) (other : ∀ row, batch ≠ .queueJob row) :
    (replay db batch.writes).jobs = [] := by
  by_cases deletes : ∃ held, batch = .delete held
  · obtain ⟨held, rfl⟩ := deletes
    change ((db.jobs.filter _).map _) = []
    rw [nothing]
    rfl
  · have gone : ∀ job ∈ (replay db batch.writes).jobs, False :=
      replay_jobs (P := fun _ => False) (fun job member => nomatch nothing ▸ member)
        (fun row member => (Batch.queues member).elim fun _ same => other _ same) (fun _ _ _ _ _ old _ => old)
        fun id member => deletes (Batch.deletes member)
    exact List.eq_nil_iff_forall_not_mem.mpr gone

end Steps

section Runs

variable {rt : Runtime} {s s' : State Database Outside Phase Write}

theorem jobless_runs
    (run : RunsWhere (resumeSystem rt) (fun t action => !commitsJob t action) initialState s) :
    s.db.jobs = [] := by
  induction run with
  | refl => rfl
  | tail run step ih =>
    rename_i t t'
    obtain ⟨action, other, step⟩ := step
    have reachable : Reachable rt t := RunsWhere.free run
    rcases step_moves step with ⟨request, phase, outside, _, _, rfl⟩ | ⟨i, session, label, phase, pending,
      placed, acts, moves, _, _⟩
    · exact ih
    · have history := (history_holds reachable).2.own i session placed
      have quiet : ∀ input row sent, label = some input → session.phase = .flush (.queueJob row) sent →
          (Batch.queueJob row).writes[sent]? ≠ none := by
        rintro input row sent rfl here all
        rcases acts with ⟨_, same⟩ | ⟨input, rfl, same⟩
        · cases same
        · simp only [commitsJob, placed, Option.any_some, here, all, Option.isNone_none,
            Bool.not_true] at other
          cases other
      generalize t'.db = db' at moves
      generalize t'.outside = outside' at moves
      cases moves with
      | commit next =>
        obtain ⟨batch, sent, here, all, written, _, _, _⟩ := commit_change history (next_cases next)
        change (replay t.db session.pending).jobs = []
        rw [written]
        exact commit_jobless ih fun row same => quiet _ row sent rfl (same ▸ here) (same ▸ all)
      | _ => exact ih

/-- A queued job gets a task with its id exactly where there is none: `defer_async(job.id)` passes the id by
    position, and a task receives keyword arguments only. So no job is stranded as long as no request commits
    one. -/
theorem queued_jobs_stranded (rt : Runtime) :
    (∀ s, Reachable rt s → ((∀ row, Awaits s row → jobTask row ∈ s.outside.tasks) ↔ ∀ row, ¬ Awaits s row)) ∧
    ∀ s, RunsWhere (resumeSystem rt) (fun t action => !commitsJob t action) initialState s →
      ∀ row, Awaits s row → jobTask row ∈ s.outside.tasks := by
  have bare : ∀ s, Reachable rt s → ∀ row, jobTask row ∉ s.outside.tasks := by
    intro s reachable row member
    cases tasks_bare reachable _ member
  refine ⟨fun s reachable => ⟨?_, ?_⟩, ?_⟩
  · exact fun served row awaits => bare s reachable row (served row awaits)
  · exact fun nobody row awaits => absurd awaits (nobody row)
  · intro s run row awaits
    have listed := awaits.1
    rw [jobless_runs run] at listed
    cases listed

end Runs

theorem queued_jobs_stranded_refused :
    ∃ s, RunsWhere (resumeSystem plainRuntime) (fun t action => !commitsJob t action) initialState s ∧
    s.sessions.length = 2 ∧ s.sessions.all hasEnded = true ∧ ∀ row, Awaits s row →
        jobTask row ∈ s.outside.tasks := by
  have ran : ((resumeSystem plainRuntime).performWhere (fun t action => !commitsJob t action) initialState
      (creating ++ .start (.owned 7 1 .queueExportJob) :: stepping 1 1)).any
        (fun s => s.sessions.length = 2 ∧ s.sessions.all hasEnded = true) = true :=
          by with_unfolding_all decide
  obtain ⟨s, run, check⟩ := runsWhere_of_performed ran
  obtain ⟨two, ended⟩ := of_decide_eq_true check
  exact ⟨s, run, two, ended, (queued_jobs_stranded plainRuntime).2 s run⟩

/-- The generation of a draft is queued with 202, and every request has ended. -/
theorem queued_job_stranded :
    ¬ ∀ s, Reachable plainRuntime s → (∀ session ∈ s.sessions, ∃ outcome, session.phase = .finished outcome) →
    ∀ row, Awaits s row → jobTask row ∈ s.outside.tasks := by
  intro claim
  have ran : ((resumeSystem plainRuntime).perform Guard.free initialState
      (creating ++ .start (.owned 7 1 .queueGenerationJob) :: stepping 1 4)).any (fun s =>
        s.sessions.all hasEnded = true ∧
        s.db.jobs.map (·.status) = [.queued] ∧ s.outside.tasks = [⟨.generate, []⟩]) = true :=
          by with_unfolding_all decide
  obtain ⟨s, reachable, check⟩ := runs_of_performed ran
  obtain ⟨ended, statuses, tasks⟩ := of_decide_eq_true check
  obtain ⟨row, rows, status⟩ := List.map_eq_singleton_iff.mp statuses
  have allFinished : ∀ session ∈ s.sessions, ∃ outcome, session.phase = .finished outcome :=
    fun session member => ended_phase (List.all_eq_true.mp ended session member)
  have idle : ∀ session ∈ s.sessions, session.phase.calls? ≠ some row.id := by
    intro session member calls
    obtain ⟨outcome, done⟩ := allFinished session member
    rw [done] at calls
    cases calls
  have queued := claim s reachable allFinished row ⟨by rw [rows]; exact List.mem_cons_self, status, idle⟩
  rw [tasks] at queued
  cases congrArg Task.arguments (List.mem_singleton.mp queued)

end ManifestCV.Workspace
