import ManifestCV.Foundation.Lists
import ManifestCV.Workspace.Filing
import ManifestCV.Workspace.JobCalls
import ManifestCV.Workspace.Publishing

namespace ManifestCV.Workspace

open Foundation Foundation.Transactions Document Render

def approvedRow : ResumeWorkspace := ⟨1, 7, "classic_single_column".toList, .approved, some 1⟩

def Phase.raised : Phase → Bool
  | .finished .failed => true
  | _ => false

theorem raised_failed {phase : Phase} (raised : phase.raised = true) : phase = .finished .failed := by
  unfold Phase.raised at raised
  split at raised
  · rfl
  · cases raised

def leads (may : State Database Outside Phase Write → Action Input Request → Bool)
    (actions : List (Action Input Request)) (check : State Database Outside Phase Write → Bool)
    (s : State Database Outside Phase Write) : Bool :=
  decide (s.db.workspaces = [approvedRow]) && (s.db.revision? 1).any (fun source =>
    (rendered plainRuntime source.documentJson).any fun pdf => pdf.length ≤ maxArtifactBytes) &&
    ((resumeSystem plainRuntime).performWhere may { s with sessions := [] } actions).any check

theorem leads_some {may : State Database Outside Phase Write → Action Input Request → Bool}
    {actions : List (Action Input Request)} {check : State Database Outside Phase Write → Bool}
    (ran : ((resumeSystem plainRuntime).perform Guard.free initialState
      (creating ++ approving :: stepping 1 3)).any (leads may actions check) = true) :
    ∃ s source pdf t, Reachable plainRuntime s ∧ approvedRow ∈ s.db.workspaces ∧
      approvedRow.currentRevisionId.bind s.db.revision? = some source ∧
        rendered plainRuntime source.documentJson = some pdf ∧
      pdf.length ≤ maxArtifactBytes ∧ RunsWhere (resumeSystem plainRuntime) may { s with sessions := [] } t ∧
        check t = true := by
  obtain ⟨s, reachable, checked⟩ := runs_of_performed ran
  obtain ⟨both, performed⟩ := Bool.and_eq_true_iff.mp checked
  obtain ⟨rows, readable⟩ := Bool.and_eq_true_iff.mp both
  obtain ⟨source, found, printable⟩ := (Option.any_eq_true _ _).mp readable
  obtain ⟨pdf, drawn, small⟩ := (Option.any_eq_true _ _).mp printable
  obtain ⟨t, run, check⟩ := runsWhere_of_performed performed
  exact ⟨s, source, pdf, t, reachable, by rw [of_decide_eq_true rows]; exact List.mem_cons_self, found, drawn,
    of_decide_eq_true small, run, check⟩

section Runs

variable {rt : Runtime} {held : ResumeWorkspace} {source : ResumeRevision} {pdf : List UInt8}
  {s s' t : State Database Outside Phase Write}

def weight (s : State Database Outside Phase Write) : Nat := (s.sessions.map (·.phase.rank)).sum

theorem publishes_track {db : Database} {outside : Outside} {request : Request}
    (publishes : request.publishes db held = true) :
    Track held source pdf db outside (begin request) ∧ (begin request).drawing = false ∧
      (begin request).pending = [] := by
  cases request with
  | owned userId workspaceId call =>
    simp only [Request.publishes, Bool.and_eq_true, decide_eq_true_eq] at publishes
    obtain ⟨⟨rfl, rfl⟩, reads⟩ := publishes
    exact ⟨.owned reads, rfl, rfl⟩
  | runRenderJob jobId => exact ⟨.job publishes, rfl, rfl⟩
  | _ => cases publishes

theorem crosses_free {i : Nat} {input : Input} {session : Session Phase Write} {revision : ResumeRevision}
    {reader : Reader} (here : s.sessions[i]? = some session)
    (looks : session.phase = .artifact held revision reader) (absent : s.db.artifact? revision.id = none)
    (free : crosses s (.run i input) = false) {j : Nat} {other : Session Phase Write} (apart : j ≠ i)
    (found : s.sessions[j]? = some other) :
    other.phase.drawing = false := by
  simp only [crosses, here, Option.any_some, looks, absent, Option.isNone_none, Bool.true_and,
    List.any_eq_false] at free
  have each := free (other, j) (List.mem_iff_getElem?.mpr ⟨j, by rw [List.getElem?_zipIdx, found]; simp⟩)
  simpa [apart] using each

theorem course_step (ready : Ready rt held source pdf) (holds : (courseAssertion held source pdf).Holds s)
    (step : StepWhere (resumeSystem rt) (undisturbed held) s s') :
    (courseAssertion held source pdf).Holds s' := by
  obtain ⟨action, may, step⟩ := step
  obtain ⟨publishes, free⟩ := Bool.and_eq_true_iff.mp may
  rcases step_moves step with ⟨request, phase, outside, rfl, started, rfl⟩ | ⟨i, session, label, phase,
    pending, here, acts, moves, _, same⟩
  · cases started
    obtain ⟨track, still, empty⟩ := @publishes_track held source pdf _ s.outside _ publishes
    have quiet : (begin request).drawing ≠ true := by rw [still]; exact Bool.false_ne_true
    refine holds.add holds.common ⟨empty.symm, track, fun drawing => absurd drawing quiet⟩
      fun j other found => ?_
    exact ⟨holds.own j other found, fun both => quiet both.1, fun both => quiet both.2⟩
  · rcases acts with ⟨rfl, _⟩ | ⟨input, rfl, rfl⟩
    · cases publishes
    cases input with
    | answer =>
      obtain ⟨offered, course, _, draws, beside⟩ :=
        course_moves ready holds.common (holds.own i session here) moves
      refine holds.move same offered course fun j other apart found => ?_
      have between : ¬ (session.phase.drawing = true ∧ other.phase.drawing = true) :=
        holds.pair i j session other (Ne.symm apart) here found
      have still : ¬ (phase.drawing = true ∧ other.phase.drawing = true) := by
        rintro ⟨mine, theirs⟩
        rcases draws mine with before | ⟨⟨reader, looks⟩, absent⟩
        · exact between ⟨before, theirs⟩
        · have nothing := crosses_free here looks absent (by simpa using free) apart found
          exact absurd (nothing.symm.trans theirs) (fun same => nomatch same)
      exact ⟨beside _ _ between (holds.own j other found), still, fun both => still ⟨both.2, both.1⟩⟩
    | _ => cases publishes

theorem course_runs (ready : Ready rt held source pdf) (holds : (courseAssertion held source pdf).Holds s)
    (run : RunsWhere (resumeSystem rt) (undisturbed held) s t) :
    (courseAssertion held source pdf).Holds t := by
  induction run with
  | refl => exact holds
  | tail _ step ih => exact course_step ready ih step

theorem pending_cases {db : Database} {outside : Outside} {phase : Phase}
    (track : Track held source pdf db outside phase) {v : Write} (member : v ∈ phase.pending) :
    (∃ workspaceId row, v = .insertArtifact workspaceId row ∧ phase.drawing = true) ∨
      (∃ row, v = .insertApplication row ∧ row.id < outside.nextApplicationId) ∨
      (∃ workspaceId jobId update, v = .updateJob workspaceId jobId update) ∧ ∃ batch sent,
    phase = .flush batch sent ∧ batch.writes[sent]? = none := by
  have drawn : ∀ {rendering : Rendering}, v ∈ rendering.writes held → ∃ workspaceId row,
      v = .insertArtifact workspaceId row ∧ rendering.inserted = true := by
    intro rendering member
    rw [Rendering.writes] at member
    split at member
    · exact ⟨_, _, List.mem_singleton.mp member, ‹_›⟩
    · cases member
  cases track with
  | @starting job sent employed home =>
    cases more : (Batch.startJob .render job).writes[sent]? with
    | none =>
      cases Batch.mem_writes (List.mem_of_mem_take member) with
      | starts => exact .inr (.inr ⟨⟨_, _, _, rfl⟩, _, _, rfl, more⟩)
      | draws published => cases published
    | some w =>
      have bound := (List.getElem?_eq_some_iff.mp more).1
      have short : (Batch.startJob .render job).writes.length ≤ 1 := by
        rw [Batch.writes]
        split <;> simp
      have first : sent = 0 := by omega
      subst first
      cases member
  | insertApplication ok =>
    obtain ⟨workspaceId, row, same, inserted⟩ := drawn member
    exact .inl ⟨workspaceId, row, same, inserted⟩
  | exported ok all =>
    obtain ⟨workspaceId, row, same, inserted⟩ := drawn (List.mem_of_mem_take member)
    exact .inl ⟨workspaceId, row, same, inserted⟩
  | @rendered job rendering sent ok employed all =>
    rcases List.mem_append.mp (List.mem_of_mem_take member) with old | last
    · obtain ⟨workspaceId, row, same, inserted⟩ := drawn old
      exact .inl ⟨workspaceId, row, same, inserted⟩
    · obtain rfl := List.mem_singleton.mp last
      rcases Nat.eq_or_lt_of_le all with precise | more
      · rw [Phase.pending, Batch.writes, ← precise, List.take_left] at member
        obtain ⟨workspaceId, row, same, inserted⟩ := drawn member
        exact .inl ⟨workspaceId, row, same, inserted⟩
      · refine .inr (.inr ⟨⟨_, _, _, rfl⟩, _, _, rfl, List.getElem?_eq_none ?_⟩)
        rwa [Batch.writes, List.length_append, List.length_singleton]
  | applied ok numbered all =>
    rcases List.mem_append.mp (List.mem_of_mem_take member) with old | last
    · obtain ⟨workspaceId, row, same, inserted⟩ := drawn old
      exact .inl ⟨workspaceId, row, same, inserted⟩
    · exact .inr (.inl ⟨_, List.mem_singleton.mp last, numbered⟩)
  | _ => cases member

theorem commit_steps {j : Nat} {other : Session Phase Write} {batch : Batch} {sent : Nat}
    (here : s.sessions[j]? = some other) (flushing : other.phase = .flush batch sent)
    (all : batch.writes[sent]? = none) :
    ∃ s', (resumeSystem rt).step s (.run j .answer) = some s' := by
  have next : (resumeSystem rt).next (System.view (resumeSystem rt) s.db other.pending) s.outside
    other.phase .answer =
      some (.commit batch.after s.outside) := by
    rw [flushing]
    simp only [resumeSystem, Workspace.next, all]
  exact ⟨_, step_run here next⟩

theorem session_steps (ready : Ready rt held source pdf) (holds : (courseAssertion held source pdf).Holds s)
    {i : Nat} {session : Session Phase Write} (here : s.sessions[i]? = some session)
    (running : ∀ outcome, session.phase ≠ .finished outcome) :
    (∃ s', (resumeSystem rt).step s (.run i .answer) = some s') ∨
      ∃ (j : Nat) (other : Session Phase Write) (batch : Batch) (sent : Nat), s.sessions[j]? = some other ∧
        other.phase = .flush batch sent ∧
        batch.writes[sent]? = none := by
  have course : Course held source pdf s.db s.outside session.phase session.pending :=
    holds.own i session here
  obtain ⟨effect, next, goes, _⟩ := track_advances ready holds.common course running
  rw [← course.shape] at next
  have next : (resumeSystem rt).next (System.view (resumeSystem rt) s.db session.pending) s.outside
    session.phase .answer = some effect := next
  cases effect with
  | write w phase outside =>
    obtain ⟨_, _, _, admitted, kind⟩ := goes
    rw [← course.shape] at admitted
    by_cases waits : (resumeSystem rt).blocked s i w = true
    · right
      obtain ⟨j, other, apart, found, v, member, conflict⟩ := blocked_by waits
      have beside : Course held source pdf s.db s.outside other.phase other.pending := holds.own j other found
      rw [beside.shape] at member
      rcases pending_cases beside.track member with ⟨_, row, rfl, theirs⟩ | ⟨row, rfl,
        below⟩ | ⟨⟨_, _, _, rfl⟩, batch, sent, flushing, all⟩
      · rcases kind with ⟨_, rfl, mine⟩ | ⟨_, rfl, _⟩ | ⟨_, _, _, rfl⟩
        · exact absurd ⟨mine, theirs⟩ (holds.pair i j session other (Ne.symm apart) here found)
        · cases conflict
        · cases conflict
      · rcases kind with ⟨_, rfl, _⟩ | ⟨new, rfl, same⟩ | ⟨_, _, _, rfl⟩
        · cases conflict
        · simp only [resumeSystem, conflicts, locks, Bool.or_eq_true, decide_eq_true_eq] at conflict
          omega
        · cases conflict
      · exact ⟨j, other, batch, sent, found, flushing, all⟩
    · left
      have admitted : (resumeSystem rt).admits (System.view (resumeSystem rt) s.db session.pending) w =
        true := admitted
      exact ⟨_, (step_run here next).trans ((if_neg waits).trans (if_pos admitted))⟩
  | fail phase => exact goes.elim
  | read phase outside => exact .inl ⟨_, step_run here next⟩
  | commit phase outside => exact .inl ⟨_, step_run here next⟩

theorem looks_only {i : Nat} {session : Session Phase Write} (here : s.sessions[i]? = some session)
    (other : ∀ owner revision reader, session.phase ≠ .artifact owner revision reader) :
    crosses s (.run i .answer) = false := by
  simp only [crosses, here, Option.any_some]

/-- As long as a session has not finished, some session can take a step that does not cross a drawing. -/
theorem some_step (ready : Ready rt held source pdf) (holds : (courseAssertion held source pdf).Holds s)
    {i : Nat} {session : Session Phase Write} (here : s.sessions[i]? = some session)
    (running : ∀ outcome, session.phase ≠ .finished outcome) :
    ∃ (j : Nat) (s' : State Database Outside Phase Write), undisturbed held s (.run j .answer) = true ∧
      (resumeSystem rt).step s (.run j .answer) = some s' := by
  -- a session that draws goes first, so that no lookup crosses it
  obtain ⟨j, first, found, busy, free⟩ : ∃ (j : Nat) (first : Session Phase Write),
    s.sessions[j]? = some first ∧
      (∀ outcome, first.phase ≠ .finished outcome) ∧ crosses s (.run j .answer) = false := by
    by_cases draws : crosses s (.run i .answer) = true
    · obtain ⟨looking, same, crossing⟩ := (Option.any_eq_true _ _).mp draws
      split at crossing
      · obtain ⟨⟨other, j⟩, member, both⟩ := List.any_eq_true.mp (Bool.and_eq_true_iff.mp crossing).2
        have drawing : other.phase.drawing = true := (Bool.and_eq_true_iff.mp both).2
        obtain ⟨n, place⟩ := List.mem_iff_getElem?.mp member
        rw [List.getElem?_zipIdx] at place
        obtain ⟨_, found, pair⟩ := Option.map_eq_some_iff.mp place
        cases pair
        refine ⟨n, other, found, ?_, looks_only found ?_⟩
        · rintro outcome done
          rw [done] at drawing
          cases drawing
        · rintro owner revision reader looks
          rw [looks] at drawing
          cases drawing
      · cases crossing
    · exact ⟨i, session, here, running, Bool.eq_false_iff.mpr draws⟩
  rcases session_steps ready holds found busy with ⟨s', step⟩ | ⟨k, other, batch, sent, at_k, flushing, all⟩
  · exact ⟨j, s', by rw [undisturbed, free]; rfl, step⟩
  · obtain ⟨s', step⟩ := @commit_steps rt s _ _ _ _ at_k flushing all
    refine ⟨k, s', ?_, step⟩
    rw [undisturbed, looks_only at_k fun _ _ _ looks => nomatch flushing.symm.trans looks]
    rfl

theorem weight_decreases (ready : Ready rt held source pdf)
    (holds : (courseAssertion held source pdf).Holds s) {i : Nat}
    (step : (resumeSystem rt).step s (.run i .answer) = some s') :
    weight s' < weight s ∧ s'.sessions.length = s.sessions.length := by
  rcases step_moves step with ⟨_, _, _, same, _⟩ | ⟨j, session, label, phase, pending, here,
    acts, moves, _, same⟩
  · cases same
  · obtain ⟨rfl, rfl⟩ : j = i ∧ label = some .answer := by
      rcases acts with ⟨same, _⟩ | ⟨input, same, rfl⟩
      · cases same
      · cases same
        exact ⟨rfl, rfl⟩
    obtain ⟨_, _, shorter, _⟩ := course_moves ready holds.common (holds.own j session here) moves
    have sums := sum_set here ⟨phase, pending⟩ fun session : Session Phase Write => session.phase.rank
    dsimp only at sums
    rw [weight, weight, same]
    exact ⟨by omega, List.length_set⟩

theorem all_finish (ready : Ready rt held source pdf) (holds : (courseAssertion held source pdf).Holds s) :
    ∃ t, RunsWhere (resumeSystem rt) (undisturbed held) s t ∧ t.sessions.length = s.sessions.length ∧
      ∀ session ∈ t.sessions, ∃ outcome, session.phase = .finished outcome := by
  generalize bound : weight s = n
  induction n using Nat.strongRecOn generalizing s with
  | ind n ih =>
    by_cases allFinished : ∀ session ∈ s.sessions, ∃ outcome, session.phase = .finished outcome
    · exact ⟨s, .refl, rfl, allFinished⟩
    · push Not at allFinished
      obtain ⟨session, member, running⟩ := allFinished
      obtain ⟨i, here⟩ := List.mem_iff_getElem?.mp member
      obtain ⟨j, s', may, step⟩ := some_step ready holds here running
      obtain ⟨less, count⟩ := weight_decreases ready holds step
      have taken : StepWhere (resumeSystem rt) (undisturbed held) s s' := ⟨_, may, step⟩
      obtain ⟨t, run, length, finished⟩ := ih (weight s') (bound ▸ less) (course_step ready holds taken) rfl
      exact ⟨t, .head taken run, length.trans count, finished⟩

theorem idle_offered (reachable : Reachable rt s) (member : held ∈ s.db.workspaces)
    (current : held.currentRevisionId.bind s.db.revision? = some source)
    (drawn : rendered rt source.documentJson = some pdf) : Offered held source pdf s.db s.outside := by
  have consistent := (history_holds reachable).2.common
  have sound := (facts_hold reachable).common
  have shelved := (shelf_holds reachable).common
  obtain ⟨listed, _⟩ := pointed_some current
  have present := workspace?_of_mem consistent.uniqueWorkspaces member
  refine ⟨present, ?_, revision?_of_mem consistent.uniqueRevisions listed, ?_, ?_, ?_, shelved.numbered, ?_⟩
  · cases found : s.db.owned? held.id held.userId with
    | none =>
      have missing := List.find?_eq_none.mp found held member
      simp at missing
    | some row =>
      obtain ⟨inside, id, _⟩ := owned?_some found
      rw [List.inj_on_of_nodup_map consistent.uniqueWorkspaces inside member id]
  · intro row inside named
    obtain ⟨revision, stored, made, same, printed, kept, _, digest⟩ :=
      artifact_rendered (catalogue_holds reachable).common sound inside
    obtain rfl : revision = source := List.inj_on_of_nodup_map consistent.uniqueRevisions stored listed
      (same.trans named)
    obtain rfl : made = pdf := Option.some.inj (printed.symm.trans drawn)
    exact ⟨kept, digest⟩
  · intro row inside key
    have digest : (resumeFacts rt).common s.db s.outside row.fact :=
      .inl (Database.mem_facts.mpr (.inr (.inr (.inr (.inl ⟨row, inside, rfl⟩)))))
    obtain ⟨⟨userId, workspaceId, named⟩, _⟩ := sound.known _ digest
    exact keyOf_inj (named.symm.trans key)
  · have distinct : (s.db.artifacts.filter (·.revisionId = source.id)).Nodup :=
      (List.Nodup.of_map _ shelved.unique).filter _
    have same : ∀ row ∈ s.db.artifacts.filter (·.revisionId = source.id), row ∈ s.db.artifacts ∧
        row.revisionId = source.id := by
      intro row inside
      exact (List.mem_filter.mp inside).imp_right of_decide_eq_true
    generalize s.db.artifacts.filter (·.revisionId = source.id) = rows at distinct same ⊢
    match rows with
    | [] => exact Nat.zero_le _
    | [_] => exact Nat.le_refl _
    | first :: second :: rest =>
      obtain ⟨one, named⟩ := same first List.mem_cons_self
      obtain ⟨two, called⟩ := same second (List.mem_cons_of_mem _ List.mem_cons_self)
      exact absurd (artifact_unique reachable one two (named.trans called.symm)) fun equal =>
        (List.nodup_cons.mp distinct).1 (equal ▸ List.mem_cons_self)
  · intro row inside
    have copied : (resumeFacts rt).common s.db s.outside
        (.application row.id row.userId row.toApplicationSnapshot) :=
      .inl (Database.mem_facts.mpr (.inr (.inr (.inr (.inr ⟨row, inside, List.mem_cons_self⟩)))))
    exact (sound.known _ copied).1

/-- Exports, render jobs and applications of one approved revision whose lookups cross no drawing: each that
    has ended has succeeded with the revision's rendering, the others can still end, and the first to end
    leaves the revision its one artifact. -/
theorem exports_undisturbed (reachable : Reachable rt s) (member : held ∈ s.db.workspaces)
    (approved : held.status = .approved) (current : held.currentRevisionId.bind s.db.revision? = some source)
    (drawn : rendered rt source.documentJson = some pdf) (small : pdf.length ≤ maxArtifactBytes)
    (run : RunsWhere (resumeSystem rt) (undisturbed held) { s with sessions := [] } t) :
    (∀ session ∈ t.sessions, ∀ outcome, session.phase = .finished outcome →
      ∃ batch, outcome = .committed batch ∧ batch.Hands held source pdf ∧
      ∃ row, t.db.artifacts.filter (·.revisionId = source.id) = [row] ∧
        t.outside.storage.lookup row.storageKey = some pdf) ∧
    (t.db.artifacts.filter (·.revisionId = source.id)).length ≤ 1 ∧
    ∃ u, RunsWhere (resumeSystem rt) (undisturbed held) t u ∧ u.sessions.length = t.sessions.length ∧
      ∀ session ∈ u.sessions, ∃ outcome, session.phase = .finished outcome := by
  have ready : Ready rt held source pdf := ⟨approved, (pointed_some current).2, drawn, small⟩
  have offered := idle_offered reachable member current drawn
  have start : (courseAssertion held source pdf).Holds { s with sessions := [] } :=
    Assertion.holds_idle rfl offered
  have holds := course_runs ready start run
  have once := holds.common.once
  refine ⟨?_, once, all_finish ready holds⟩
  intro session inside outcome done
  obtain ⟨i, here⟩ := List.mem_iff_getElem?.mp inside
  have track : Track held source pdf t.db t.outside session.phase := (holds.own i session here).track
  rw [done] at track
  cases track with
  | finished hands listed =>
    obtain ⟨row, stored, named⟩ := listed
    refine ⟨_, rfl, hands, row, ?_, (holds.common.filed row stored named).1⟩
    have kept : row ∈ t.db.artifacts.filter (·.revisionId = source.id) :=
      List.mem_filter.mpr ⟨stored, decide_eq_true named⟩
    obtain ⟨only, rows⟩ := List.length_eq_one_iff.mp (Nat.le_antisymm once (List.length_pos_of_mem kept))
    rw [rows] at kept ⊢
    rw [List.mem_singleton.mp kept]

end Runs

theorem exports_undisturbed_export :
    ∃ s source pdf t, Reachable plainRuntime s ∧ approvedRow ∈ s.db.workspaces ∧
    RunsWhere (resumeSystem plainRuntime) (undisturbed approvedRow) { s with sessions := [] } t ∧
      t.sessions.length = 2 ∧
    ∃ session ∈ t.sessions, ∃ batch, session.phase = .finished (.committed batch) ∧
        batch.Hands approvedRow source pdf := by
  have ran : ((resumeSystem plainRuntime).perform Guard.free initialState
    (creating ++ approving :: stepping 1 3)).any
      (leads (undisturbed approvedRow) (.start (.owned 7 1 .exportWorkspace) :: applying :: stepping 0 6)
        fun t => t.sessions.length = 2 ∧ t.sessions.any hasEnded = true) = true := by decide +kernel
  obtain ⟨s, source, pdf, t, reachable, member, current, drawn, small, run, check⟩ := leads_some ran
  obtain ⟨two, given⟩ := of_decide_eq_true check
  obtain ⟨session, inside, ended⟩ := List.any_eq_true.mp given
  obtain ⟨outcome, done⟩ := ended_phase ended
  obtain ⟨batch, rfl, hands, _⟩ :=
    (exports_undisturbed reachable member rfl current drawn small run).1 session inside outcome done
  exact ⟨s, source, pdf, t, reachable, member, run, two, session, inside, batch, done, hands⟩

/-- An export and an application that both find no artifact: the second insert breaks the unique constraint,
    and the application is lost. -/
theorem exports_collide : ∃ s source pdf t, Reachable plainRuntime s ∧ approvedRow ∈ s.db.workspaces ∧
    approvedRow.status = .approved ∧
    approvedRow.currentRevisionId.bind s.db.revision? = some source ∧
      rendered plainRuntime source.documentJson = some pdf ∧
    pdf.length ≤ maxArtifactBytes ∧ RunsWhere (resumeSystem plainRuntime) (publishing approvedRow)
      { s with sessions := [] } t ∧
    ∃ session ∈ t.sessions, session.phase = .finished .failed := by
  have ran : ((resumeSystem plainRuntime).perform Guard.free initialState
    (creating ++ approving :: stepping 1 3)).any
      (leads (publishing approvedRow) (.start (.owned 7 1 .exportWorkspace) :: applying ::
          stepping 0 3 ++ stepping 1 3 ++ stepping 0 3 ++ stepping 1 2)
        fun t => t.sessions.any fun session => session.phase.raised) = true := by decide +kernel
  obtain ⟨s, source, pdf, t, reachable, member, current, drawn, small, run, check⟩ := leads_some ran
  obtain ⟨session, inside, lost⟩ := List.any_eq_true.mp check
  exact ⟨s, source, pdf, t, reachable, member, rfl, current, drawn, small, run, session, inside,
    raised_failed lost⟩

end ManifestCV.Workspace
