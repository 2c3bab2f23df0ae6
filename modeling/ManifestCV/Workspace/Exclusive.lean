import ManifestCV.Workspace.Numbering

namespace ManifestCV.Workspace

open Foundation Foundation.Transactions Document

def expecting : Caller → DocumentSave → Option Nat
  | .client, payload => payload.expectedRevisionId
  | _, _ => none

/-- When a client's save looks for the latest revision, it finds the one the client expects. -/
def expectedGuard : Guard Database Outside Phase Input := baseGuard expecting

def Phase.saves? : Phase → Option (ResumeWorkspace × DocumentSave)
  | .latest held _ payload _ | .insertRevision (.save held _ payload _) _ => some (held, payload)
  | .flush (.revision (.save held _ payload _) _ _) _ => some (held, payload)
  | .finished (.committed (.revision (.save held _ payload _) _ _)) => some (held, payload)
  | _ => none

def Phase.saved? : Phase → Option Nat
  | .finished (.committed (.revision (.save _ caller payload _) _ _)) => expecting caller payload
  | _ => none

def Phase.Expects (phase : Phase) : Prop :=
  ∀ held payload, phase.saves? = some (held, payload) → ∀ id, payload.expectedRevisionId = some id →
    held.currentRevisionId = some id

def Spent (db : Database) (outside : Outside) (id : Nat) : Prop :=
  id < outside.nextRevisionId ∧ ∀ workspaceId row, db.workspace? workspaceId = some row →
    row.currentRevisionId ≠ some id

def spentAssertion : Assertion Database Outside Phase Write where
  common _ _ := True
  own db outside phase _ := ∀ id, phase.saved? = some id → Spent db outside id
  pair phase pending other _ := ∀ id, other.saved? = some id →
    phase.saved? ≠ some id ∧ ∀ row, .insertRevision row ∈ pending → row.id ≠ id

section Saves

variable {rt : Runtime} {db db' : Database} {outside outside' : Outside} {phase phase' : Phase}
  {pending pending' : List Write} {input : Input} {effect : Effect Outside Phase Write}

theorem next_expects (step : Next rt db outside phase input effect) (ok : phase.Expects) :
    effect.phase.Expects := by
  have missing : ∀ {phase : Phase}, phase.saves? = none → phase.Expects :=
    fun nothing _ _ saves => absurd (nothing.symm.trans saves) (fun same => nomatch same)
  cases step with
  | checked found passed =>
    intro held payload saves
    cases saves
    exact passed.expected
  | checkedAgain found passed =>
    intro held payload saves
    cases saves
    exact passed.expected
  | numbered => exact fun held payload saves => ok held payload saves
  | inserted =>
    rename_i writer text
    cases writer <;> exact fun held payload saves => ok held payload saves
  | sent more =>
    rename_i batch sent w
    cases batch with
    | revision writer revisionId text =>
        cases writer <;> exact fun held payload saves => ok held payload saves
    | _ => exact missing rfl
  | committed all =>
    rename_i batch sent
    cases batch with
    | revision writer revisionId text =>
        cases writer <;> exact fun held payload saves => ok held payload saves
    | _ => exact missing rfl
  | verified kept digest =>
    rename_i held revision reader row pdf
    cases reader <;> exact missing rfl
  | catalogued =>
    rename_i held revision reader key pdf
    cases reader <;> exact missing rfl
  | failed plain =>
    rename_i outcome
    cases outcome <;> first | exact missing rfl | cases plain
  | _ => exact missing rfl

theorem expects_stable (rt : Runtime) (g : Guard Database Outside Phase Input)
    (known : Assertion Database Outside Phase Write) :
    Stable (resumeSystem rt) g known (Assertion.phase Phase.Expects) := by
  refine phase_stable ?_ (fun next ok => next_expects (next_cases next) ok) ?_
  · intro outside request phase outside' started
    cases started
    cases request <;> exact fun _ _ saves => nomatch saves
  · intro phase ok
    change (failedPhase phase).Expects
    cases phase <;> first | exact ok | exact fun _ _ saves => nomatch saves

theorem next_saved (step : Next rt db outside phase input effect) :
    effect.phase.saved? = none ∨ ∃ phase' outside', effect = .commit phase' outside' := by
  cases step with
  | committed all => exact .inr ⟨_, _, rfl⟩
  | verified kept digest =>
    rename_i held revision reader row pdf
    cases reader <;> exact .inl rfl
  | catalogued =>
    rename_i held revision reader key pdf
    cases reader <;> exact .inl rfl
  | failed plain =>
    rename_i outcome
    cases outcome <;> first | exact .inl rfl | cases plain
  | _ => exact .inl rfl

theorem saved_replaces {batch : Batch} {sent id : Nat}
    (sound : Sound db outside (.flush batch sent) batch.writes)
    (current : UpToDate expecting db (.flush batch sent)) (expects : (Phase.flush batch sent).Expects)
    (saved : batch.after.saved? = some id) :
    ∃ held row, (Phase.flush batch sent).held? = some held ∧ held.currentRevisionId = some id ∧
      (∃ writer revisionId text, batch = .revision writer revisionId text ∧ writer.workspaceId = held.id) ∧
      db.workspace? held.id = some row ∧ row.currentRevisionId = some id := by
  cases batch with
  | revision writer revisionId text =>
    cases writer with
    | save held caller payload number =>
      change expecting caller payload = some id at saved
      have expected : payload.expectedRevisionId = some id := by
        cases caller <;> first | exact saved | cases saved
      have present : db.workspace? held.id ≠ none := by
        rcases sound.parents _ (inserts_revision _ revisionId text) with present | ⟨workspace, member, _⟩
        · exact present
        · simp [Batch.writes, Writer.before, Writer.reports] at member
      obtain ⟨row, found⟩ := Option.ne_none_iff_exists'.mp present
      have number := (sound.writes _ (inserts_revision _ revisionId text)).2.2
      exact ⟨held, row, rfl, expects held payload rfl id expected, ⟨_, _, _, rfl, rfl⟩, found,
        current _ id rfl saved number row found⟩
    | create workspace => cases saved
    | worker job held source => cases saved
  | _ => cases saved

theorem Consistent.pointed_once {first second : ResumeWorkspace} {i j id : Nat}
    (consistent : Consistent db outside) (foundFirst : db.workspace? i = some first)
    (foundSecond : db.workspace? j = some second) (pointsFirst : first.currentRevisionId = some id)
    (pointsSecond : second.currentRevisionId = some id) : i = j := by
  obtain ⟨memberFirst, rfl⟩ := workspace?_some foundFirst
  obtain ⟨memberSecond, rfl⟩ := workspace?_some foundSecond
  obtain ⟨one, _, insideOne, homeOne, pointerOne⟩ := consistent.current memberFirst
  obtain ⟨two, _, insideTwo, homeTwo, pointerTwo⟩ := consistent.current memberSecond
  have same : one.id = two.id :=
    Option.some.inj ((pointerOne.symm.trans pointsFirst).trans (pointsSecond.symm.trans pointerTwo))
  rw [← homeOne, ← homeTwo, List.inj_on_of_nodup_map consistent.uniqueRevisions insideOne insideTwo same]

theorem Spent.grows {id : Nat} (spent : Spent db outside id) (grows : outside.Grows outside') :
    Spent db outside' id :=
  ⟨Nat.lt_of_lt_of_le spent.1 grows.2, spent.2⟩

theorem dropped_saved : (failedPhase phase).saved? = none ∨ failedPhase phase = phase := by
  cases phase <;> first | exact .inr rfl | exact .inl rfl

theorem spent_own {label : Option Input} (consistent : Consistent db outside)
    (sound : Sound db outside phase pending) (current : UpToDate expecting db phase) (expects : phase.Expects)
    (own : ∀ id, phase.saved? = some id → Spent db outside id)
    (moves : (resumeSystem rt).Moves db outside phase pending label db' outside' phase' pending') :
    ∀ id, phase'.saved? = some id → Spent db' outside' id := by
  intro id saved
  have dropped : (failedPhase phase).saved? = some id → Spent db outside id := by
    intro saved
    rcases dropped_saved with nothing | same
    · exact absurd (nothing.symm.trans saved) (fun same => nomatch same)
    · exact own id (same ▸ saved)
  cases moves with
  | read next =>
    rcases next_saved (next_cases next) with nothing | ⟨_, _, commits⟩
    · exact absurd (nothing.symm.trans saved) (fun same => nomatch same)
    · cases commits
  | write next admitted =>
    rcases next_saved (next_cases next) with nothing | ⟨_, _, commits⟩
    · exact absurd (nothing.symm.trans saved) (fun same => nomatch same)
    · cases commits
  | fail next =>
    rcases next_saved (next_cases next) with nothing | ⟨_, _, commits⟩
    · exact absurd (nothing.symm.trans saved) (fun same => nomatch same)
    · cases commits
  | refused next refused => exact dropped saved
  | abort => exact dropped saved
  | commit next =>
    obtain ⟨batch, sent, rfl, _, rfl, rfl, rfl, change⟩ := commit_change sound (next_cases next)
    obtain ⟨held, row, holds, expected, ⟨writer, revisionId, text, rfl, home⟩, found, pointer⟩ :=
      saved_replaces sound current expects saved
    obtain ⟨ok, fresh⟩ := sound.held held holds
    refine ⟨(ok.pointer id expected).1, ?_⟩
    intro workspaceId after found' points
    rcases change.pointer (opens_fresh sound.writes) found' with ⟨_, _, _, same, _, new⟩ | ⟨elsewhere,
      before, was, kept⟩
    · cases same
      apply fresh _ (inserts_revision writer revisionId text)
      rw [expected, ← points, new]
      rfl
    · apply elsewhere writer revisionId text rfl
      rw [home, consistent.pointed_once found was pointer (kept.symm.trans points)]

theorem spent_other {label : Option Input} {other : Phase} {otherPending : List Write}
    (sound : Sound db outside phase pending) (current : UpToDate expecting db phase) (expects : phase.Expects)
    (theirs : ∀ held, phase.held? = some held → ∀ w ∈ otherPending, w.Fresh held)
    (own : ∀ id, other.saved? = some id → Spent db outside id)
    (mine : spentAssertion.pair phase pending other otherPending)
    (beside : spentAssertion.pair other otherPending phase pending)
    (moves : (resumeSystem rt).Moves db outside phase pending label db' outside' phase' pending') :
    (∀ id, other.saved? = some id → Spent db' outside' id) ∧
    spentAssertion.pair phase' pending' other otherPending ∧
      spentAssertion.pair other otherPending phase' pending' := by
  -- a step that finishes no save
  have unfinished : ∀ {phase' : Phase} {pending' : List Write}, phase'.saved? = none →
      (∀ id, other.saved? = some id → ∀ row, .insertRevision row ∈ pending' → row.id ≠ id) →
      spentAssertion.pair phase' pending' other otherPending ∧
          spentAssertion.pair other otherPending phase' pending' := by
    intro phase' pending' nothing apart
    refine ⟨fun id saved => ⟨?_, apart id saved⟩, fun id saved =>
      absurd (nothing.symm.trans saved) (fun same => nomatch same)⟩
    rw [nothing]
    exact fun same => nomatch same
  have dropped : spentAssertion.pair (failedPhase phase) [] other otherPending ∧
      spentAssertion.pair other otherPending (failedPhase phase) [] := by
    rcases dropped_saved with nothing | same
    · exact unfinished nothing fun _ _ _ member => nomatch member
    · rw [same]
      exact ⟨fun id saved => ⟨(mine id saved).1, fun _ member => (nomatch member)⟩, beside⟩
  cases moves with
  | read next =>
    have step := next_cases next
    have grows : outside.Grows outside' := next_outside step
    refine ⟨fun id saved => (own id saved).grows grows, ?_⟩
    rcases next_saved step with nothing | ⟨_, _, commits⟩
    · exact unfinished nothing fun id saved => (mine id saved).2
    · cases commits
  | write next admitted =>
    have step := next_cases next
    have grows : outside.Grows outside' := next_outside step
    refine ⟨fun id saved => (own id saved).grows grows, ?_⟩
    rcases next_saved step with nothing | ⟨_, _, commits⟩
    · refine unfinished nothing ?_
      intro id saved row member
      rcases List.mem_append.mp member with old | new
      · exact (mine id saved).2 row old
      · have made := List.mem_singleton.mp new
        rcases next_write sound.inserted step with ⟨_, _, _, _, rfl, _⟩ | ⟨_, _, _, rfl, _⟩ | ⟨quiet, _⟩
        · cases made
        · cases made
          exact Nat.ne_of_gt (own id saved).1
        · subst made
          exact absurd quiet not_false
    · cases commits
  | refused next refused => exact ⟨own, dropped⟩
  | abort => exact ⟨own, dropped⟩
  | fail next =>
    refine ⟨own, ?_⟩
    rcases next_saved (next_cases next) with nothing | ⟨_, _, commits⟩
    · exact unfinished nothing fun _ _ _ member => nomatch member
    · cases commits
  | commit next =>
    obtain ⟨batch, sent, rfl, _, rfl, rfl, rfl, change⟩ := commit_change sound (next_cases next)
    refine ⟨?_, ?_, ?_⟩
    · intro id saved
      refine ⟨(own id saved).1, ?_⟩
      intro workspaceId after found' points
      rcases change.pointer (opens_fresh sound.writes) found' with ⟨writer, revisionId, text, rfl, _,
        new⟩ | ⟨_, before, was, kept⟩
      · exact (mine id saved).2 _ (inserts_revision writer revisionId text)
          (Option.some.inj (new.symm.trans points))
      · exact (own id saved).2 workspaceId before was (kept.symm.trans points)
    · intro id saved
      refine ⟨?_, fun _ member => (nomatch member)⟩
      intro finished
      obtain ⟨held, row, _, _, _, found, pointer⟩ := saved_replaces sound current expects finished
      exact (own id saved).2 held.id row found pointer
    · intro id finished
      obtain ⟨held, row, holds, expected, _, found, pointer⟩ := saved_replaces sound current expects finished
      refine ⟨fun saved => (own id saved).2 held.id row found pointer, ?_⟩
      rintro row member rfl
      exact theirs held holds _ member expected

end Saves

theorem spent_stable (rt : Runtime) : Stable (resumeSystem rt) expectedGuard
    (historyAssertion.and ((baseAssertion expecting).and (Assertion.phase Phase.Expects)))
    spentAssertion where
  start {db outside request phase outside'} _ _ started := by
    cases started
    have nothing : (begin request).saved? = none := by cases request <;> rfl
    exact ⟨trivial, fun id saved => absurd (nothing.symm.trans saved) (fun same => nomatch same)⟩
  startOther {db outside request phase outside' other otherPending} _ _ own started := by
    cases started
    have nothing : (begin request).saved? = none := by cases request <;> rfl
    refine ⟨own, fun id saved => ⟨?_, fun _ member => (nomatch member)⟩, ?_⟩
    · rw [nothing]
      exact fun same => nomatch same
    · exact fun id saved => absurd (nothing.symm.trans saved) (fun same => nomatch same)
  own known session _ own _ moves := ⟨trivial, spent_own known.1 session.1 session.2.1 session.2.2 own moves⟩
  other _ acting _ _ between _ _ own mine beside _ _ moves :=
    spent_other acting.1 acting.2.1 acting.2.2 between.1 own mine beside moves

/-- While every client's save is numbered after the revision it expects, one expected revision lets one save
    succeed. -/
theorem saves_exclusive {rt : Runtime} {s : State Database Outside Phase Write}
    (reached : Runs (resumeSystem rt) expectedGuard initialState s) {i j : Nat}
    {first second : Session Phase Write} {id : Nat} (atFirst : s.sessions[i]? = some first)
    (atSecond : s.sessions[j]? = some second) (savedFirst : first.phase.saved? = some id)
    (savedSecond : second.phase.saved? = some id) : i = j := by
  have expects : ∀ t, Runs (resumeSystem rt) expectedGuard initialState t →
      (Assertion.phase Phase.Expects).Holds t :=
    fun t run => (holds_idle_runs conflicts_symm (expects_stable rt expectedGuard Assertion.trivial)
      (fun t _ => Assertion.trivial_holds t) rfl trivial run).2
  obtain ⟨_, spent⟩ := holds_idle_runs conflicts_symm (spent_stable rt)
    (fun t run => (history_holds run.free).2.and ((base_holds run).and (expects t run))) rfl trivial reached
  by_contra apart
  exact (spent.pair i j first second apart atFirst atSecond id savedSecond).1 savedFirst

def savedBy (i : Nat) (s : State Database Outside Phase Write) : Bool :=
  s.sessions[i]?.any (·.phase.saved? = some 1)

theorem savedBy_session {i : Nat} {s : State Database Outside Phase Write} (saved : savedBy i s = true) :
    ∃ session, s.sessions[i]? = some session ∧ session.phase.saved? = some 1 := by
  obtain ⟨session, here, same⟩ := (Option.any_eq_true _ _).mp saved
  exact ⟨session, here, of_decide_eq_true same⟩

/-- Two saves of revision 1 that both looked for the latest revision before either committed. -/
theorem saves_exclusive_overlap : ∃ s, Runs (resumeSystem plainRuntime) expectedGuard initialState s ∧
    savedBy 1 s ∧
    ∀ (j : Nat) second, s.sessions[j]? = some second → second.phase.saved? = some 1 → 1 = j := by
  let actions := creating ++ [saving (some 1), saving (some 1)] ++ stepping 1 2 ++ stepping 2 2 ++
    stepping 1 3 ++ stepping 2 1
  have ran : ((resumeSystem plainRuntime).perform expectedGuard initialState actions).any (savedBy 1) =
      true := by
    with_unfolding_all decide
  obtain ⟨s, reached, saved⟩ := runs_of_performed ran
  obtain ⟨first, atFirst, savedFirst⟩ := savedBy_session saved
  exact ⟨s, reached, saved, fun j second atSecond savedSecond =>
    saves_exclusive reached atFirst atSecond savedFirst savedSecond⟩

/-- The second save passes its check before the first commits, and takes its number after. -/
theorem saves_overwrite : ∃ s first second, Reachable plainRuntime s ∧ s.sessions[1]? = some first ∧
    s.sessions[2]? = some second ∧ first.phase.saved? = some 1 ∧ second.phase.saved? = some 1 := by
  let actions := creating ++ [saving (some 1), saving (some 1)] ++ stepping 1 1 ++ stepping 2 1 ++
    stepping 1 4 ++ stepping 2 4
  have ran : ((resumeSystem plainRuntime).perform Guard.free initialState actions).any
      (fun s => savedBy 1 s ∧ savedBy 2 s) = true := by with_unfolding_all decide
  obtain ⟨s, reached, saved⟩ := runs_of_performed ran
  obtain ⟨savedFirst, savedSecond⟩ := of_decide_eq_true saved
  obtain ⟨first, atFirst, savedFirst⟩ := savedBy_session savedFirst
  obtain ⟨second, atSecond, savedSecond⟩ := savedBy_session savedSecond
  exact ⟨s, first, second, reached, atFirst, atSecond, savedFirst, savedSecond⟩

end ManifestCV.Workspace
