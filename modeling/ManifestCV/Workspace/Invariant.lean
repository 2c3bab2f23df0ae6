import ManifestCV.Workspace.Consistency

namespace ManifestCV.Workspace

open Foundation Foundation.Transactions Document

section Moves

variable {rt : Runtime} {db : Database} {outside outside' : Outside} {phase : Phase} {pending : List Write}

theorem HeldOk.grows {held : ResumeWorkspace} (ok : HeldOk db outside held) (grows : outside.Grows outside') :
    HeldOk db outside' held where
  known := Nat.lt_of_lt_of_le ok.known grows.1
  pointer revisionId same :=
    ⟨Nat.lt_of_lt_of_le (ok.pointer revisionId same).1 grows.2, (ok.pointer revisionId same).2⟩

theorem WriteOk.grows {w : Write} (ok : WriteOk db outside w) (grows : outside.Grows outside') :
    WriteOk db outside' w := by
  cases w with
  | insertWorkspace row => exact ⟨Nat.lt_of_lt_of_le ok.1 grows.1, ok.2⟩
  | insertRevision row => exact ⟨Nat.lt_of_lt_of_le ok.1 grows.2, ok.2⟩
  | _ => trivial

theorem Consistent.grows (consistent : Consistent db outside) (grows : outside.Grows outside') :
    Consistent db outside' :=
  { consistent with
    workspaceIds := fun row member => Nat.lt_of_lt_of_le (consistent.workspaceIds row member) grows.1
    revisionIds := fun row member => Nat.lt_of_lt_of_le (consistent.revisionIds row member) grows.2 }

theorem Sound.grows (sound : Sound db outside phase pending) (grows : outside.Grows outside') :
    Sound db outside' phase pending :=
  { sound with
    held := fun held same => ⟨(sound.held held same).1.grows grows, (sound.held held same).2⟩
    writes := fun w member => (sound.writes w member).grows grows }

theorem Consistent.current {held : ResumeWorkspace} (consistent : Consistent db outside)
    (member : held ∈ db.workspaces) :
    ∃ last, (db.history held.id).getLast? = some last ∧ last ∈ db.revisions ∧ last.workspaceId = held.id ∧
      held.currentRevisionId = some last.id := by
  have found := workspace?_of_mem consistent.uniqueWorkspaces member
  obtain ⟨last, final, pointer⟩ := (consistent.linear held.id held found).pointer
  obtain ⟨inside, home⟩ := mem_history.mp (List.mem_of_getLast? final)
  exact ⟨last, final, inside, home, pointer⟩

/-- A workspace just read is one no pending write is about to create, and points to no pending revision. -/
theorem Consistent.heldOk {held : ResumeWorkspace} (consistent : Consistent db outside)
    (member : held ∈ db.workspaces) :
    HeldOk db outside held ∧ ∀ w, WriteOk db outside w → w.Fresh held := by
  obtain ⟨last, _, inside, home, pointer⟩ := consistent.current member
  refine ⟨⟨consistent.workspaceIds held member, ?_⟩, ?_⟩
  · intro revisionId same
    rw [pointer] at same
    cases same
    refine ⟨consistent.revisionIds last inside, ?_⟩
    intro row other same
    rw [List.inj_on_of_nodup_map consistent.uniqueRevisions other inside same]
    exact home
  · intro w ok
    cases w with
    | insertWorkspace row => exact fun same => workspace?_none.mp ok.2 held member same.symm
    | insertRevision row =>
      intro same
      rw [pointer] at same
      exact ok.2.1 last inside (Option.some.inj same)
    | _ => trivial

/-- The revision with the largest number is the current one, and its number the length of the history. -/
theorem Consistent.latest {id : Nat} {row : ResumeWorkspace} (consistent : Consistent db outside)
    (present : db.workspace? id = some row) : ∃ last, db.latestRevision? id = some last ∧
      last.revisionNumber = (db.history id).length ∧ row.currentRevisionId = some last.id := by
  obtain ⟨numbers, last, final, pointer⟩ := consistent.linear id row present
  obtain ⟨initial, split⟩ := List.getLast?_eq_some_iff.mp final
  rw [split, List.map_append, List.length_append, List.length_singleton, List.range'_1_concat] at numbers
  have lengths : (initial.map (·.revisionNumber)).length = (List.range' 1 initial.length).length := by simp
  obtain ⟨earlier, number⟩ := List.append_inj numbers lengths
  have value : last.revisionNumber = 1 + initial.length := by simpa using number
  refine ⟨last, ?_, ?_, pointer⟩
  · rw [Database.latestRevision?, split]
    apply lastBy_append
    intro other member
    have inside : other.revisionNumber ∈ List.range' 1 initial.length := earlier ▸ List.mem_map_of_mem member
    rw [List.mem_range'_1] at inside
    omega
  · rw [split, List.length_append, List.length_singleton, value, Nat.add_comm]

theorem Sound.dropped (sound : Sound db outside phase pending) : Sound db outside (failedPhase phase) [] := by
  have nothing : ∀ phase : Phase, phase.pending = [] → phase.held? = none →
    (∀ writer text, phase ≠ .insertRevision writer text) →
      phase.Inserted → Sound db outside phase [] := by
    intro phase empty missing other inserted
    refine ⟨empty.symm, inserted, ?_, ?_, fun _ member => (nomatch member), ?_, fun _ member =>
      (nomatch member)⟩
    · intro held same
      rw [missing] at same
      cases same
    · intro held source same
      rw [missing] at same
      cases same
    · intro writer text same
      exact absurd same (other writer text)
  cases phase with
  | finished outcome =>
    have empty : pending = [] := sound.shape
    subst empty
    exact sound
  | _ => exact nothing _ rfl rfl (fun _ _ same => (nomatch same)) trivial

theorem Sound.read {phase' : Phase} {input : Input} (consistent : Consistent db outside)
    (sound : Sound db outside phase pending) (grows : outside.Grows outside')
    (step : Next rt (replay db pending) outside phase input (.read phase' outside')) :
    Sound db outside' phase' pending := by
  have same : phase'.pending = phase.pending := next_pending step
  have clean : phase.pending = [] → replay db pending = db := by
    intro empty
    rw [sound.shape, empty]
    rfl
  refine ⟨sound.shape.trans same.symm, next_inserted step sound.inserted, ?_, ?_, ?_, ?_, sound.parents⟩
  · intro held holds
    rcases next_held step with nothing | kept | ⟨empty, other, member, loaded⟩
    · exact absurd (nothing.symm.trans holds) (fun same => nomatch same)
    · obtain ⟨ok, fresh⟩ := sound.held held (kept ▸ holds)
      exact ⟨ok.grows grows, fresh⟩
    · rw [clean empty] at member
      cases Option.some.inj (loaded.symm.trans holds)
      obtain ⟨ok, fresh⟩ := consistent.heldOk member
      exact ⟨ok.grows grows, fun w inside => fresh w (sound.writes w inside)⟩
  · intro held source holds loads
    rcases next_source step with nothing | ⟨keptSource, keptHeld⟩ | ⟨empty, other, row, before, after,
      loaded, member, home⟩
    · exact absurd (nothing.symm.trans loads) (fun same => nomatch same)
    · exact sound.source held source (keptHeld ▸ holds) (keptSource ▸ loads)
    · rw [clean empty] at member
      cases Option.some.inj (loaded.symm.trans loads)
      cases Option.some.inj (after.symm.trans holds)
      intro _
      refine ⟨member, ?_⟩
      rcases home with pointer | home
      · exact ((sound.held held before).1.pointer _ pointer).2 source member rfl
      · exact home
  · exact fun w inside => (sound.writes w inside).grows grows
  · intro writer text here
    subst here
    obtain ⟨empty, ⟨held, caller, payload, _, rfl⟩ | ⟨job, held, source, rfl, rfl⟩⟩ := next_numbered step
    · rw [clean empty]
      refine ⟨Nat.succ_pos _, ?_⟩
      intro present
      change db.workspace? held.id ≠ none at present
      obtain ⟨row, found⟩ := Option.ne_none_iff_exists'.mp present
      obtain ⟨last, latest, number, _⟩ := consistent.latest found
      simp only [Writer.number, Writer.workspaceId, latest, Option.map_some, Option.getD_some,
        number, Nat.le_refl]
    · refine ⟨Nat.succ_pos _, ?_⟩
      intro present
      obtain ⟨member, home⟩ := sound.source held source rfl rfl present
      obtain ⟨row, found⟩ := Option.ne_none_iff_exists'.mp present
      have inside : source.revisionNumber ∈ (db.history held.id).map (·.revisionNumber) :=
        List.mem_map_of_mem (mem_history.mpr ⟨member, home⟩)
      rw [(consistent.linear held.id row found).numbers, List.mem_range'_1] at inside
      show source.revisionNumber + 1 ≤ (db.history held.id).length + 1
      omega

theorem next_number {writer : Writer} {text : Str} (consistent : Consistent db outside)
    (sound : Sound db outside (.insertRevision writer text) pending) {revisionId : Nat}
    (admitted : admitsWrite (replay db pending) (.insertRevision (revisionRow writer revisionId text)) =
      true) :
    writer.number = (db.history writer.workspaceId).length + 1 ∧
      (db.workspace? writer.workspaceId ≠ none ∨
        ∃ workspace, .insertWorkspace workspace ∈ pending ∧ workspace.id = writer.workspaceId) := by
  have existing : writer.before = [] → writer.number = (db.history writer.workspaceId).length + 1 ∧
      db.workspace? writer.workspaceId ≠ none := by
    intro empty
    have clean : replay db pending = db := by
      rw [sound.shape, Phase.pending, empty]
      rfl
    rw [clean] at admitted
    simp only [admitsWrite, Bool.and_eq_true, List.all_eq_true, decide_eq_true_eq] at admitted
    obtain ⟨⟨_, parent⟩, distinct⟩ := admitted
    have present : db.workspace? writer.workspaceId ≠ none := Option.isSome_iff_ne_none.mp parent
    obtain ⟨row, found⟩ := Option.ne_none_iff_exists'.mp present
    obtain ⟨positive, bound⟩ := sound.numbered writer text rfl
    have bound := bound present
    refine ⟨?_, present⟩
    by_contra other
    have inside : writer.number ∈ (db.history writer.workspaceId).map (·.revisionNumber) := by
      rw [(consistent.linear _ row found).numbers, List.mem_range'_1]
      omega
    obtain ⟨taken, member, same⟩ := List.mem_map.mp inside
    exact distinct taken member same
  cases writer with
  | create workspace =>
    have inside : Write.insertWorkspace workspace ∈ pending := by
      rw [sound.shape]
      exact List.mem_singleton.mpr rfl
    have absent := (sound.writes _ inside).2
    refine ⟨?_, .inr ⟨workspace, inside, rfl⟩⟩
    show 1 = (db.history workspace.id).length + 1
    rw [consistent.no_history absent]
    rfl
  | save held caller payload number => exact ⟨(existing rfl).1, .inl (existing rfl).2⟩
  | worker job held source => exact ⟨(existing rfl).1, .inl (existing rfl).2⟩

theorem new_write {phase' : Phase} {input : Input} {w : Write} (consistent : Consistent db outside)
    (sound : Sound db outside phase pending)
    (step : Next rt (replay db pending) outside phase input (.write w phase' outside'))
    (admitted : admitsWrite (replay db pending) w = true) :
    WriteOk db outside' w ∧ (∀ held, HeldOk db outside held → w.Fresh held) ∧
      ∀ row, w = .insertRevision row → db.workspace? row.workspaceId ≠ none ∨
        ∃ workspace, .insertWorkspace workspace ∈ pending ∧ workspace.id = row.workspaceId := by
  rcases next_write sound.inserted step with ⟨userId, key, text, _, rfl, _, advanced, _⟩ |
    ⟨writer, text, rfl, rfl, _, advanced, _⟩ | ⟨nothing, _, _, _⟩
  · refine ⟨⟨?_, ?_⟩, ?_, fun row same => (nomatch same)⟩
    · rw [advanced]
      exact Nat.lt_succ_self _
    · refine workspace?_none.mpr fun row member same => ?_
      exact absurd (consistent.workspaceIds row member) (by rw [same]; exact Nat.lt_irrefl _)
    · intro held ok same
      exact absurd ok.known (by rw [← same]; exact Nat.lt_irrefl _)
  · obtain ⟨number, parent⟩ := next_number consistent sound admitted
    refine ⟨⟨?_, ?_, number⟩, ?_, ?_⟩
    · rw [advanced]
      exact Nat.lt_succ_self _
    · intro row member same
      exact absurd (consistent.revisionIds row member) (by rw [same]; exact Nat.lt_irrefl _)
    · intro held ok same
      exact absurd (ok.pointer _ same).1 (Nat.lt_irrefl _)
    · intro row same
      cases same
      exact parent
  · cases w with
    | insertWorkspace row => exact absurd nothing not_false
    | insertRevision row => exact absurd nothing not_false
    | _ => exact ⟨trivial, fun _ _ => trivial, fun row same => (nomatch same)⟩

theorem Sound.write {phase' : Phase} {input : Input} {w : Write} (consistent : Consistent db outside)
    (sound : Sound db outside phase pending)
    (step : Next rt (replay db pending) outside phase input (.write w phase' outside'))
    (admitted : admitsWrite (replay db pending) w = true) : Sound db outside' phase' (pending ++ [w]) := by
  have grows : outside.Grows outside' := next_outside step
  have same : phase'.pending = phase.pending ++ [w] := next_pending step
  obtain ⟨ok, fresh, parent⟩ := new_write consistent sound step admitted
  have clean : phase.pending = [] → replay db pending = db := by
    intro empty
    rw [sound.shape, empty]
    rfl
  have each : ∀ v ∈ pending ++ [w], WriteOk db outside' v := by
    intro v member
    rcases List.mem_append.mp member with old | new
    · exact (sound.writes v old).grows grows
    · exact List.mem_singleton.mp new ▸ ok
  refine ⟨?_, next_inserted step sound.inserted, ?_, ?_, each, ?_, ?_⟩
  · rw [same, sound.shape]
  · intro held holds
    rcases next_held step with nothing | kept | ⟨empty, other, member, loaded⟩
    · exact absurd (nothing.symm.trans holds) (fun same => nomatch same)
    · obtain ⟨known, earlier⟩ := sound.held held (kept ▸ holds)
      refine ⟨known.grows grows, ?_⟩
      intro v member
      rcases List.mem_append.mp member with old | new
      · exact earlier v old
      · exact List.mem_singleton.mp new ▸ fresh held known
    · rw [clean empty] at member
      cases Option.some.inj (loaded.symm.trans holds)
      obtain ⟨known, _⟩ := consistent.heldOk member
      obtain ⟨_, apart⟩ := (consistent.grows grows).heldOk member
      exact ⟨known.grows grows, fun v inside => apart v (each v inside)⟩
  · intro held source holds loads
    rcases next_source step with nothing | ⟨keptSource, keptHeld⟩ | ⟨empty, other, row, before, after,
      loaded, member, home⟩
    · exact absurd (nothing.symm.trans loads) (fun same => nomatch same)
    · exact sound.source held source (keptHeld ▸ holds) (keptSource ▸ loads)
    · rw [clean empty] at member
      cases Option.some.inj (loaded.symm.trans loads)
      cases Option.some.inj (after.symm.trans holds)
      intro _
      refine ⟨member, ?_⟩
      rcases home with pointer | home
      · exact ((sound.held held before).1.pointer _ pointer).2 source member rfl
      · exact home
  · intro writer text here
    rcases next_write sound.inserted step with ⟨userId, key, own, rfl, rfl, rfl, _, _⟩ |
      ⟨other, own, _, _, rfl, _, _⟩ | ⟨_, never, _, _⟩
    · cases here
      refine ⟨Nat.one_pos, fun present => absurd ?_ present⟩
      exact ok.2
    · cases here
    · exact absurd here (never writer text)
  · intro row member
    rcases List.mem_append.mp member with old | new
    · exact (sound.parents row old).imp id fun ⟨workspace, inside, named⟩ =>
        ⟨workspace, List.mem_append_left _ inside, named⟩
    · exact (parent row (List.mem_singleton.mp new).symm).imp id
        fun ⟨workspace, inside, named⟩ => ⟨workspace, List.mem_append_left _ inside, named⟩

theorem sound_begin (db : Database) (outside : Outside) (request : Request) :
    Sound db outside (begin request) [] := by
  have shape : (begin request).pending = [] := by cases request <;> rfl
  have inserted : (begin request).Inserted := by cases request <;> trivial
  have nothing : (begin request).held? = none := by cases request <;> rfl
  refine ⟨shape.symm, inserted, ?_, ?_, fun _ member => (nomatch member), ?_, fun _ member =>
    (nomatch member)⟩
  · intro held same
    exact absurd (nothing.symm.trans same) (fun same => nomatch same)
  · intro held source same
    exact absurd (nothing.symm.trans same) (fun same => nomatch same)
  · intro writer text same
    cases request <;> cases same

theorem Sound.failed {phase' : Phase} {input : Input} {base : Database}
    (step : Next rt base outside phase input (.fail phase')) : Sound db outside phase' [] := by
  have finished : ∃ outcome, phase' = .finished outcome ∧ (Phase.finished outcome).held? = none := by
    generalize reached : (Effect.fail phase' : Effect Outside Phase Write) = effect at step
    cases step with
    | failed plain =>
      cases reached
      rename_i outcome
      refine ⟨outcome, rfl, ?_⟩
      cases outcome <;> first | rfl | cases plain
    | blamed bad =>
      cases reached
      exact ⟨_, rfl, rfl⟩
    | _ => cases reached
  obtain ⟨outcome, rfl, nothing⟩ := finished
  refine ⟨rfl, trivial, ?_, ?_, fun _ member => (nomatch member), fun _ _ same => (nomatch same),
    fun _ member => (nomatch member)⟩
  · intro held same
    exact absurd (nothing.symm.trans same) (fun same => nomatch same)
  · intro held source same
    exact absurd (nothing.symm.trans same) (fun same => nomatch same)

theorem flushed {batch : Batch} {sent : Nat} (sound : Sound db outside (.flush batch sent) pending)
    (all : batch.writes[sent]? = none) : pending = batch.writes := by
  rw [sound.shape, Phase.pending]
  exact List.take_of_length_le (List.getElem?_eq_none_iff.mp all)

theorem commit_change {phase' : Phase} {input : Input} {base : Database}
    (sound : Sound db outside phase pending)
    (step : Next rt base outside phase input (.commit phase' outside')) :
    ∃ batch sent, phase = .flush batch sent ∧ batch.writes[sent]? = none ∧ pending = batch.writes ∧
      phase' = batch.after ∧
      outside' = outside ∧ Commits db batch (replay db batch.writes) := by
  obtain ⟨batch, sent, rfl, all, rfl, rfl⟩ := next_commit step
  obtain rfl := flushed sound all
  refine ⟨batch, sent, rfl, all, rfl, rfl, rfl, replay_commits batch fun workspace revisionId text same => ?_⟩
  exact workspace?_none.mp (opens_fresh sound.writes workspace revisionId text same)

theorem history_own {label : Option Input} {db' : Database} {phase' : Phase} {pending' : List Write}
    (consistent : Consistent db outside) (sound : Sound db outside phase pending)
    (moves : (resumeSystem rt).Moves db outside phase pending label db' outside' phase' pending') :
    Consistent db' outside' ∧ Sound db' outside' phase' pending' := by
  cases moves with
  | read next =>
    have step := next_cases next
    have grows : outside.Grows outside' := next_outside step
    exact ⟨consistent.grows grows, sound.read consistent grows step⟩
  | write next admitted =>
    have step := next_cases next
    have grows : outside.Grows outside' := next_outside step
    exact ⟨consistent.grows grows, sound.write consistent step admitted⟩
  | refused next refused => exact ⟨consistent, sound.dropped⟩
  | commit next =>
    obtain ⟨batch, sent, rfl, _, rfl, rfl, rfl, change⟩ := commit_change sound (next_cases next)
    exact ⟨consistent.commits change sound.writes sound.parents, sound.committed change sound.writes⟩
  | fail next => exact ⟨consistent, Sound.failed (next_cases next)⟩
  | abort => exact ⟨consistent, sound.dropped⟩

theorem dropped_held {held : ResumeWorkspace} (holds : (failedPhase phase).held? = some held) :
    phase.held? = some held := by
  cases phase <;> first | exact holds | cases holds

theorem history_other {label : Option Input} {db' : Database} {phase' other : Phase}
    {pending' otherPending : List Write} (consistent : Consistent db outside)
    (sound : Sound db outside phase pending) (beside : Sound db outside other otherPending)
    (mine : ∀ held, other.held? = some held → ∀ w ∈ pending, w.Fresh held)
    (theirs : ∀ held, phase.held? = some held → ∀ w ∈ otherPending, w.Fresh held)
    (free : (resumeSystem rt).Compatible pending otherPending)
    (moves : (resumeSystem rt).Moves db outside phase pending label db' outside' phase' pending') :
    Sound db' outside' other otherPending ∧ (∀ held, other.held? = some held → ∀ w ∈ pending', w.Fresh held) ∧
      ∀ held, phase'.held? = some held → ∀ w ∈ otherPending, w.Fresh held := by
  -- what the moving session reads, no other session is about to create
  have reads : ∀ {input effect}, Next rt (replay db pending) outside phase input effect → ∀ held,
      effect.phase.held? = some held → ∀ w ∈ otherPending, w.Fresh held := by
    intro input effect step held holds w inside
    rcases next_held step with missing | kept | ⟨empty, read, member, loaded⟩
    · exact absurd (missing.symm.trans holds) (fun same => nomatch same)
    · exact theirs held (kept ▸ holds) w inside
    · have clean : replay db pending = db := by
        rw [sound.shape, empty]
        rfl
      rw [clean] at member
      cases Option.some.inj (loaded.symm.trans holds)
      exact (consistent.heldOk member).2 w (beside.writes w inside)
  have nothing : ∀ held, other.held? = some held → ∀ w ∈ ([] : List Write), w.Fresh held :=
    fun _ _ _ member => nomatch member
  cases moves with
  | read next =>
    have step := next_cases next
    have grows : outside.Grows outside' := next_outside step
    exact ⟨beside.grows grows, mine, reads step⟩
  | write next admitted =>
    have step := next_cases next
    have grows : outside.Grows outside' := next_outside step
    refine ⟨beside.grows grows, ?_, reads step⟩
    intro held holds w member
    rcases List.mem_append.mp member with old | new
    · exact mine held holds w old
    · rw [List.mem_singleton.mp new]
      exact (new_write consistent sound step admitted).2.1 held (beside.held held holds).1
  | refused next refused => exact ⟨beside, nothing, fun held holds => theirs held (dropped_held holds)⟩
  | commit next =>
    have step := next_cases next
    obtain ⟨batch, sent, rfl, _, rfl, rfl, rfl, change⟩ := commit_change sound step
    exact ⟨beside.commits change sound.writes free mine, nothing, reads step⟩
  | fail next => exact ⟨beside, nothing, reads (next_cases next)⟩
  | abort => exact ⟨beside, nothing, fun held holds => theirs held (dropped_held holds)⟩

end Moves

theorem history_stable (rt : Runtime) :
    Stable (resumeSystem rt) Guard.free Assertion.trivial historyAssertion where
  start {db outside request phase outside'} _ consistent started := by
    cases started
    exact ⟨consistent, sound_begin db outside request⟩
  startOther {db outside request phase outside' other otherPending} _ consistent sound started := by
    cases started
    have nothing : (begin request).held? = none := by cases request <;> rfl
    refine ⟨sound, fun _ _ _ member => (nomatch member), ?_⟩
    intro held same
    exact absurd (nothing.symm.trans same) (fun same => nomatch same)
  own _ _ consistent sound _ moves := history_own consistent sound moves
  other _ _ _ _ _ consistent sound beside mine theirs _ free moves :=
    history_other consistent sound beside mine theirs free moves

def Reachable (rt : Runtime) : State Database Outside Phase Write → Prop :=
  Runs (resumeSystem rt) Guard.free initialState

theorem history_holds {rt : Runtime} {s : State Database Outside Phase Write} (reachable : Reachable rt s) :
    (resumeSystem rt).Separate s ∧ historyAssertion.Holds s := by
  apply holds_idle_runs conflicts_symm (history_stable rt) (fun t _ => Assertion.trivial_holds t)
    rfl _ reachable
  have nothing : ∀ {α : Type} {P : α → Prop}, ∀ row ∈ ([] : List α), P row := fun _ member => nomatch member
  exact ⟨nothing, List.nodup_nil, nothing, List.nodup_nil, nothing, nothing,
    fun _ _ found => absurd (workspace?_some found).1 List.not_mem_nil⟩

end ManifestCV.Workspace
