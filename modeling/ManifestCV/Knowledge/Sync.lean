import Mathlib.Data.List.Find
import ManifestCV.Knowledge.Sessions

namespace ManifestCV.Knowledge

open Foundation Foundation.Transactions

abbrev Sessions := State Table Outside Phase Write

def chunksOf (table : Table) (userId : Nat) : List Str :=
  match getByUserId table userId with
  | some row => chunkMarkdown row.content
  | none => []

def Phase.owes (table : Table) (userId : Nat) : Phase → Bool
  | .refresh entry _ => entry.userId = userId && table.any (·.id = entry.id)
  | phase => phase.user? = some userId

def Phase.holds? : Phase → Option (Nat × List Str)
  | .clear userId chunks | .upsertPoints userId chunks => some (userId, chunks)
  | _ => none

/-- A request that takes the lock brings the chunks of the committed row, or another request of the user
    has still to index. -/
def inOrder (s : Sessions) : Action Input Request → Bool
  | .run i _ => s.sessions[i]?.all fun session =>
      match session.phase with
      | .reindex userId chunks => chunks = chunksOf s.db userId ||
          s.sessions.zipIdx.any fun (other, j) => j ≠ i && other.phase.owes s.db userId
      | _ => true
  | _ => true

def completed (s : Sessions) : Bool :=
  s.sessions.all fun session =>
    match session.phase with
    | .finished outcome => outcome ≠ .unindexed
    | _ => false

structure IndexFollows (table : Table) (points : List Point) : Prop where
  row : ∀ row ∈ table, userPoints row.userId points = pointsOf row.userId (chunkMarkdown row.content)
  none : ∀ userId, (∀ row ∈ table, row.userId ≠ userId) → userPoints userId points = []

/-- No request was left with its row committed and the collection not written. -/
def Indexed (s : Sessions) : Prop := ∀ session ∈ s.sessions, session.phase ≠ .finished .unindexed

def OwedBy (s : Sessions) (i userId : Nat) : Prop :=
  ∃ session, s.sessions[i]? = some session ∧ session.phase.owes s.db userId = true

structure Synced (s : Sessions) : Prop where
  named : Named s.outside.points
  holder : ∀ (i : Nat) session userId chunks, s.sessions[i]? = some session →
    session.phase.holds? = some (userId, chunks) →
    userId ∈ s.outside.locked ∧ (chunks = chunksOf s.db userId ∨ ∃ j, j ≠ i ∧ OwedBy s j userId)
  single : ∀ (i j : Nat) first second userId chunks others, s.sessions[i]? = some first →
    s.sessions[j]? = some second →
    first.phase.holds? = some (userId, chunks) → second.phase.holds? = some (userId, others) → i = j
  cleared : ∀ (i : Nat) session userId chunks, s.sessions[i]? = some session →
    session.phase = .upsertPoints userId chunks → userPoints userId s.outside.points = []
  synced : ∀ userId, userPoints userId s.outside.points = pointsOf userId (chunksOf s.db userId) ∨
    ∃ i, OwedBy s i userId

def Change.entry : Change → CareerKnowledgeBase
  | .created row => row
  | .updated entry _ | .deleted entry => entry

inductive Turn (table : Table) (outside : Outside) : Phase → Table → Outside → Phase → Prop
  | idle {phase outside' phase'} (points : outside'.points = outside.points)
      (locked : outside'.locked = outside.locked)
      (before : phase.holds? = none) (after : phase'.holds? = none)
      (owes : ∀ userId, phase.owes table userId = true → phase'.owes table userId = true) :
      Turn table outside phase table outside' phase'
  | changed {change sent table'} (changes : Changes table change table')
      (owned : ∀ row ∈ table, row.id = change.entry.id → row.userId = change.entry.userId) :
    Turn table outside (.flush change sent) table' outside change.after
  | entered {userId chunks} (free : userId ∉ outside.locked) :
      Turn table outside (.reindex userId chunks) table
      { outside with locked := userId :: outside.locked } (.clear userId chunks)
  | cleared {userId chunks} : Turn table outside (.clear userId chunks) table
      { outside with points := deleteUser userId outside.points } (.upsertPoints userId chunks)
  | emptied {userId} : Turn table outside (.clear userId []) table
      (Outside.release { outside with points := deleteUser userId outside.points } userId) (.finished .done)
  | filled {userId chunks} : Turn table outside (.upsertPoints userId chunks) table
      (Outside.release { outside with points := upsert (pointsOf userId chunks) outside.points } userId)
        (.finished .done)

section Turns

variable {table table' : Table} {outside outside' : Outside} {phase phase' : Phase}
  {pending pending' : List Write}
  {change : Change} {userId : Nat} {chunks : List Str}

theorem moves_turn {label : Option Input} (sound : Sound table outside phase pending)
    (moves : knowledgeSystem.Moves table outside phase pending label table' outside' phase' pending')
    (indexed : phase' ≠ .finished .unindexed) : Turn table outside phase table' outside' phase' := by
  have dropped : failedPhase phase ≠ .finished .unindexed →
      Turn table outside phase table outside (failedPhase phase) := by
    intro indexed
    refine .idle rfl rfl ?_ ?_ ?_
    · cases phase <;> first | rfl | exact absurd rfl indexed
    · cases phase <;> rfl
    · intro userId owes
      cases phase <;> first | exact owes | exact absurd rfl indexed
  cases moves with
  | refused _ _ => exact dropped indexed
  | abort => exact dropped indexed
  | read next =>
    have step := next_cases next
    cases step with
    | refreshed found =>
      refine .idle rfl rfl rfl rfl ?_
      intro userId owes
      simp only [Phase.owes, Phase.user?, Bool.and_eq_true, decide_eq_true_eq, Option.some.injEq] at owes ⊢
      exact owes.1
    | entered free => exact .entered free
    | cleared => exact .cleared
    | emptied => exact .emptied
    | filled => exact .filled
    | lost => exact absurd rfl indexed
    | _ => exact .idle rfl rfl rfl rfl (fun _ owes => owes)
  | write next _ =>
    have step := next_cases next
    cases step with
    | _ => exact .idle rfl rfl rfl rfl (fun _ owes => owes)
  | fail next =>
    have step := next_cases next
    cases step with
    | refused early =>
      have nothing : phase.holds? = none ∧ ∀ userId, phase.owes table userId = false := by
        cases phase <;> cases early <;> exact ⟨rfl, fun _ => rfl⟩
      refine .idle rfl rfl nothing.1 rfl ?_
      intro userId owes
      exact absurd owes (Bool.eq_false_iff.mp (nothing.2 userId))
    | vanished missing =>
      refine .idle rfl rfl rfl rfl ?_
      intro userId owes
      simp only [Phase.owes, Bool.and_eq_true, List.any_eq_true] at owes
      obtain ⟨_, row, member, same⟩ := owes
      have empty : pending = [] := sound.shape
      subst empty
      exact absurd same (List.find?_eq_none.mp missing row member)
  | commit next =>
    have step := next_cases next
    obtain ⟨change, sent, rfl, rfl, rfl, rfl⟩ := commit_change sound step
    have known : (Phase.flush change sent).loaded? = some change.entry := by
      cases change <;> rfl
    exact .changed (replay_changes table change) (sound.entry change.entry known).2

theorem Changes.find (changes : Changes table change table')
    (owned : ∀ row ∈ table, row.id = change.entry.id → row.userId = change.entry.userId)
    (apart : userId ≠ change.entry.userId) :
    getByUserId table' userId = getByUserId table userId := by
  cases changes with
  | created =>
    rename_i row
    have other : [row].find? (·.userId = userId) = none := by
      rw [List.find?_singleton, if_neg]
      exact fun same => apart (of_decide_eq_true same).symm
    rw [getByUserId, getByUserId, List.find?_append, other, Option.or_none]
  | updated set keeps other =>
    rw [getByUserId, getByUserId, List.find?_map]
    have same : ((fun row : CareerKnowledgeBase => decide (row.userId = userId)) ∘ set) = fun row =>
        decide (row.userId = userId) := by
      funext row
      simp only [Function.comp_apply, (keeps row).2]
    rw [same]
    cases found : table.find? (·.userId = userId) with
    | none => rfl
    | some row =>
      have mine : row.userId = userId := by simpa using List.find?_some found
      rw [Option.map_some, other row]
      intro named
      exact apart (mine.symm.trans (owned row (List.mem_of_find?_eq_some found) named))
  | deleted =>
    rename_i entry
    rw [getByUserId, getByUserId, List.find?_filter]
    apply List.find?_congr
    intro row member
    by_cases named : row.id = entry.id
    · have mine := owned row member named
      have other : row.userId ≠ userId := fun same => apart (same.symm.trans mine)
      simp [named, other]
    · simp [named]

theorem Changes.chunksOf (changes : Changes table change table')
    (owned : ∀ row ∈ table, row.id = change.entry.id → row.userId = change.entry.userId)
    (apart : userId ≠ change.entry.userId) :
    Knowledge.chunksOf table' userId = Knowledge.chunksOf table userId := by
  rw [Knowledge.chunksOf, Knowledge.chunksOf, changes.find owned apart]

theorem Changes.owes (changes : Changes table change table') (sound : Sound table outside phase pending)
    (owned : ∀ row ∈ table, row.id = change.entry.id → row.userId = change.entry.userId)
    (apart : userId ≠ change.entry.userId) (owes : phase.owes table userId = true) :
    phase.owes table' userId = true := by
  cases phase with
  | refresh entry content =>
    simp only [Phase.owes, Bool.and_eq_true, decide_eq_true_eq, List.any_eq_true] at owes ⊢
    obtain ⟨mine, row, member, same⟩ := owes
    refine ⟨mine, ?_⟩
    have user := (sound.entry entry rfl).2 row member same
    cases changes with
    | created => exact ⟨row, List.mem_append_left _ member, same⟩
    | updated set keeps other => exact ⟨set row, List.mem_map_of_mem member, (keeps row).1.trans same⟩
    | deleted =>
      refine ⟨row, List.mem_filter.mpr ⟨member, ?_⟩, same⟩
      apply decide_eq_true
      intro named
      exact apart (mine.symm.trans (user.symm.trans (owned row member named)))
  | _ => exact owes

theorem Changes.after_owes (changes : Changes table change table') :
    change.after.owes table' change.entry.userId = true ∨ table' = table := by
  cases changes with
  | created =>
    left
    simp [Change.after, Change.entry, Phase.owes]
  | deleted =>
    left
    simp [Change.after, Change.entry, Phase.owes, Phase.user?]
  | updated set keeps other =>
    rename_i entry fields
    by_cases found : table.any (·.id = entry.id) = true
    · left
      obtain ⟨row, member, same⟩ := List.any_eq_true.mp found
      simp only [Change.after, Change.entry, Phase.owes, decide_true, Bool.true_and, List.any_eq_true]
      exact ⟨set row, List.mem_map_of_mem member, by rw [(keeps row).1]; exact same⟩
    · right
      have same : table.map set = table.map id := by
        apply List.map_congr_left
        intro row member
        apply other
        intro named
        exact found (List.any_eq_true.mpr ⟨row, member, decide_eq_true named⟩)
      rw [same, List.map_id]

theorem Turn.chunks_kept (turn : Turn table outside phase table' outside' phase') (userId : Nat) :
    chunksOf table' userId = chunksOf table userId ∨ phase'.owes table' userId = true := by
  cases turn with
  | changed changes owned =>
    rename_i change sent
    by_cases mine : userId = change.entry.userId
    · subst mine
      rcases changes.after_owes with owes | same
      · exact .inr owes
      · exact .inl (by rw [same])
    · exact .inl (changes.chunksOf owned mine)
  | _ => exact .inl rfl

theorem Turn.owes_other {other : Phase} (turn : Turn table outside phase table' outside' phase')
    (sound : Sound table outside other pending) (owes : other.owes table userId = true) :
    other.owes table' userId = true ∨ phase'.owes table' userId = true := by
  cases turn with
  | changed changes owned =>
    rename_i change sent
    by_cases mine : userId = change.entry.userId
    · subst mine
      rcases changes.after_owes with after | same
      · exact .inr after
      · exact .inl (by rw [same]; exact owes)
    · exact .inl (changes.owes sound owned mine owes)
  | _ => exact .inl owes

theorem Turn.owes_own (turn : Turn table outside phase table' outside' phase')
    (owes : phase.owes table userId = true) :
    phase'.owes table' userId = true ∨ ∃ chunks, phase.holds? = some (userId, chunks) := by
  cases turn with
  | idle points locked before after keeps => exact .inl (keeps userId owes)
  | changed changes owned => cases owes
  | entered free => exact .inl owes
  | cleared => exact .inl owes
  | emptied => exact .inr ⟨_, by rw [Option.some.inj (of_decide_eq_true owes)]; rfl⟩
  | filled => exact .inr ⟨_, by rw [Option.some.inj (of_decide_eq_true owes)]; rfl⟩

theorem Turn.named (turn : Turn table outside phase table' outside' phase') (named : Named outside.points) :
    Named outside'.points := by
  cases turn with
  | idle points _ _ _ _ => exact points ▸ named
  | cleared => exact named.deleteUser _
  | emptied => exact named.deleteUser _
  | filled => exact named.upsert _ _
  | _ => exact named

theorem Turn.points (turn : Turn table outside phase table' outside' phase') (named : Named outside.points)
    (userId : Nat) :
    userPoints userId outside'.points = userPoints userId outside.points ∨
      ∃ chunks, phase.holds? = some (userId, chunks) := by
  cases turn with
  | idle points _ _ _ _ => exact .inl (by rw [points])
  | cleared =>
    rename_i holder chunks
    by_cases mine : userId = holder
    · exact .inr ⟨chunks, by rw [mine]; rfl⟩
    · exact .inl (deleteUser_other mine _)
  | emptied =>
    rename_i holder
    by_cases mine : userId = holder
    · exact .inr ⟨[], by rw [mine]; rfl⟩
    · exact .inl (deleteUser_other mine _)
  | filled =>
    rename_i holder chunks
    by_cases mine : userId = holder
    · exact .inr ⟨chunks, by rw [mine]; rfl⟩
    · exact .inl (upsert_other mine named _)
  | _ => exact .inl rfl

theorem Turn.locked (turn : Turn table outside phase table' outside' phase')
    (locked : userId ∈ outside.locked) :
    userId ∈ outside'.locked ∨ ∃ chunks, phase.holds? = some (userId, chunks) := by
  cases turn with
  | idle _ same _ _ _ => exact .inl (same ▸ locked)
  | entered free => exact .inl (List.mem_cons_of_mem _ locked)
  | emptied =>
    rename_i holder
    by_cases mine : userId = holder
    · exact .inr ⟨[], by rw [mine]; rfl⟩
    · exact .inl ((List.mem_erase_of_ne mine).mpr locked)
  | filled =>
    rename_i holder chunks
    by_cases mine : userId = holder
    · exact .inr ⟨chunks, by rw [mine]; rfl⟩
    · exact .inl ((List.mem_erase_of_ne mine).mpr locked)
  | _ => exact .inl locked

theorem Turn.holds (turn : Turn table outside phase table' outside' phase')
    (holds : phase'.holds? = some (userId, chunks)) : table' = table ∧
      (phase = .reindex userId chunks ∧ userId ∉ outside.locked ∧ outside'.locked = userId :: outside.locked ∨
        phase.holds? = some (userId, chunks) ∧ outside'.locked = outside.locked) := by
  cases turn with
  | idle _ _ _ after _ => cases after.symm.trans holds
  | changed changes owned =>
    rename_i change sent
    cases change <;> cases holds
  | entered free =>
    cases holds
    exact ⟨rfl, .inl ⟨rfl, free, rfl⟩⟩
  | cleared => exact ⟨rfl, .inr ⟨holds, rfl⟩⟩
  | emptied => cases holds
  | filled => cases holds

theorem Turn.cleared_points (turn : Turn table outside phase table' outside' phase')
    (here : phase' = .upsertPoints userId chunks) :
    userPoints userId outside'.points = [] := by
  cases turn with
  | idle _ _ _ after _ =>
    rw [here] at after
    cases after
  | changed changes owned =>
    rename_i change sent
    cases change <;> cases here
  | cleared =>
    cases here
    exact deleteUser_user _ _
  | _ => cases here

theorem Turn.written (turn : Turn table outside phase table' outside' phase')
    (holds : phase.holds? = some (userId, chunks))
    (cleared : phase = .upsertPoints userId chunks → userPoints userId outside.points = []) :
    phase'.owes table' userId = true ∨ userPoints userId outside'.points = pointsOf userId chunks := by
  cases turn with
  | idle _ _ before _ _ => cases before.symm.trans holds
  | changed changes owned => cases holds
  | entered free => cases holds
  | cleared =>
    cases holds
    exact .inl (decide_eq_true rfl)
  | emptied =>
    cases holds
    exact .inr (deleteUser_user _ _)
  | filled =>
    cases holds
    exact .inr (upsert_user (cleared rfl) _)

end Turns

theorem synced_start {s : Sessions} (synced : Synced s) (request : Request) :
    Synced { s with sessions := s.sessions ++ [⟨.find request, []⟩] } := by
  have kept : ∀ {j userId}, OwedBy s j userId →
      OwedBy { s with sessions := s.sessions ++ [⟨.find request, []⟩] } j userId := by
    rintro j userId ⟨session, found, owes⟩
    refine ⟨session, ?_, owes⟩
    rw [List.getElem?_append_left (List.getElem?_eq_some_iff.mp found).1]
    exact found
  have old : ∀ {j : Nat} {session : Session Phase Write} {holding},
    (s.sessions ++ [⟨.find request, []⟩])[j]? = some session →
      session.phase.holds? = some holding → s.sessions[j]? = some session := by
    intro j session holding found holds
    rcases append_session found with found | ⟨_, rfl⟩
    · exact found
    · cases holds
  refine ⟨synced.named, ?_, ?_, ?_, ?_⟩
  · intro i session userId chunks found holds
    obtain ⟨locked, current⟩ := synced.holder i session userId chunks (old found holds) holds
    refine ⟨locked, ?_⟩
    rcases current with current | ⟨j, apart, owed⟩
    · exact .inl current
    · exact .inr ⟨j, apart, kept owed⟩
  · intro i j first second userId chunks others hFirst hSecond one two
    exact synced.single i j first second userId chunks others (old hFirst one) (old hSecond two) one two
  · intro i session userId chunks found here
    exact synced.cleared i session userId chunks (old found (by rw [here]; rfl)) here
  · intro userId
    rcases synced.synced userId with same | ⟨i, owed⟩
    · exact .inl same
    · exact .inr ⟨i, kept owed⟩

section Step

variable {s s' : Sessions} {i : Nat} {session : Session Phase Write} {phase' : Phase} {pending' : List Write}

structure Turned (s s' : Sessions) (i : Nat) (session : Session Phase Write) (phase' : Phase)
    (pending' : List Write) : Prop where
  found : s.sessions[i]? = some session
  same : s'.sessions = s.sessions.set i ⟨phase', pending'⟩
  turn : Turn s.db s.outside session.phase s'.db s'.outside phase'
  sound : ∀ (j : Nat) other, s.sessions[j]? = some other → Sound s.db s.outside other.phase other.pending

theorem Turned.other (turned : Turned s s' i session phase' pending') {j : Nat} {other : Session Phase Write}
    (apart : j ≠ i) (found : s.sessions[j]? = some other) : s'.sessions[j]? = some other := by
  rw [turned.same, List.getElem?_set_ne (Ne.symm apart)]
  exact found

theorem Turned.here (turned : Turned s s' i session phase' pending') :
    s'.sessions[i]? = some ⟨phase', pending'⟩ := by
  rw [turned.same, List.getElem?_set_self (List.getElem?_eq_some_iff.mp turned.found).1]

theorem Turned.owed (turned : Turned s s' i session phase' pending') {userId : Nat}
    (owes : phase'.owes s'.db userId = true) : OwedBy s' i userId := ⟨_, turned.here, owes⟩

/-- Who owes a user's points beside the acting request, or the acting request, owes them after its turn. -/
theorem Turned.owed_other (turned : Turned s s' i session phase' pending') {j userId : Nat} (apart : j ≠ i)
    (owed : OwedBy s j userId) : OwedBy s' j userId ∨ OwedBy s' i userId := by
  obtain ⟨other, found, owes⟩ := owed
  rcases turned.turn.owes_other (turned.sound j other found) owes with kept | mine
  · exact .inl ⟨other, turned.other apart found, kept⟩
  · exact .inr (turned.owed mine)

theorem Turned.alone (turned : Turned s s' i session phase' pending') (synced : Synced s) {j userId : Nat}
    {other : Session Phase Write} {chunks others : List Str} (apart : j ≠ i)
    (found : s.sessions[j]? = some other) (holds : other.phase.holds? = some (userId, chunks)) :
    session.phase.holds? ≠ some (userId, others) :=
  fun mine => apart (synced.single j i other session userId chunks others found turned.found holds mine)

/-- The holder of the lock of a user leaves the collection right for that user, or it is still owed. -/
theorem synced_holder (turned : Turned s s' i session phase' pending') (synced : Synced s) {userId : Nat}
    {chunks : List Str} (held : session.phase.holds? = some (userId, chunks)) :
    userPoints userId s'.outside.points = pointsOf userId (chunksOf s'.db userId) ∨ ∃ j,
      OwedBy s' j userId := by
  have cleared := fun here => synced.cleared i session userId chunks turned.found here
  rcases turned.turn.written held cleared with owes | written
  · exact .inr ⟨i, turned.owed owes⟩
  rcases turned.turn.chunks_kept userId with kept | owes
  · rcases (synced.holder i session userId chunks turned.found held).2 with current | ⟨j, apart, owed⟩
    · exact .inl (by rw [written, kept, current])
    · rcases turned.owed_other apart owed with kept | mine
      · exact .inr ⟨j, kept⟩
      · exact .inr ⟨i, mine⟩
  · exact .inr ⟨i, turned.owed owes⟩

theorem synced_turn (turned : Turned s s' i session phase' pending') (synced : Synced s)
    (ordered : ∀ userId chunks, session.phase = .reindex userId chunks →
      chunks = chunksOf s.db userId ∨ ∃ j, j ≠ i ∧ OwedBy s j userId) : Synced s' := by
  have turn := turned.turn
  refine ⟨turn.named synced.named, ?_, ?_, ?_, ?_⟩
  · intro k held userId chunks found holds
    rw [turned.same] at found
    rcases set_session found with ⟨rfl, rfl⟩ | ⟨apart, old⟩
    · obtain ⟨table, origin⟩ := turn.holds holds
      have before : userId ∈ s'.outside.locked ∧
          (chunks = chunksOf s.db userId ∨ ∃ j, j ≠ k ∧ OwedBy s j userId) := by
        rcases origin with ⟨here, _, locked⟩ | ⟨held, locked⟩
        · exact ⟨locked ▸ List.mem_cons_self, ordered userId chunks here⟩
        · obtain ⟨member, current⟩ := synced.holder k session userId chunks turned.found held
          exact ⟨locked ▸ member, current⟩
      refine ⟨before.1, ?_⟩
      rcases before.2 with current | ⟨j, apart, other, hOther, owes⟩
      · exact .inl (table ▸ current)
      · exact .inr ⟨j, apart, other, turned.other apart hOther, table ▸ owes⟩
    · obtain ⟨member, current⟩ := synced.holder k held userId chunks old holds
      constructor
      · rcases turn.locked member with kept | ⟨others, mine⟩
        · exact kept
        · exact absurd mine (turned.alone synced apart old holds)
      · rcases turn.chunks_kept userId with same | owes
        · rcases current with current | ⟨j, beside, owed⟩
          · exact .inl (same ▸ current)
          · by_cases acting : j = i
            · subst acting
              obtain ⟨acting, hActing, owes⟩ := owed
              cases turned.found.symm.trans hActing
              rcases turn.owes_own owes with owes | ⟨others, mine⟩
              · exact .inr ⟨j, beside, turned.owed owes⟩
              · exact absurd mine (turned.alone synced apart old holds)
            · rcases turned.owed_other acting owed with kept | mine
              · exact .inr ⟨j, beside, kept⟩
              · exact .inr ⟨i, Ne.symm apart, mine⟩
        · exact .inr ⟨i, Ne.symm apart, turned.owed owes⟩
  · intro j k first second userId chunks others hFirst hSecond one two
    rw [turned.same] at hFirst hSecond
    have crossed : ∀ {n : Nat} {other : Session Phase Write} {mine theirs}, n ≠ i →
      s.sessions[n]? = some other →
        other.phase.holds? = some (userId, theirs) → phase'.holds? = some (userId, mine) → False := by
      intro n other mine theirs apart found holds acting
      rcases (turn.holds acting).2 with ⟨_, free, _⟩ | ⟨held, _⟩
      · exact free (synced.holder n other userId theirs found holds).1
      · exact turned.alone synced apart found holds held
    rcases set_session hFirst with ⟨atFirst, rfl⟩ | ⟨farFirst, oldFirst⟩
    · rcases set_session hSecond with ⟨atSecond, _⟩ | ⟨farSecond, oldSecond⟩
      · exact atFirst.trans atSecond.symm
      · exact (crossed farSecond oldSecond two one).elim
    · rcases set_session hSecond with ⟨_, rfl⟩ | ⟨_, oldSecond⟩
      · exact (crossed farFirst oldFirst one two).elim
      · exact synced.single j k first second userId chunks others oldFirst oldSecond one two
  · intro k held userId chunks found here
    rw [turned.same] at found
    rcases set_session found with ⟨_, rfl⟩ | ⟨apart, old⟩
    · exact turn.cleared_points here
    · rcases turn.points synced.named userId with same | ⟨others, mine⟩
      · rw [same]
        exact synced.cleared k held userId chunks old here
      · exact absurd mine (turned.alone synced apart old (by rw [here]; rfl))
  · intro userId
    rcases synced.synced userId with same | ⟨j, owed⟩
    · rcases turn.points synced.named userId with kept | ⟨chunks, held⟩
      · rcases turn.chunks_kept userId with current | owes
        · exact .inl (by rw [kept, current, same])
        · exact .inr ⟨i, turned.owed owes⟩
      · exact synced_holder turned synced held
    · by_cases acting : j = i
      · subst acting
        obtain ⟨acting, hActing, owes⟩ := owed
        cases turned.found.symm.trans hActing
        rcases turn.owes_own owes with owes | ⟨chunks, held⟩
        · exact .inr ⟨j, turned.owed owes⟩
        · exact synced_holder turned synced held
      · rcases turned.owed_other acting owed with kept | mine
        · exact .inr ⟨j, kept⟩
        · exact .inr ⟨i, mine⟩

end Step

theorem synced_initial : Synced initialState where
  named _ member := nomatch member
  holder _ _ _ _ found := nomatch found
  single _ _ _ _ _ _ _ found := nomatch found
  cleared _ _ _ _ found := nomatch found
  synced _ := .inl rfl

theorem finished_stays {table table' : Table} {outside outside' : Outside} {phase' : Phase}
    {pending pending' : List Write} {label : Option Input} {outcome : Outcome}
    (moves : knowledgeSystem.Moves table outside (.finished outcome) pending label table' outside'
      phase' pending') :
    phase' = .finished outcome ∧ label = none := by
  cases moves with
  | abort => exact ⟨rfl, rfl⟩
  | read next => cases next
  | write next _ => cases next
  | refused next _ => cases next
  | commit next => cases next
  | fail next => cases next

theorem indexed_before {s s' : Sessions} {action : Action Input Request}
    (step : knowledgeSystem.step s action = some s') (indexed : Indexed s') : Indexed s := by
  intro session member lost
  obtain ⟨j, found⟩ := List.mem_iff_getElem?.mp member
  rcases step_moves step with ⟨_, _, _, _, _, rfl⟩ | ⟨i, acting, label, phase, pending, hActing,
    _, moves, _, same⟩
  · exact indexed session (List.mem_append_left _ member) lost
  · by_cases mine : j = i
    · subst mine
      cases found.symm.trans hActing
      rw [lost] at moves
      refine indexed ⟨phase, pending⟩ ?_ (finished_stays moves).1
      rw [same]
      exact List.mem_iff_getElem?.mpr ⟨j, List.getElem?_set_self (List.getElem?_eq_some_iff.mp found).1⟩
    · refine indexed session ?_ lost
      rw [same]
      exact List.mem_iff_getElem?.mpr ⟨j, by rw [List.getElem?_set_ne (Ne.symm mine)]; exact found⟩

theorem aborted_reindex {table table' : Table} {outside outside' : Outside} {phase' : Phase}
    {pending pending' : List Write} {userId : Nat} {chunks : List Str}
    (moves : knowledgeSystem.Moves table outside (.reindex userId chunks) pending none table' outside'
      phase' pending') :
    phase' = .finished .unindexed := by
  cases moves
  rfl

theorem synced_step {s s' : Sessions} (holds : tableAssertion.Holds s) (synced : Synced s)
    (step : StepWhere knowledgeSystem inOrder s s') (indexed : Indexed s') : Synced s' := by
  obtain ⟨action, ordered, step⟩ := step
  rcases step_moves step with ⟨request, phase, outside, rfl, started, rfl⟩ | ⟨i, session, label, phase,
    pending, found, cause, moves, _, same⟩
  · cases started
    exact synced_start synced request
  have last : phase ≠ .finished .unindexed := by
    refine indexed ⟨phase, pending⟩ ?_
    rw [same]
    exact List.mem_iff_getElem?.mpr ⟨i, List.getElem?_set_self (List.getElem?_eq_some_iff.mp found).1⟩
  refine synced_turn ⟨found, same, moves_turn (holds.own i session found) moves last, holds.own⟩ synced ?_
  intro userId chunks here
  rcases cause with ⟨_, rfl⟩ | ⟨input, rfl, _⟩
  · rw [here] at moves
    exact absurd (aborted_reindex moves) last
  · simp only [inOrder, found, Option.all_some, here, Bool.or_eq_true, decide_eq_true_eq,
      List.any_eq_true] at ordered
    rcases ordered with current | ⟨⟨other, j⟩, member, owes⟩
    · exact .inl current
    · right
      simp only [Bool.and_eq_true, decide_eq_true_eq] at owes
      obtain ⟨n, place⟩ := List.mem_iff_getElem?.mp member
      simp only [List.getElem?_zipIdx, Option.map_eq_some_iff, Prod.mk.injEq, Nat.zero_add] at place
      obtain ⟨stored, hOther, sameOther, sameIndex⟩ := place
      subst sameOther sameIndex
      exact ⟨n, owes.1, stored, hOther, owes.2⟩

theorem synced_runs {s : Sessions} (reached : RunsWhere knowledgeSystem inOrder initialState s)
    (indexed : Indexed s) :
    Synced s := by
  induction reached with
  | refl => exact synced_initial
  | tail before step ih =>
    obtain ⟨action, ordered, taken⟩ := step
    exact synced_step (table_holds (RunsWhere.free before)) (ih (indexed_before taken indexed))
      ⟨action, ordered, taken⟩ indexed

theorem completed_finished {s : Sessions} (ended : completed s = true) :
    ∀ session ∈ s.sessions, ∃ outcome, session.phase = .finished outcome ∧ outcome ≠ .unindexed := by
  intro session member
  have each := List.all_eq_true.mp ended session member
  split at each
  · rename_i outcome here
    exact ⟨outcome, here, of_decide_eq_true each⟩
  · cases each

theorem index_follows {s : Sessions} (reached : RunsWhere knowledgeSystem inOrder initialState s)
    (ended : completed s = true) : IndexFollows s.db s.outside.points := by
  have finished := completed_finished ended
  have indexed : Indexed s := by
    intro session member lost
    obtain ⟨outcome, here, apart⟩ := finished session member
    rw [lost] at here
    cases here
    exact apart rfl
  have synced : ∀ userId, userPoints userId s.outside.points = pointsOf userId (chunksOf s.db userId) := by
    intro userId
    rcases (synced_runs reached indexed).synced userId with same | ⟨i, session, found, owes⟩
    · exact same
    · obtain ⟨outcome, here, _⟩ := finished session (List.mem_of_getElem? found)
      rw [here] at owes
      cases owes
  have unique := (table_holds reached.free).common.unique
  constructor
  · intro row member
    rw [synced, chunksOf]
    cases found : getByUserId s.db row.userId with
    | none => exact absurd (decide_eq_true rfl) (List.find?_eq_none.mp found row member)
    | some other =>
      have mine : other.userId = row.userId := by simpa using List.find?_some found
      rw [List.inj_on_of_nodup_map unique (List.mem_of_find?_eq_some found) member mine]
  · intro userId nobody
    rw [synced, chunksOf]
    have found : getByUserId s.db userId = none := by
      rw [getByUserId, List.find?_eq_none]
      intro row member
      simpa using nobody row member
    rw [found]
    rfl

def twoEdits : List (Action Input Request) :=
  let edit (content : String) : Action Input Request := .start (.update 7 ⟨none, some (some content.toList)⟩)
  .start (.create 7 "raw".toList) :: .run 0 .answer :: .run 0 (.structured "first".toList) ::
    List.replicate 7 (.run 0 .answer) ++
  [edit "second", edit "third"] ++ List.replicate 5 (.run 1 .answer) ++ List.replicate 5 (.run 2 .answer)

theorem index_follows_edits : ∃ s, RunsWhere knowledgeSystem inOrder initialState s ∧
    IndexFollows s.db s.outside.points ∧ s.db.map (·.content) = ["third".toList] := by
  have ran : (knowledgeSystem.performWhere inOrder initialState
      (twoEdits ++ List.replicate 3 (.run 1 .answer) ++ List.replicate 3 (.run 2 .answer))).any
      (fun s => completed s && s.db.map (·.content) = ["third".toList]) = true := by
    decide
  obtain ⟨s, reached, checked⟩ := runsWhere_of_performed ran
  rw [Bool.and_eq_true] at checked
  exact ⟨s, reached, index_follows reached checked.1, of_decide_eq_true checked.2⟩

/-- The edits take the lock in the other order: the collection is left at the earlier one. -/
theorem index_left_behind : ∃ s, Runs knowledgeSystem Guard.free initialState s ∧ completed s = true ∧
    ¬ IndexFollows s.db s.outside.points := by
  have ran : (knowledgeSystem.perform Guard.free initialState
      (twoEdits ++ List.replicate 3 (.run 2 .answer) ++ List.replicate 3 (.run 1 .answer))).any
      (fun s => completed s && s.db.any fun row =>
        userPoints row.userId s.outside.points ≠ pointsOf row.userId (chunkMarkdown row.content)) = true := by
    decide
  obtain ⟨s, reached, checked⟩ := runs_of_performed ran
  rw [Bool.and_eq_true] at checked
  obtain ⟨row, member, differs⟩ := List.any_eq_true.mp checked.2
  exact ⟨s, reached, checked.1, fun follows => of_decide_eq_true differs (follows.row row member)⟩

end ManifestCV.Knowledge
