import ManifestCV.Knowledge.Requests

namespace ManifestCV.Knowledge

open Foundation Foundation.Transactions

def Phase.pending : Phase → List Write
  | .flush change sent => change.writes.take sent
  | _ => []

def Phase.loaded? : Phase → Option CareerKnowledgeBase
  | .structureAgain entry _ | .flush (.updated entry _) _ | .flush (.deleted entry) _ => some entry
  | .flush (.created row) _ => some row
  | .refresh entry _ => some entry
  | _ => none

def Phase.user? : Phase → Option Nat
  | .refresh entry _ => some entry.userId
  | .embed userId _ | .reindex userId _ | .clear userId _ | .upsertPoints userId _ => some userId
  | _ => none

inductive Next (table : Table) (outside : Outside) : Phase → Input → Effect Outside Phase Write → Prop
  | structuringNew {userId rawInput input} :
      Next table outside (.find (.create userId rawInput)) input
        (.read (.structureNew userId rawInput) outside)
  | structuring {userId fields entry input} (found : getByUserId table userId = some entry) :
      Next table outside (.find (.update userId fields)) input (.read (.structureAgain entry fields) outside)
  | updating {userId fields entry input} (found : getByUserId table userId = some entry) :
      Next table outside (.find (.update userId fields)) input
        (.read (.flush (.updated entry fields) 0) outside)
  | deleting {userId entry input} (found : getByUserId table userId = some entry) :
      Next table outside (.find (.delete userId)) input (.read (.flush (.deleted entry) 0) outside)
  | structuredNew {userId rawInput content} :
      Next table outside (.structureNew userId rawInput) (.structured content)
        (.read (.insert userId rawInput content) outside)
  | structured {entry fields content} :
      Next table outside (.structureAgain entry fields) (.structured content)
      (.read (.flush (.updated entry { fields with content := some (some content) }) 0) outside)
  | inserted {userId rawInput content input} : Next table outside (.insert userId rawInput content) input
      (.write (.insert ⟨outside.nextId, userId, rawInput, content⟩)
        (.flush (.created ⟨outside.nextId, userId, rawInput, content⟩) 1)
          { outside with nextId := outside.nextId + 1 })
  | sent {change sent w input} (more : change.writes[sent]? = some w) :
      Next table outside (.flush change sent) input (.write w (.flush change (sent + 1)) outside)
  | committed {change sent input} (all : change.writes[sent]? = none) :
      Next table outside (.flush change sent) input (.commit change.after outside)
  | refreshed {entry content row input} (found : table.find? (·.id = entry.id) = some row) :
      Next table outside (.refresh entry content) input
        (.read (.embed entry.userId (content.getD row.content)) outside)
  | vanished {entry content input} (missing : table.find? (·.id = entry.id) = none) :
      Next table outside (.refresh entry content) input (.fail (.finished .vanished))
  | embedded {userId content input} :
      Next table outside (.embed userId content) input
        (.read (.reindex userId (chunkMarkdown content)) outside)
  | entered {userId chunks input} (free : userId ∉ outside.locked) : Next table outside
      (.reindex userId chunks) input
      (.read (.clear userId chunks) { outside with locked := userId :: outside.locked })
  | cleared {userId chunks input} : Next table outside (.clear userId chunks) input
      (.read (.upsertPoints userId chunks) { outside with points := deleteUser userId outside.points })
  | emptied {userId input} : Next table outside (.clear userId []) input
      (.read (.finished .done)
        (Outside.release { outside with points := deleteUser userId outside.points } userId))
  | filled {userId chunks input} : Next table outside (.upsertPoints userId chunks) input
      (.read (.finished .done)
      (Outside.release { outside with points := upsert (pointsOf userId chunks) outside.points } userId))
  | refused {phase status input} (early : phase.user? = none) :
      Next table outside phase input (.fail (.finished (.refused status)))
  | lost {phase input outside'} (idle : phase.pending = []) (ids : outside'.nextId = outside.nextId) :
      Next table outside phase input (.read (.finished .unindexed) outside')

theorem next_cases {table : Table} {outside : Outside} {phase : Phase} {input : Input}
    {effect : Effect Outside Phase Write} (answer : next table outside phase input = some effect) :
    Next table outside phase input effect := by
  cases phase with
  | find request =>
    cases request with
    | create userId rawInput =>
      simp only [next, afterFind] at answer
      split at answer
      · cases answer
        exact .refused rfl
      · cases answer
        exact .structuringNew
    | update userId fields =>
      simp only [next, afterFind] at answer
      split at answer
      · cases answer
        exact .refused rfl
      · rename_i entry found
        split at answer
        · cases answer
          exact .structuring found
        · cases answer
          exact .updating found
    | delete userId =>
      simp only [next, afterFind] at answer
      split at answer
      · cases answer
        exact .refused rfl
      · rename_i entry found
        cases answer
        exact .deleting found
  | structureNew userId rawInput =>
    cases input with
    | structured content =>
      cases answer
      exact .structuredNew
    | unavailable =>
      cases answer
      exact .refused rfl
    | answer => cases answer
  | structureAgain entry fields =>
    cases input with
    | structured content =>
      cases answer
      exact .structured
    | unavailable =>
      cases answer
      exact .refused rfl
    | answer => cases answer
  | insert userId rawInput content =>
    cases answer
    exact .inserted
  | flush change sent =>
    simp only [next] at answer
    split at answer
    · rename_i more
      cases answer
      exact .sent more
    · rename_i all
      cases answer
      exact .committed all
  | refresh entry content =>
    simp only [next] at answer
    split at answer
    · rename_i missing
      cases answer
      exact .vanished missing
    · rename_i found
      cases answer
      exact .refreshed found
  | embed userId content =>
    simp only [next] at answer
    split at answer
    · cases answer
      exact .lost rfl rfl
    · cases answer
      exact .embedded
  | reindex userId chunks =>
    simp only [next] at answer
    split at answer
    · cases answer
    · rename_i free
      split at answer
      · cases answer
        exact .lost rfl rfl
      · cases answer
        exact .entered free
  | clear userId chunks =>
    simp only [next] at answer
    split at answer
    · cases answer
      exact .lost rfl rfl
    · split at answer
      · rename_i empty
        cases answer
        subst empty
        exact .emptied
      · cases answer
        exact .cleared
  | upsertPoints userId chunks =>
    simp only [next] at answer
    split at answer
    · cases answer
      exact .lost rfl rfl
    · cases answer
      exact .filled
  | finished outcome => cases answer

def Follows (phase : Phase) : Effect Outside Phase Write → Prop
  | .read phase' _ => phase'.pending = phase.pending
  | .write w phase' _ => phase'.pending = phase.pending ++ [w]
  | .commit phase' _ => phase'.pending = []
  | .fail phase' => phase'.pending = []

structure Sound (table : Table) (outside : Outside) (phase : Phase) (pending : List Write) : Prop where
  shape : pending = phase.pending
  entry : ∀ entry, phase.loaded? = some entry →
    entry.id < outside.nextId ∧ ∀ row ∈ table, row.id = entry.id → row.userId = entry.userId
  inserts : ∀ row, .insert row ∈ pending →
    row.id < outside.nextId ∧ ∀ other ∈ table, other.id ≠ row.id ∧ other.userId ≠ row.userId
  started : ∀ row sent, phase = .flush (.created row) sent → 0 < sent

structure Consistent (table : Table) (outside : Outside) : Prop where
  ids : ∀ row ∈ table, row.id < outside.nextId
  uniqueIds : (table.map (·.id)).Nodup
  unique : (table.map (·.userId)).Nodup

def tableAssertion : Assertion Table Outside Phase Write where
  common := Consistent
  own := Sound
  pair _ pending other _ := ∀ entry, other.loaded? = some entry → ∀ row, .insert row ∈ pending →
    row.id ≠ entry.id

inductive Changes (table : Table) : Change → Table → Prop
  | created {row} : Changes table (.created row) (table ++ [row])
  | updated {entry fields} (set : CareerKnowledgeBase → CareerKnowledgeBase)
      (keeps : ∀ row, (set row).id = row.id ∧ (set row).userId = row.userId)
      (other : ∀ row, row.id ≠ entry.id → set row = row) :
    Changes table (.updated entry fields) (table.map set)
  | deleted {entry} : Changes table (.deleted entry) (table.filter (·.id ≠ entry.id))

theorem replay_changes (table : Table) (change : Change) :
    Changes table change (change.writes.foldl applyWrite table) := by
  cases change with
  | created row => exact .created
  | deleted entry => exact .deleted
  | updated entry fields =>
    rw [Change.writes]
    split
    · have same : List.foldl applyWrite table [] = table.map id := (List.map_id table).symm
      rw [same]
      exact .updated id (fun _ => ⟨rfl, rfl⟩) (fun _ _ => rfl)
    · refine .updated (fun row => if row.id = entry.id then row.set (fields.changes entry) else row) ?_ ?_
      · intro row
        split <;> exact ⟨rfl, rfl⟩
      · intro row apart
        exact if_neg apart

section Sessions

variable {table table' : Table} {outside outside' : Outside} {phase phase' : Phase}
  {pending pending' : List Write}
  {input : Input} {effect : Effect Outside Phase Write} {change : Change}

theorem after_pending (change : Change) : change.after.pending = [] := by
  cases change <;> rfl

theorem next_pending (step : Next table outside phase input effect) : Follows phase effect := by
  cases step with
  | sent more =>
    simp only [Follows, Phase.pending]
    rw [List.take_add_one, more]
    rfl
  | committed all => exact after_pending _
  | lost idle ids => exact idle.symm
  | _ => rfl

theorem next_ids (step : Next table outside phase input effect) :
    match effect with
    | .read _ outside' => outside'.nextId = outside.nextId
    | .write _ _ outside' => outside.nextId ≤ outside'.nextId
    | .commit _ outside' => outside' = outside
    | .fail _ => True := by
  cases step with
  | lost idle ids => exact ids
  | inserted => exact Nat.le_succ _
  | sent more => exact Nat.le_refl _
  | refused => trivial
  | vanished missing => trivial
  | _ => rfl

theorem getByUserId_some {userId : Nat} {entry : CareerKnowledgeBase}
    (found : getByUserId table userId = some entry) :
    entry ∈ table ∧ entry.userId = userId :=
  ⟨List.mem_of_find?_eq_some found, by simpa using List.find?_some found⟩

theorem next_entry {entry : CareerKnowledgeBase} (step : Next table outside phase input effect)
    (holds : effect.phase.loaded? = some entry) :
    phase.loaded? = some entry ∨ (phase.pending = [] ∧ entry ∈ table) ∨
      ∃ phase' outside', effect = .write (.insert entry) phase' outside' ∧ entry.id = outside.nextId ∧
        outside'.nextId = outside.nextId + 1 := by
  cases step with
  | structuring found =>
    cases holds
    exact .inr (.inl ⟨rfl, (getByUserId_some found).1⟩)
  | updating found =>
    cases holds
    exact .inr (.inl ⟨rfl, (getByUserId_some found).1⟩)
  | deleting found =>
    cases holds
    exact .inr (.inl ⟨rfl, (getByUserId_some found).1⟩)
  | inserted =>
    cases holds
    exact .inr (.inr ⟨_, _, rfl, rfl, rfl⟩)
  | structured => exact .inl holds
  | sent more =>
    rename_i change sent w
    cases change <;> exact .inl holds
  | committed all =>
    rename_i change sent
    cases change with
    | deleted entry => cases holds
    | _ => exact .inl holds
  | _ => cases holds

theorem next_started (step : Next table outside phase input effect)
    (started : ∀ row sent, phase = .flush (.created row) sent → 0 < sent) :
    ∀ row sent, effect.phase = .flush (.created row) sent → 0 < sent := by
  intro row sent same
  cases step with
  | sent more =>
    cases same
    exact Nat.succ_pos _
  | inserted =>
    cases same
    exact Nat.one_pos
  | committed all =>
    rename_i change sent
    cases change <;> cases same
  | _ => cases same

theorem next_insert {row : CareerKnowledgeBase} {phase' : Phase} {outside' : Outside}
    (started : ∀ row sent, phase = .flush (.created row) sent → 0 < sent)
    (step : Next table outside phase input (.write (.insert row) phase' outside')) :
    row.id = outside.nextId ∧ outside'.nextId = outside.nextId + 1 := by
  cases step with
  | inserted => exact ⟨rfl, rfl⟩
  | sent more =>
    rename_i change sent
    exfalso
    cases change with
    | created other =>
      have first := started other sent rfl
      rw [Change.writes, List.getElem?_eq_none (Nat.succ_le_of_lt first)] at more
      cases more
    | updated entry fields =>
      have member := List.mem_of_getElem? more
      rw [Change.writes] at member
      split at member
      · cases member
      · cases List.mem_singleton.mp member
    | deleted entry =>
      have member := List.mem_of_getElem? more
      cases List.mem_singleton.mp member

theorem commit_change {phase' : Phase} {base : Table} (sound : Sound table outside phase pending)
    (step : Next base outside phase input (.commit phase' outside')) :
    ∃ change sent, phase = .flush change sent ∧ pending = change.writes ∧ phase' = change.after ∧
      outside' = outside := by
  cases step with
  | committed all =>
    rename_i change sent
    refine ⟨change, sent, rfl, ?_, rfl, rfl⟩
    rw [sound.shape, Phase.pending]
    exact List.take_of_length_le (List.getElem?_eq_none_iff.mp all)

theorem Sound.grows (sound : Sound table outside phase pending) (grows : outside.nextId ≤ outside'.nextId) :
    Sound table outside' phase pending :=
  { sound with
    entry := fun entry holds =>
      ⟨Nat.lt_of_lt_of_le (sound.entry entry holds).1 grows, (sound.entry entry holds).2⟩
    inserts := fun row member =>
      ⟨Nat.lt_of_lt_of_le (sound.inserts row member).1 grows, (sound.inserts row member).2⟩ }

theorem Changes.row (changes : Changes table change table') {row : CareerKnowledgeBase}
    (member : row ∈ table') :
    (∃ old ∈ table, old.id = row.id ∧ old.userId = row.userId) ∨ change = .created row := by
  cases changes with
  | created =>
    rcases List.mem_append.mp member with old | new
    · exact .inl ⟨row, old, rfl, rfl⟩
    · rw [List.mem_singleton.mp new]
      exact .inr rfl
  | updated set keeps other =>
    obtain ⟨old, inside, rfl⟩ := List.mem_map.mp member
    exact .inl ⟨old, inside, (keeps old).1.symm, (keeps old).2.symm⟩
  | deleted => exact .inl ⟨row, (List.mem_filter.mp member).1, rfl, rfl⟩

theorem created_pending {row : CareerKnowledgeBase} : Write.insert row ∈ (Change.created row).writes :=
  List.mem_singleton.mpr rfl

theorem changes_nodup {key : CareerKnowledgeBase → Nat} (changes : Changes table change table')
    (keeps : ∀ set : CareerKnowledgeBase → CareerKnowledgeBase,
      (∀ row, (set row).id = row.id ∧ (set row).userId = row.userId) → ∀ row, key (set row) = key row)
    (unused : ∀ row, change = .created row → ∀ other ∈ table, key other ≠ key row)
    (unique : (table.map key).Nodup) :
    (table'.map key).Nodup := by
  cases changes with
  | created =>
    rename_i row
    rw [List.map_append, List.nodup_append]
    refine ⟨unique, List.nodup_singleton _, ?_⟩
    rintro value member other single rfl
    obtain ⟨old, inside, same⟩ := List.mem_map.mp member
    exact unused row rfl old inside (same.trans (List.mem_singleton.mp single))
  | updated set fixed other =>
    rw [List.map_map]
    have same : table.map (key ∘ set) = table.map key := List.map_congr_left fun row _ => keeps set fixed row
    rw [same]
    exact unique
  | deleted => exact (List.filter_sublist.map _).nodup unique

theorem Consistent.changes (consistent : Consistent table outside) (changes : Changes table change table')
    (inserts : ∀ row, .insert row ∈ change.writes →
      row.id < outside.nextId ∧ ∀ other ∈ table, other.id ≠ row.id ∧ other.userId ≠ row.userId) :
    Consistent table' outside := by
  refine ⟨?_, ?_, ?_⟩
  · intro row member
    rcases changes.row member with ⟨old, inside, same, _⟩ | rfl
    · exact same ▸ consistent.ids old inside
    · exact (inserts row created_pending).1
  · refine changes_nodup changes (fun set fixed row => (fixed row).1) ?_ consistent.uniqueIds
    rintro row rfl other inside
    exact ((inserts row created_pending).2 other inside).1
  · refine changes_nodup changes (fun set fixed row => (fixed row).2) ?_ consistent.unique
    rintro row rfl other inside
    exact ((inserts row created_pending).2 other inside).2

/-- What a session knows of its ids stays true when a change is committed that does not cross it. -/
theorem Sound.changes (sound : Sound table outside phase pending) (changes : Changes table change table')
    (apart : ∀ entry, phase.loaded? = some entry → ∀ row, change = .created row → row.id ≠ entry.id)
    (free : ∀ row, .insert row ∈ pending → ∀ new, change = .created new → new.id ≠ row.id ∧
      new.userId ≠ row.userId) :
    Sound table' outside phase pending := by
  refine ⟨sound.shape, ?_, ?_, sound.started⟩
  · intro entry holds
    refine ⟨(sound.entry entry holds).1, ?_⟩
    intro row member same
    rcases changes.row member with ⟨old, inside, id, user⟩ | created
    · rw [← user]
      exact (sound.entry entry holds).2 old inside (id.trans same)
    · exact absurd same (apart entry holds row created)
  · intro row member
    refine ⟨(sound.inserts row member).1, ?_⟩
    intro other inside
    rcases changes.row inside with ⟨old, before, id, user⟩ | created
    · rw [← id, ← user]
      exact (sound.inserts row member).2 old before
    · exact free row member other created

theorem dropped_sound (sound : Sound table outside phase pending) :
    Sound table outside (failedPhase phase) [] := by
  have nothing : (failedPhase phase).loaded? = none ∧ (failedPhase phase).pending = [] ∧
      ∀ row sent, failedPhase phase ≠ .flush (.created row) sent := by
    cases phase <;> exact ⟨rfl, rfl, fun _ _ same => nomatch same⟩
  refine ⟨nothing.2.1.symm, ?_, fun _ member => (nomatch member), fun row sent same =>
    absurd same (nothing.2.2 row sent)⟩
  intro entry holds
  exact absurd (nothing.1.symm.trans holds) (fun same => nomatch same)

theorem entry_known (consistent : Consistent table outside) (sound : Sound table outside phase pending)
    (step : Next (pending.foldl applyWrite table) outside phase input effect) {bound : Nat}
    (grows : outside.nextId ≤ bound)
    (handed : ∀ row phase' outside', effect = .write (.insert row) phase' outside' →
      outside'.nextId ≤ bound) :
    ∀ entry, effect.phase.loaded? = some entry →
      entry.id < bound ∧ ∀ row ∈ table, row.id = entry.id → row.userId = entry.userId := by
  intro entry holds
  rcases next_entry step holds with kept | ⟨empty, member⟩ | ⟨phase', outside', same, id, next⟩
  · exact ⟨Nat.lt_of_lt_of_le (sound.entry entry kept).1 grows, (sound.entry entry kept).2⟩
  · rw [sound.shape, empty] at member
    refine ⟨Nat.lt_of_lt_of_le (consistent.ids entry member) grows, ?_⟩
    intro row inside same
    rw [List.inj_on_of_nodup_map consistent.uniqueIds inside member same]
  · have room := handed entry phase' outside' same
    refine ⟨by omega, ?_⟩
    intro row inside same
    have below := consistent.ids row inside
    omega

theorem insert_admitted {row : CareerKnowledgeBase} (sound : Sound table outside phase pending)
    {phase' : Phase} (step : Next (pending.foldl applyWrite table) outside phase input
      (.write (.insert row) phase' outside'))
    (admitted : admitsWrite (pending.foldl applyWrite table) (.insert row) = true) :
    row.id < outside'.nextId ∧ ∀ other ∈ table, other.id ≠ row.id ∧ other.userId ≠ row.userId := by
  obtain ⟨id, next⟩ := next_insert sound.started step
  refine ⟨by omega, ?_⟩
  intro other inside
  have empty : phase.pending = [] := by
    generalize reached : Effect.write (Write.insert row) phase' outside' = effect at step
    cases step with
    | inserted => rfl
    | sent more =>
      cases reached
      exact absurd next (by omega)
    | _ => cases reached
  rw [sound.shape, empty, List.foldl_nil] at admitted
  have each := List.all_eq_true.mp admitted other inside
  simpa using each

theorem table_own {label : Option Input} (consistent : Consistent table outside)
    (sound : Sound table outside phase pending)
    (moves : knowledgeSystem.Moves table outside phase pending label table' outside' phase' pending') :
    Consistent table' outside' ∧ Sound table' outside' phase' pending' := by
  cases moves with
  | read next =>
    have step := next_cases next
    have ids : outside'.nextId = outside.nextId := next_ids step
    have shape : phase'.pending = phase.pending := next_pending step
    have known := entry_known consistent sound step (Nat.le_of_eq ids.symm) (fun _ _ _ same => nomatch same)
    refine ⟨⟨fun row member => ids ▸ consistent.ids row member, consistent.uniqueIds, consistent.unique⟩,
      sound.shape.trans shape.symm, known, ?_, next_started step sound.started⟩
    intro row member
    exact ids ▸ sound.inserts row member
  | write next admitted =>
    have step := next_cases next
    have grows : outside.nextId ≤ outside'.nextId := next_ids step
    have shape : phase'.pending = phase.pending ++ [_] := next_pending step
    have known := entry_known consistent sound step grows fun _ _ _ same => by
      cases same
      exact Nat.le_refl _
    refine ⟨⟨fun row member => Nat.lt_of_lt_of_le (consistent.ids row member) grows, consistent.uniqueIds,
      consistent.unique⟩, by rw [shape, sound.shape], known, ?_, next_started step sound.started⟩
    intro row member
    rcases List.mem_append.mp member with old | new
    · exact ⟨Nat.lt_of_lt_of_le (sound.inserts row old).1 grows, (sound.inserts row old).2⟩
    · have made := List.mem_singleton.mp new
      subst made
      exact insert_admitted sound step admitted
  | refused next refused => exact ⟨consistent, dropped_sound sound⟩
  | abort => exact ⟨consistent, dropped_sound sound⟩
  | fail next =>
    have step := next_cases next
    have shape : phase'.pending = [] := next_pending step
    exact ⟨consistent, shape.symm, entry_known consistent sound step (Nat.le_refl _) (fun _ _ _ same =>
      nomatch same), fun _ member => (nomatch member), next_started step sound.started⟩
  | commit next =>
    have step := next_cases next
    obtain ⟨change, sent, rfl, rfl, rfl, rfl⟩ := commit_change sound step
    have changes := replay_changes table change
    have later := consistent.changes changes sound.inserts
    refine ⟨later, (after_pending change).symm, ?_, fun _ member => (nomatch member),
      next_started step sound.started⟩
    intro entry holds
    have before : (Phase.flush change sent).loaded? = some entry := by
      cases change with
      | deleted entry => cases holds
      | _ => exact holds
    refine ⟨(sound.entry entry before).1, ?_⟩
    intro row member same
    rcases changes.row member with ⟨old, inside, id, user⟩ | rfl
    · rw [← user]
      exact (sound.entry entry before).2 old inside (id.trans same)
    · cases before
      rfl

theorem inserts_apart {row new : CareerKnowledgeBase} (free : conflicts (.insert new) (.insert row) = false) :
    new.id ≠ row.id ∧ new.userId ≠ row.userId := by
  simp only [conflicts, locks, Bool.or_eq_false_iff, decide_eq_false_iff_not] at free
  exact free.1

theorem dropped_entry {entry : CareerKnowledgeBase} (holds : (failedPhase phase).loaded? = some entry) :
    False := by
  cases phase <;> cases holds

theorem table_other {label : Option Input} {other : Phase} {otherPending : List Write}
    (consistent : Consistent table outside) (sound : Sound table outside phase pending)
    (beside : Sound table outside other otherPending)
    (mine : tableAssertion.pair phase pending other otherPending)
    (theirs : tableAssertion.pair other otherPending phase pending)
    (free : knowledgeSystem.Compatible pending otherPending)
    (moves : knowledgeSystem.Moves table outside phase pending label table' outside' phase' pending') :
    Sound table' outside' other otherPending ∧ tableAssertion.pair phase' pending' other otherPending ∧
      tableAssertion.pair other otherPending phase' pending' := by
  have reads : ∀ {input effect}, Next (pending.foldl applyWrite table) outside phase input effect →
      tableAssertion.pair other otherPending effect.phase pending' := by
    intro input effect step entry holds row member
    rcases next_entry step holds with kept | ⟨empty, inside⟩ | ⟨_, _, _, id, _⟩
    · exact theirs entry kept row member
    · rw [sound.shape, empty] at inside
      exact Ne.symm ((beside.inserts row member).2 entry inside).1
    · have below := (beside.inserts row member).1
      omega
  have nothing : tableAssertion.pair phase' [] other otherPending := fun _ _ _ member => nomatch member
  cases moves with
  | read next =>
    have step := next_cases next
    have ids : outside'.nextId = outside.nextId := next_ids step
    exact ⟨beside.grows (Nat.le_of_eq ids.symm), mine, reads step⟩
  | write next admitted =>
    have step := next_cases next
    have grows : outside.nextId ≤ outside'.nextId := next_ids step
    refine ⟨beside.grows grows, ?_, reads step⟩
    intro entry holds row member
    rcases List.mem_append.mp member with old | new
    · exact mine entry holds row old
    · have made := List.mem_singleton.mp new
      subst made
      have fresh := (next_insert sound.started step).1
      have below := (beside.entry entry holds).1
      omega
  | refused next refused => exact ⟨beside, nothing, fun entry holds => (dropped_entry holds).elim⟩
  | abort => exact ⟨beside, nothing, fun entry holds => (dropped_entry holds).elim⟩
  | fail next => exact ⟨beside, nothing, reads (next_cases next)⟩
  | commit next =>
    have step := next_cases next
    obtain ⟨change, sent, rfl, rfl, rfl, rfl⟩ := commit_change sound step
    refine ⟨beside.changes (replay_changes table change) ?_ ?_, nothing, reads step⟩
    · rintro entry holds row rfl
      exact mine entry holds row created_pending
    · rintro row member new rfl
      exact inserts_apart (free _ created_pending _ member)

end Sessions

theorem table_stable : Stable knowledgeSystem Guard.free Assertion.trivial tableAssertion where
  start _ consistent started := by
    cases started
    exact ⟨consistent, rfl, fun _ holds => (nomatch holds), fun _ member => (nomatch member), fun _ _ same =>
      (nomatch same)⟩
  startOther _ _ sound started := by
    cases started
    exact ⟨sound, fun _ _ _ member => (nomatch member), fun _ holds => (nomatch holds)⟩
  own _ _ consistent sound _ moves := table_own consistent sound moves
  other _ _ _ _ _ consistent sound beside mine theirs _ free moves :=
    table_other consistent sound beside mine theirs free moves

theorem table_holds {s : State Table Outside Phase Write}
    (reached : Runs knowledgeSystem Guard.free initialState s) :
    tableAssertion.Holds s := by
  apply And.right
  apply holds_idle_runs (fun _ _ => Bool.or_comm _ _) table_stable (fun t _ => Assertion.trivial_holds t)
    rfl _ reached
  exact ⟨fun _ member => (nomatch member), List.nodup_nil, List.nodup_nil⟩

end ManifestCV.Knowledge
