import ManifestCV.Workspace.Catalogue

namespace ManifestCV.Workspace

open Foundation Foundation.Transactions Document Render

def ResumeRenderArtifact.Filed (row : ResumeRenderArtifact) (db : Database) (workspaceId : Nat) : Prop :=
  ∃ revision ∈ db.revisions, ∃ workspace, db.workspace? workspaceId = some workspace ∧
    revision.workspaceId = workspaceId ∧
    revision.id = row.revisionId ∧ row.storageKey = Workspace.storageKey workspace revision

def Write.artifact? : Write → Option ResumeRenderArtifact
  | .insertArtifact _ row => some row
  | _ => none

structure Shelved (db : Database) (outside : Outside) : Prop where
  filed : ∀ row ∈ db.artifacts, ∃ workspaceId, row.Filed db workspaceId
  unique : (db.artifacts.map (·.storageKey)).Nodup
  numbered : ∀ row ∈ db.artifacts, row.id < outside.nextArtifactId

structure Shelving (db : Database) (outside : Outside) (phase : Phase) (pending : List Write) : Prop where
  rows : ∀ workspaceId row, .insertArtifact workspaceId row ∈ pending → row.Filed db workspaceId ∧
    row.id < outside.nextArtifactId ∧ ∀ other ∈ db.artifacts, other.storageKey ≠ row.storageKey
  keyed : ∀ held source reader key pdf, phase = .insertArtifact held source reader key pdf →
    key = storageKey held source

def shelfAssertion : Assertion Database Outside Phase Write where
  common := Shelved
  own := Shelving
  pair _ _ _ _ := True

section Replay

variable {db : Database} {outside : Outside} {writes : List Write}

theorem filed_key {first second : ResumeRenderArtifact} {workspaceId otherId : Nat}
    (consistent : Consistent db outside) (one : first.Filed db workspaceId) (two : second.Filed db otherId)
    (same : first.revisionId = second.revisionId) :
    first.storageKey = second.storageKey := by
  obtain ⟨revision, member, workspace, found, home, named, key⟩ := one
  obtain ⟨other, inside, owner, present, place, called, filed⟩ := two
  obtain rfl : revision = other :=
    List.inj_on_of_nodup_map consistent.uniqueRevisions member inside (named.trans (same.trans called.symm))
  obtain rfl : workspaceId = otherId := home.symm.trans place
  obtain rfl : workspace = owner := Option.some.inj (found.symm.trans present)
  rw [key, filed]

theorem replay_inserts (keeps : ∀ id, .deleteWorkspace id ∉ writes) :
    (replay db writes).artifacts = db.artifacts ++ writes.filterMap Write.artifact? := by
  induction writes generalizing db with
  | nil => exact (List.append_nil _).symm
  | cons w writes ih =>
    refine (ih fun id inside => keeps id (List.mem_cons_of_mem _ inside)).trans ?_
    cases w with
    | insertArtifact workspaceId row => exact List.append_assoc _ [row] _
    | deleteWorkspace id => exact absurd List.mem_cons_self (keeps id)
    | _ => rfl

theorem replay_owner (keeps : ∀ id, .deleteWorkspace id ∉ writes) {id : Nat} {row : ResumeWorkspace}
    (found : db.workspace? id = some row) :
    ∃ after, (replay db writes).workspace? id = some after ∧ after.id = row.id ∧
      after.userId = row.userId := by
  induction writes generalizing db row with
  | nil => exact ⟨row, found, rfl, rfl⟩
  | cons w writes ih =>
    have later : ∀ id, .deleteWorkspace id ∉ writes := fun id inside =>
      keeps id (List.mem_cons_of_mem _ inside)
    have set : ∀ (target : Nat) (change : ResumeWorkspace → ResumeWorkspace),
        (∀ row, (change row).id = row.id ∧ (change row).userId = row.userId) →
        ∃ next, (db.setWorkspace target change).workspace? id = some next ∧ next.id = row.id ∧
            next.userId = row.userId := by
      intro target change same
      rw [workspace?_set rfl fun row => (same row).1, found]
      refine ⟨_, rfl, ?_⟩
      dsimp only
      split
      · exact same row
      · exact ⟨rfl, rfl⟩
    have first : ∃ next, (applyWrite db w).workspace? id = some next ∧ next.id = row.id ∧
        next.userId = row.userId := by
      cases w with
      | insertWorkspace new =>
        refine ⟨row, ?_, rfl, rfl⟩
        change (db.workspaces ++ [new]).find? _ = some row
        rw [List.find?_append, show db.workspaces.find? (·.id = id) = some row from found]
        rfl
      | setCurrentRevision workspaceId revisionId => exact set workspaceId _ fun _ => ⟨rfl, rfl⟩
      | setStatus workspaceId status => exact set workspaceId _ fun _ => ⟨rfl, rfl⟩
      | deleteWorkspace id => exact absurd List.mem_cons_self (keeps id)
      | _ => exact ⟨row, found, rfl, rfl⟩
    obtain ⟨next, present, sameId, sameOwner⟩ := first
    obtain ⟨after, last, lastId, lastOwner⟩ := ih later present
    exact ⟨after, last, lastId.trans sameId, lastOwner.trans sameOwner⟩

theorem owner_key {workspace after : ResumeWorkspace} {revision : ResumeRevision}
    (sameId : after.id = workspace.id) (sameOwner : after.userId = workspace.userId) :
    storageKey after revision = storageKey workspace revision := by
  change keyOf after.userId after.id revision.id = keyOf workspace.userId workspace.id revision.id
  rw [sameId, sameOwner]

theorem ResumeRenderArtifact.Filed.replay {row : ResumeRenderArtifact} {workspaceId : Nat}
    (filed : row.Filed db workspaceId) (keeps : ∀ id, .deleteWorkspace id ∉ writes) :
    row.Filed (Workspace.replay db writes) workspaceId := by
  obtain ⟨revision, member, workspace, found, home, named, key⟩ := filed
  obtain ⟨after, present, sameId, sameOwner⟩ := replay_owner keeps found
  exact ⟨revision, (replay_keeps keeps).2.1 revision member, after, present, home, named,
    key.trans (owner_key sameId sameOwner).symm⟩

theorem ResumeRenderArtifact.Filed.delete {row : ResumeRenderArtifact} {workspaceId target : Nat}
    (filed : row.Filed db workspaceId) (apart : workspaceId ≠ target) :
    row.Filed (Workspace.replay db [.deleteWorkspace target]) workspaceId := by
  obtain ⟨revision, member, workspace, found, home, named, key⟩ := filed
  refine ⟨revision, List.mem_filter.mpr ⟨member, decide_eq_true (home ▸ apart)⟩, workspace,
    ?_, home, named, key⟩
  rw [deleted_present, if_neg apart, found]

theorem Batch.inserts_once (batch : Batch) : (batch.writes.filterMap Write.artifact?).length ≤ 1 := by
  have drawn : ∀ (held : ResumeWorkspace) (rendering : Rendering),
      ((rendering.writes held).filterMap Write.artifact?).length ≤ 1 := by
    intro held rendering
    rw [Rendering.writes]
    split
    · exact Nat.le_refl _
    · exact Nat.zero_le _
  cases batch with
  | revision writer revisionId text => cases writer <;> exact Nat.zero_le _
  | approve held =>
    rw [Batch.writes]
    split <;> exact Nat.zero_le _
  | startJob function job =>
    rw [Batch.writes]
    split <;> exact Nat.zero_le _
  | tracked row fields =>
    rw [Batch.writes]
    split <;> exact Nat.zero_le _
  | exported held source rendering => exact drawn held rendering
  | rendered job held source rendering =>
    rw [Batch.writes, List.filterMap_append, List.length_append]
    exact drawn held rendering
  | applied held source fields rendering applicationId =>
    rw [Batch.writes, List.filterMap_append, List.length_append]
    exact drawn held rendering
  | _ => exact Nat.zero_le _

theorem replay_inserted_by {row : ResumeRenderArtifact} :
    row ∈ writes.filterMap Write.artifact? ↔ ∃ workspaceId, .insertArtifact workspaceId row ∈ writes := by
  rw [List.mem_filterMap]
  refine ⟨?_, fun ⟨workspaceId, member⟩ => ⟨_, member, rfl⟩⟩
  rintro ⟨w, member, same⟩
  cases w with
  | insertArtifact workspaceId other =>
    cases same
    exact ⟨workspaceId, member⟩
  | _ => cases same

end Replay

section Steps

variable {rt : Runtime} {db db' : Database} {outside outside' : Outside} {phase phase' other : Phase}
  {input : Input}
  {pending pending' otherPending : List Write} {effect : Effect Outside Phase Write} {batch : Batch}

theorem next_artifactId (step : Next rt db outside phase input effect) :
    outside.nextArtifactId ≤ (effect.outside outside).nextArtifactId := by
  cases step with
  | catalogued => exact Nat.le_succ _
  | _ => exact Nat.le_refl _

theorem Shelved.grows (shelved : Shelved db outside)
    (grows : outside.nextArtifactId ≤ outside'.nextArtifactId) : Shelved db outside' :=
  { shelved with numbered := fun row member => Nat.lt_of_lt_of_le (shelved.numbered row member) grows }

theorem Shelving.grows (shelving : Shelving db outside phase pending)
    (grows : outside.nextArtifactId ≤ outside'.nextArtifactId) :
    Shelving db outside' phase pending := by
  refine { shelving with rows := fun workspaceId row member => ?_ }
  obtain ⟨filed, below, apart⟩ := shelving.rows workspaceId row member
  exact ⟨filed, Nat.lt_of_lt_of_le below grows, apart⟩

theorem Shelving.finished (outcome : Outcome) : Shelving db outside (.finished outcome) [] :=
  ⟨fun _ _ member => (nomatch member), fun _ _ _ _ _ same => (nomatch same)⟩

theorem Shelving.dropped : Shelving db outside (failedPhase phase) [] := by
  cases phase <;> exact .finished _

theorem Shelving.committed (batch : Batch) : Shelving db outside batch.after [] := by
  cases batch with
  | startJob function job => exact ⟨fun _ _ member => (nomatch member), fun _ _ _ _ _ same => (nomatch same)⟩
  | queueJob row => exact ⟨fun _ _ member => (nomatch member), fun _ _ _ _ _ same => (nomatch same)⟩
  | _ => exact .finished _

theorem next_filing (step : Next rt db outside phase input effect) {held : ResumeWorkspace}
    {source : ResumeRevision} {reader : Reader} {key : Str} {pdf : List UInt8}
    (same : effect.phase = .insertArtifact held source reader key pdf) : key = storageKey held source := by
  cases step with
  | put =>
    cases same
    rfl
  | verified => exact nomatch (afterRendering_key _ _ _ _).symm.trans (congrArg Phase.key? same)
  | catalogued => exact nomatch (afterRendering_key _ _ _ _).symm.trans (congrArg Phase.key? same)
  | committed =>
    rename_i batch sent all
    cases batch <;> cases same
  | _ => cases same

theorem catalogued_files {held : ResumeWorkspace} {source : ResumeRevision} {reader : Reader}
    {pdf : List UInt8} {row : ResumeRenderArtifact}
    (known : (knownAssertion rt).own db outside
      (.insertArtifact held source reader (storageKey held source) pdf) pending)
    (rooted : (Write.insertArtifact held.id row).Rooted db outside) (named : row.revisionId = source.id)
    (key : row.storageKey = storageKey held source) : row.Filed db held.id := by
  obtain ⟨_, sound, ok⟩ := known
  obtain ⟨_, present, revision, listed, same, home⟩ := rooted
  obtain ⟨workspace, found⟩ := Option.ne_none_iff_exists'.mp present
  obtain ⟨member, id⟩ := workspace?_some found
  have mine : (resumeFacts rt).seen db outside
    (.insertArtifact held source reader (storageKey held source) pdf) pending
      (.owner held.id held.userId) := .inl (.inl (Phase.mem_facts.mpr (.inl ⟨held, rfl, List.mem_cons_self⟩)))
  have theirs : (resumeFacts rt).seen db outside
    (.insertArtifact held source reader (storageKey held source) pdf) pending
      (.owner workspace.id workspace.userId) :=
        .inr (.inl (Database.mem_facts.mpr (.inl ⟨workspace, member, List.mem_cons_self⟩)))
  have owner : workspace.userId = held.userId := (sound.agreed _ _ theirs mine).1 id
  refine ⟨revision, listed, workspace, found, home, same, ?_⟩
  have agree : storageKey held revision = storageKey held source := by
    change keyOf held.userId held.id revision.id = keyOf held.userId held.id source.id
    rw [same, named]
  rw [key, ← agree]
  exact (owner_key id owner).symm

theorem Shelved.delete {target : Nat} (shelved : Shelved db outside) :
    Shelved (replay db [.deleteWorkspace target]) outside := by
  refine ⟨?_, (List.filter_sublist.map _).nodup shelved.unique, fun row member =>
    shelved.numbered row (List.mem_filter.mp member).1⟩
  intro row member
  obtain ⟨inside, spared⟩ := List.mem_filter.mp member
  obtain ⟨workspaceId, filed⟩ := shelved.filed row inside
  refine ⟨workspaceId, filed.delete ?_⟩
  obtain ⟨revision, listed, _, _, home, named, _⟩ := filed
  exact home ▸ gone_elsewhere spared revision listed named

theorem Shelved.replay (shelved : Shelved db outside) {sent : Nat}
    (shelving : Shelving db outside (.flush batch sent) batch.writes)
    (keeps : ∀ id, .deleteWorkspace id ∉ batch.writes) : Shelved (replay db batch.writes) outside := by
  refine ⟨?_, ?_, ?_⟩
  · intro row member
    rw [replay_inserts keeps] at member
    rcases List.mem_append.mp member with old | new
    · obtain ⟨workspaceId, filed⟩ := shelved.filed row old
      exact ⟨workspaceId, filed.replay keeps⟩
    · obtain ⟨workspaceId, inside⟩ := replay_inserted_by.mp new
      exact ⟨workspaceId, (shelving.rows workspaceId row inside).1.replay keeps⟩
  · rw [replay_inserts keeps, List.map_append, List.nodup_append]
    refine ⟨shelved.unique, ?_, ?_⟩
    · have once := batch.inserts_once
      cases rows : batch.writes.filterMap Write.artifact? with
      | nil => exact List.nodup_nil
      | cons row rest =>
        rw [rows, List.length_cons] at once
        rw [List.eq_nil_of_length_eq_zero (by omega : rest.length = 0)]
        exact List.nodup_singleton _
    · intro key old key' new same
      obtain ⟨other, listed, rfl⟩ := List.mem_map.mp old
      obtain ⟨row, inserted, rfl⟩ := List.mem_map.mp new
      obtain ⟨workspaceId, inside⟩ := replay_inserted_by.mp inserted
      exact (shelving.rows workspaceId row inside).2.2 other listed same
  · intro row member
    rw [replay_inserts keeps] at member
    rcases List.mem_append.mp member with old | new
    · exact shelved.numbered row old
    · obtain ⟨workspaceId, inside⟩ := replay_inserted_by.mp new
      exact (shelving.rows workspaceId row inside).2.1

theorem shelf_own {label : Option Input} (known : (knownAssertion rt).own db outside phase pending)
    (consistent : Consistent db outside) (catalogued : Catalogued db outside)
    (kept : Kept db outside phase pending) (shelved : Shelved db outside)
    (shelving : Shelving db outside phase pending)
    (moves : (resumeSystem rt).Moves db outside phase pending label db' outside' phase' pending') :
    Shelved db' outside' ∧ Shelving db' outside' phase' pending' := by
  cases moves with
  | read next =>
    have step := next_cases next
    have grows := next_artifactId step
    exact ⟨shelved.grows grows, (shelving.grows grows).rows, fun _ _ _ _ _ same => next_filing step same⟩
  | write next admitted =>
    have step := next_cases next
    have grows := next_artifactId step
    refine ⟨shelved.grows grows, ?_, fun _ _ _ _ _ same => next_filing step same⟩
    intro workspaceId row member
    rcases List.mem_append.mp member with old | new
    · exact (shelving.grows grows).rows workspaceId row old
    · obtain rfl := List.mem_singleton.mp new
      have rooted := rooted_write known.1 known.2.1 known.2.2 consistent catalogued kept step admitted
      rw [show System.view (resumeSystem rt) db pending = replay db pending from rfl] at admitted step
      cases step with
      | catalogued =>
        rename_i held source reader key pdf
        obtain rfl := shelving.keyed held source reader key pdf rfl
        rw [clean_view known.1 rfl] at admitted
        simp only [resumeSystem, admitsWrite, Bool.and_eq_true, List.all_eq_true,
          decide_eq_true_eq] at admitted
        exact ⟨catalogued_files known rooted rfl rfl, Nat.lt_succ_self _, fun other listed =>
          (admitted.1 other listed).2⟩
      | sent more =>
        rename_i batch sent
        have rest := kept.left _ (List.mem_of_getElem? (by rwa [List.getElem?_drop, Nat.add_zero] :
          (batch.writes.drop sent)[0]? = some (.insertArtifact workspaceId row)))
        cases rest
  | refused next refused => exact ⟨shelved, .dropped⟩
  | abort => exact ⟨shelved, .dropped⟩
  | fail next =>
    obtain ⟨outcome, rfl⟩ := finished_fail (next_cases next)
    exact ⟨shelved, .finished outcome⟩
  | commit next =>
    obtain ⟨batch, sent, rfl, _, rfl, rfl, rfl, _⟩ := commit_change known.1 (next_cases next)
    refine ⟨?_, .committed batch⟩
    by_cases deletes : ∃ held, batch = .delete held
    · obtain ⟨held, rfl⟩ := deletes
      exact shelved.delete
    · exact shelved.replay shelving fun id member => deletes (Batch.deletes member)

theorem shelf_other {label : Option Input} (known : (knownAssertion rt).own db outside phase pending)
    (shelving : Shelving db outside other otherPending)
    (free : (resumeSystem rt).Compatible pending otherPending)
    (moves : (resumeSystem rt).Moves db outside phase pending label db' outside' phase' pending') :
    Shelving db' outside' other otherPending := by
  cases moves with
  | read next => exact shelving.grows (next_artifactId (next_cases next))
  | write next admitted => exact shelving.grows (next_artifactId (next_cases next))
  | refused next refused => exact shelving
  | abort => exact shelving
  | fail next => exact shelving
  | commit next =>
    obtain ⟨batch, sent, rfl, _, rfl, rfl, rfl, _⟩ := commit_change known.1 (next_cases next)
    refine { shelving with rows := fun workspaceId row member => ?_ }
    obtain ⟨filed, below, apart⟩ := shelving.rows workspaceId row member
    by_cases deletes : ∃ held, batch = .delete held
    · obtain ⟨held, rfl⟩ := deletes
      have elsewhere : workspaceId ≠ held.id :=
        fun same => delete_apart (free _ (Batch.mem_delete held) _ member) (congrArg some same)
      exact ⟨filed.delete elsewhere, below, fun other listed => apart other (List.mem_filter.mp listed).1⟩
    · have keeps : ∀ id, .deleteWorkspace id ∉ batch.writes := fun id member => deletes (Batch.deletes member)
      refine ⟨filed.replay keeps, below, fun other listed => ?_⟩
      change other ∈ (replay db batch.writes).artifacts at listed
      rw [replay_inserts keeps] at listed
      rcases List.mem_append.mp listed with old | new
      · exact apart other old
      · obtain ⟨otherId, inside⟩ := replay_inserted_by.mp new
        have waits := free _ inside _ member
        simp only [resumeSystem, conflicts, locks, Bool.or_eq_false_iff, decide_eq_false_iff_not] at waits
        exact waits.1.2

end Steps

theorem shelf_stable (rt : Runtime) (g : Guard Database Outside Phase Input) :
    Stable (resumeSystem rt) g ((knownAssertion rt).and catalogueAssertion) shelfAssertion where
  start {db outside request phase outside'} _ shelved started := by
    cases started
    refine ⟨shelved, fun _ _ member => (nomatch member), ?_⟩
    cases request <;> exact fun _ _ _ _ _ same => (nomatch same)
  startOther _ _ shelving started := by
    cases started
    exact ⟨shelving, trivial, trivial⟩
  own common known shelved shelving _ moves :=
    shelf_own known.1 common.1.1 common.2 known.2 shelved shelving moves
  other _ known _ _ _ _ _ shelving _ _ _ free moves :=
    ⟨shelf_other known.1 shelving free moves, trivial, trivial⟩

theorem shelf_holds {rt : Runtime} {s : State Database Outside Phase Write} (reachable : Reachable rt s) :
    shelfAssertion.Holds s := by
  refine (holds_idle_runs conflicts_symm (shelf_stable rt Guard.free) (fun t run =>
    (known_holds run).and (catalogue_holds run)) rfl ?_
    reachable).2
  exact ⟨fun _ member => (nomatch member), List.nodup_nil, fun _ member => (nomatch member)⟩

theorem artifact_unique {rt : Runtime} {s : State Database Outside Phase Write} (reachable : Reachable rt s)
    {first second : ResumeRenderArtifact} (one : first ∈ s.db.artifacts) (two : second ∈ s.db.artifacts)
    (same : first.revisionId = second.revisionId) : first = second := by
  have shelved := (shelf_holds reachable).common
  obtain ⟨workspaceId, filed⟩ := shelved.filed first one
  obtain ⟨otherId, other⟩ := shelved.filed second two
  exact List.inj_on_of_nodup_map shelved.unique one two
    (filed_key (history_holds reachable).2.common filed other same)

end ManifestCV.Workspace
