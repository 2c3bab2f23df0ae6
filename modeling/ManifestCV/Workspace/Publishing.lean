import ManifestCV.Workspace.Artifacts

namespace ManifestCV.Workspace

open Foundation Foundation.Transactions Document Render

def Database.employs (db : Database) (held : ResumeWorkspace) (jobId : Nat) : Bool :=
  (db.job? jobId).any (·.workspaceId = held.id)

def Request.publishes (db : Database) (held : ResumeWorkspace) : Request → Bool
  | .owned userId workspaceId call => userId = held.userId && workspaceId = held.id && call.publishes.isSome
  | .runRenderJob jobId => db.employs held jobId
  | _ => false

/-- The steps of exports, applications and render jobs of a workspace, when no service fails and no connection
    is lost. -/
def publishing (held : ResumeWorkspace) (s : State Database Outside Phase Write) : Action Input Request → Bool
  | .start request => request.publishes s.db held
  | .run _ .answer => true
  | _ => false

def Batch.rendering? : Batch → Option Rendering
  | .exported _ _ rendering | .rendered _ _ _ rendering | .applied _ _ _ rendering _ => some rendering
  | _ => none

def Phase.drawing : Phase → Bool
  | .store _ _ _ _ | .insertArtifact _ _ _ _ _ => true
  | .insertApplication _ _ _ rendering => rendering.inserted
  | .flush batch _ => batch.rendering?.any (·.inserted)
  | _ => false

def crosses (s : State Database Outside Phase Write) : Action Input Request → Bool
  | .run i _ => s.sessions[i]?.any fun session =>
      match session.phase with
      | .artifact _ revision _ =>
        (s.db.artifact? revision.id).isNone && s.sessions.zipIdx.any fun (other, j) =>
          j ≠ i && other.phase.drawing
      | _ => false
  | _ => false

def undisturbed (held : ResumeWorkspace) (s : State Database Outside Phase Write)
    (action : Action Input Request) : Bool :=
  publishing held s action && !crosses s action

structure Batch.Hands (held : ResumeWorkspace) (source : ResumeRevision) (pdf : List UInt8) (batch : Batch) :
    Prop where
  published : batch.published? = some (held, source)
  bytes : batch.rendering?.map (·.pdf) = some pdf

/-- An approved workspace whose revision can be rendered and stored. -/
structure Ready (rt : Runtime) (held : ResumeWorkspace) (source : ResumeRevision) (pdf : List UInt8) :
    Prop where
  approved : held.status = .approved
  current : held.currentRevisionId = some source.id
  drawn : rendered rt source.documentJson = some pdf
  small : pdf.length ≤ maxArtifactBytes

section Course

variable (held : ResumeWorkspace) (source : ResumeRevision) (pdf : List UInt8)

structure Offered (db : Database) (outside : Outside) : Prop where
  workspace : db.workspace? held.id = some held
  owned : db.owned? held.id held.userId = some held
  revision : db.revision? source.id = some source
  filed : ∀ row ∈ db.artifacts, row.revisionId = source.id →
    outside.storage.lookup row.storageKey = some pdf ∧ row.sha256 = sha256 pdf
  elsewhere : ∀ row ∈ db.artifacts, row.storageKey = storageKey held source → row.revisionId = source.id
  once : (db.artifacts.filter (·.revisionId = source.id)).length ≤ 1
  numbered : ∀ row ∈ db.artifacts, row.id < outside.nextArtifactId
  applications : ∀ row ∈ db.applications, row.id < outside.nextApplicationId

structure Rendering.Ok (db : Database) (outside : Outside) (rendering : Rendering) : Prop where
  bytes : rendering.pdf = pdf
  named : rendering.artifact.revisionId = source.id
  found : rendering.inserted = false → rendering.artifact ∈ db.artifacts
  made : rendering.inserted = true → outside.storage.lookup rendering.artifact.storageKey = some pdf ∧
    rendering.artifact.sha256 = sha256 pdf ∧ rendering.artifact.id < outside.nextArtifactId

def Reader.Employed (db : Database) : Reader → Prop
  | .renderJob job => db.employs held job.id = true
  | _ => True

inductive Track (db : Database) (outside : Outside) : Phase → Prop
  | owned {call} (publishes : call.publishes.isSome = true) :
      Track db outside (.owned held.userId held.id call)
  | source {call} (publishes : call.publishes.isSome = true) : Track db outside (.source held call)
  | job {jobId} (employed : db.employs held jobId = true) : Track db outside (.job .render jobId)
  | starting {job sent} (employed : db.employs held job.id = true) (home : job.workspaceId = held.id) :
      Track db outside (.flush (.startJob .render job) sent)
  | jobWorkspace {job} (employed : db.employs held job.id = true) (home : job.workspaceId = held.id) :
      Track db outside (.jobWorkspace .render job)
  | jobRevision {job} (employed : db.employs held job.id = true) :
      Track db outside (.jobRevision .render job held)
  | artifact {reader} (employed : reader.Employed held db) : Track db outside (.artifact held source reader)
  | readStored {reader row} (employed : reader.Employed held db) (listed : row ∈ db.artifacts)
      (named : row.revisionId = source.id) :
      Track db outside (.readStored held source reader row)
  | store {reader} (employed : reader.Employed held db) : Track db outside (.store held source reader pdf)
  | insertArtifact {reader} (employed : reader.Employed held db)
      (kept : outside.storage.lookup (storageKey held source) = some pdf) :
      Track db outside (.insertArtifact held source reader (storageKey held source) pdf)
  | insertApplication {fields rendering} (ok : rendering.Ok source pdf db outside) :
      Track db outside (.insertApplication held source fields rendering)
  | exported {rendering sent} (ok : rendering.Ok source pdf db outside)
      (all : (rendering.writes held).length ≤ sent) :
      Track db outside (.flush (.exported held source rendering) sent)
  | rendered {job rendering sent} (ok : rendering.Ok source pdf db outside)
      (employed : db.employs held job.id = true)
      (all : (rendering.writes held).length ≤ sent) :
    Track db outside (.flush (.rendered job held source rendering) sent)
  | applied {fields rendering applicationId sent} (ok : rendering.Ok source pdf db outside)
      (numbered : applicationId < outside.nextApplicationId)
    (all : (rendering.writes held).length + 1 ≤ sent) :
      Track db outside (.flush (.applied held source fields rendering applicationId) sent)
  | finished {batch} (hands : batch.Hands held source pdf) (listed : ∃ row ∈ db.artifacts,
      row.revisionId = source.id) :
      Track db outside (.finished (.committed batch))

structure Course (db : Database) (outside : Outside) (phase : Phase) (pending : List Write) : Prop where
  shape : pending = phase.pending
  track : Track held source pdf db outside phase
  alone : phase.drawing = true → db.artifact? source.id = none

def courseAssertion : Assertion Database Outside Phase Write where
  common := Offered held source pdf
  own := Course held source pdf
  pair phase _ other _ := ¬ (phase.drawing = true ∧ other.drawing = true)

structure Further (outside outside' : Outside) : Prop where
  artifactIds : outside.nextArtifactId ≤ outside'.nextArtifactId
  applicationIds : outside.nextApplicationId ≤ outside'.nextApplicationId
  stored : ∀ key, outside.storage.lookup key = some pdf → outside'.storage.lookup key = some pdf

end Course

def Phase.rank : Phase → Nat
  | .job _ _ => 12
  | .flush (.startJob function row) sent => 9 + ((Batch.startJob function row).writes.length - sent)
  | .jobWorkspace _ _ | .owned _ _ _ => 8
  | .jobRevision _ _ _ | .source _ _ => 7
  | .artifact _ _ _ => 6
  | .store _ _ _ _ => 5
  | .readStored _ _ _ _ | .insertArtifact _ _ _ _ _ => 4
  | .insertApplication _ _ _ _ => 3
  | .flush batch sent => 1 + (batch.writes.length - sent)
  | _ => 0

section Course

variable (held : ResumeWorkspace) (source : ResumeRevision) (pdf : List UInt8)

def Goes (db : Database) (outside : Outside) (phase : Phase) : Effect Outside Phase Write → Prop
  | .read phase' outside' => Further pdf outside outside' ∧ Track held source pdf db outside' phase' ∧
      (phase'.drawing = true → phase.drawing = true ∨ (∃ reader, phase = .artifact held source reader) ∧
        db.artifact? source.id = none)
  | .write w phase' outside' => Further pdf outside outside' ∧ Track held source pdf db outside' phase' ∧
      phase'.drawing = phase.drawing ∧ admitsWrite (replay db phase.pending) w = true ∧
      ((∃ row, w = .insertArtifact held.id row ∧ phase.drawing = true) ∨
        (∃ row, w = .insertApplication row ∧ row.id = outside.nextApplicationId) ∨ ∃ workspaceId jobId update,
          w = .updateJob workspaceId jobId update)
  | .commit phase' outside' => outside' = outside ∧ ∃ batch sent, phase = .flush batch sent ∧
      batch.writes[sent]? = none ∧ phase' = batch.after
  | .fail _ => False

end Course

section Replay

variable {db : Database} {held : ResumeWorkspace} {rendering : Rendering}

theorem employs_some {jobId : Nat} (employed : db.employs held jobId = true) :
    ∃ job, db.job? jobId = some job ∧ job.id = jobId ∧ job.workspaceId = held.id := by
  obtain ⟨job, found, home⟩ := (Option.any_eq_true _ _).mp employed
  exact ⟨job, found, (job?_some found).2, of_decide_eq_true home⟩

theorem replay_employs {writes : List Write} (keeps : ∀ id, .deleteWorkspace id ∉ writes) {jobId : Nat}
    (employed : db.employs held jobId = true) : (replay db writes).employs held jobId = true := by
  induction writes generalizing db with
  | nil => exact employed
  | cons w writes ih =>
    refine ih (fun id inside => keeps id (List.mem_cons_of_mem _ inside)) ?_
    obtain ⟨job, found, named, home⟩ := employs_some employed
    have matched : db.jobs.find? (·.id = jobId) = some job := found
    cases w with
    | insertJob row =>
      change ((db.jobs ++ [row]).find? (·.id = jobId)).any _ = true
      rw [List.find?_append, matched]
      exact decide_eq_true home
    | updateJob workspaceId target update =>
      have ids : ∀ row : ResumeJob, (if row.id = target then row.set update else row).id = row.id ∧
          (if row.id = target then row.set update else row).workspaceId = row.workspaceId := by
        intro row
        split <;> exact ⟨rfl, rfl⟩
      change ((db.jobs.map _).find? fun row : ResumeJob => row.id = jobId).any _ = true
      rw [List.find?_map]
      have same : (fun row : ResumeJob => decide (row.id = jobId)) ∘ (fun row => if row.id = target then
        row.set update else row) =
          fun row => decide (row.id = jobId) := by
        funext row
        rw [Function.comp_apply, (ids row).1]
      rw [same, matched]
      exact decide_eq_true ((ids job).2.trans home)
    | deleteWorkspace id => exact absurd List.mem_cons_self (keeps id)
    | _ => exact employed

def Rendering.rows (rendering : Rendering) : List ResumeRenderArtifact :=
  if rendering.inserted then [rendering.artifact] else []

theorem replay_rendering :
    replay db (rendering.writes held) = { db with artifacts := db.artifacts ++ rendering.rows } := by
  rw [Rendering.writes, Rendering.rows]
  split
  · rfl
  · rw [List.append_nil]
    rfl

end Replay

section Steps

variable {rt : Runtime} {held : ResumeWorkspace} {source : ResumeRevision} {pdf : List UInt8} {db : Database}
  {outside outside' : Outside}
  {phase : Phase} {pending : List Write} {rendering : Rendering} {reader : Reader}

theorem Further.refl : Further pdf outside outside := ⟨Nat.le_refl _, Nat.le_refl _, fun _ kept => kept⟩

theorem read_rendered (ready : Ready rt held source pdf) :
    ∃ document, readDocument rt source.documentJson = some document ∧
      renderDocumentPdf rt document = some pdf :=
  Option.bind_eq_some_iff.mp ready.drawn

theorem rendering_track (ok : rendering.Ok source pdf db outside) (employed : reader.Employed held db) :
    Track held source pdf db outside (afterRendering held source rendering reader) := by
  cases reader with
  | exportWorkspace => exact .exported ok (Nat.le_refl _)
  | createApplication fields => exact .insertApplication ok
  | renderJob job => exact .rendered ok employed (Nat.le_refl _)

theorem rendering_drawing : (afterRendering held source rendering reader).drawing = rendering.inserted := by
  cases reader <;> rfl

theorem artifact_absent {revisionId : Nat} (absent : db.artifact? revisionId = none) :
    ∀ row ∈ db.artifacts, row.revisionId ≠ revisionId := by
  intro row member same
  have kept : row ∈ db.artifacts.filter (·.revisionId = revisionId) :=
    List.mem_filter.mpr ⟨member, decide_eq_true same⟩
  rw [lastBy_none absent] at kept
  cases kept

def Advances (rt : Runtime) (held : ResumeWorkspace) (source : ResumeRevision) (pdf : List UInt8)
    (db : Database) (outside : Outside) (phase : Phase) : Prop :=
  ∃ effect, next rt (replay db phase.pending) outside phase .answer = some effect ∧
    Goes held source pdf db outside phase effect ∧
    effect.phase.rank < phase.rank

theorem owned_advances (ready : Ready rt held source pdf) (offered : Offered held source pdf db outside)
    {call : Call} (publishes : call.publishes.isSome = true) :
    Advances rt held source pdf db outside (.owned held.userId held.id call) := by
  refine ⟨.read (.source held call) outside, ?_, ⟨.refl, .source publishes, fun drawing =>
    absurd drawing Bool.false_ne_true⟩, (by decide : 7 < 8)⟩
  simp only [next, Phase.pending, replay, List.foldl_nil, offered.owned]
  cases call <;> first | exact if_pos ready.approved | cases publishes

theorem source_advances (ready : Ready rt held source pdf) (offered : Offered held source pdf db outside)
    {call : Call} (publishes : call.publishes.isSome = true) :
    Advances rt held source pdf db outside (.source held call) := by
  obtain ⟨document, read, _⟩ := read_rendered ready
  have found : held.currentRevisionId.bind db.revision? = some source := by
    rw [ready.current]
    exact offered.revision
  cases call with
  | exportWorkspace =>
    refine ⟨.read (.artifact held source .exportWorkspace) outside, ?_,
      ⟨.refl, .artifact trivial, fun drawing => absurd drawing Bool.false_ne_true⟩, (by decide : 6 < 7)⟩
    simp only [next, Phase.pending, replay, List.foldl_nil, afterSource, found]
  | createApplication fields =>
    refine ⟨.read (.artifact held source (.createApplication fields)) outside, ?_,
      ⟨.refl, .artifact trivial, fun drawing => absurd drawing Bool.false_ne_true⟩, (by decide : 6 < 7)⟩
    simp only [next, Phase.pending, replay, List.foldl_nil, afterSource, found, read]
  | _ => cases publishes

theorem artifact_advances (ready : Ready rt held source pdf) (employed : reader.Employed held db) :
    Advances rt held source pdf db outside (.artifact held source reader) := by
  obtain ⟨document, read, drawn⟩ := read_rendered ready
  cases found : db.artifact? source.id with
  | none =>
    refine ⟨.read (.store held source reader pdf) outside, ?_,
      ⟨.refl, .store employed, fun _ => .inr ⟨⟨reader, rfl⟩, found⟩⟩, (by decide : 5 < 6)⟩
    simp only [next, Phase.pending, replay, List.foldl_nil, found, read, drawn]
  | some row =>
    obtain ⟨listed, named⟩ := artifact?_some found
    refine ⟨.read (.readStored held source reader row) outside, ?_,
      ⟨.refl, .readStored employed listed named, fun drawing => absurd drawing Bool.false_ne_true⟩,
        (by decide : 4 < 6)⟩
    simp only [next, Phase.pending, replay, List.foldl_nil, found]

theorem rendering_rank : (afterRendering held source rendering reader).rank < 4 := by
  cases reader with
  | exportWorkspace => simp [afterRendering, Phase.rank, Batch.writes]
  | createApplication fields => exact (by decide : 3 < 4)
  | renderJob job => simp [afterRendering, Phase.rank, Batch.writes]

theorem readStored_advances (offered : Offered held source pdf db outside)
    (employed : reader.Employed held db) {row : ResumeRenderArtifact} (listed : row ∈ db.artifacts)
    (named : row.revisionId = source.id) :
    Advances rt held source pdf db outside (.readStored held source reader row) := by
  obtain ⟨kept, digest⟩ := offered.filed row listed named
  have ok : Rendering.Ok source pdf db outside ⟨row, false, pdf⟩ :=
    ⟨rfl, named, fun _ => listed, fun made => (nomatch made)⟩
  refine ⟨.read (afterRendering held source ⟨row, false, pdf⟩ reader) outside, ?_,
    ⟨.refl, rendering_track ok employed, ?_⟩, rendering_rank⟩
  · have verified : getVerifiedBytes outside.storage row.storageKey row.sha256 .answer = some pdf :=
      Option.filter_eq_some_iff.mpr ⟨kept, decide_eq_true digest.symm⟩
    simp only [next, verified]
  · rw [rendering_drawing]
    exact fun made => (nomatch made)

theorem store_advances (ready : Ready rt held source pdf) (employed : reader.Employed held db) :
    Advances rt held source pdf db outside (.store held source reader pdf) := by
  refine ⟨.read (.insertArtifact held source reader (storageKey held source) pdf)
    { outside with storage := (storageKey held source, pdf) :: outside.storage },
      if_neg (Nat.not_lt.mpr ready.small),
    ⟨⟨Nat.le_refl _, Nat.le_refl _, ?_⟩, .insertArtifact employed (List.lookup_cons_self), fun _ => .inl rfl⟩,
      (by decide : 4 < 5)⟩
  intro key kept
  rw [List.lookup_cons]
  split
  · rfl
  · exact kept

theorem insertArtifact_advances (offered : Offered held source pdf db outside)
    (employed : reader.Employed held db) (kept : outside.storage.lookup (storageKey held source) = some pdf)
    (absent : db.artifact? source.id = none) :
    Advances rt held source pdf db outside
      (.insertArtifact held source reader (storageKey held source) pdf) := by
  have ok : Rendering.Ok source pdf db { outside with nextArtifactId := outside.nextArtifactId + 1 }
      ⟨⟨outside.nextArtifactId, source.id, storageKey held source, pdf.length, sha256 pdf⟩, true, pdf⟩ :=
    ⟨rfl, rfl, fun found => (nomatch found), fun _ => ⟨kept, rfl, Nat.lt_succ_self _⟩⟩
  refine ⟨_, rfl, ⟨⟨Nat.le_succ _, Nat.le_refl _, fun _ kept => kept⟩, rendering_track ok employed,
    rendering_drawing, ?_, .inl ⟨_, rfl, rfl⟩⟩, rendering_rank⟩
  change (db.artifacts.all _ && (db.revision? source.id).isSome) = true
  rw [offered.revision, Option.isSome_some, Bool.and_true, List.all_eq_true]
  intro row listed
  simp only [Bool.and_eq_true, decide_eq_true_eq]
  exact ⟨Nat.ne_of_lt (offered.numbered row listed), fun same =>
    artifact_absent absent row listed (offered.elsewhere row listed same)⟩

theorem insertApplication_advances (offered : Offered held source pdf db outside)
    (ok : rendering.Ok source pdf db outside) (fields : ApplicationFields) :
    Advances rt held source pdf db outside (.insertApplication held source fields rendering) := by
  refine ⟨_, rfl, ⟨⟨Nat.le_refl _, Nat.le_succ _, fun _ kept => kept⟩,
    .applied ⟨ok.bytes, ok.named, ok.found, ok.made⟩ (Nat.lt_succ_self _) (Nat.le_refl _), rfl, ?_,
      .inr (.inl ⟨_, rfl, rfl⟩)⟩, ?_⟩
  · rw [Phase.pending, replay_rendering]
    change (db.applications.all _ && (db.workspace? held.id).isSome && (db.revision? source.id).isSome) = true
    rw [offered.workspace, offered.revision, Option.isSome_some, Option.isSome_some, Bool.and_true,
      Bool.and_true, List.all_eq_true]
    exact fun row listed => decide_eq_true (Nat.ne_of_lt (offered.applications row listed))
  · simp [Effect.phase, Phase.rank, Batch.writes]

theorem commit_advances {batch : Batch} {sent : Nat} (all : batch.writes[sent]? = none)
    (shorter : batch.after.rank < (Phase.flush batch sent).rank) :
    Advances rt held source pdf db outside (.flush batch sent) := by
  refine ⟨.commit batch.after outside, ?_, ⟨rfl, batch, sent, rfl, all, rfl⟩, shorter⟩
  simp only [next, all]

theorem update_advances {batch : Batch} {sent workspaceId jobId : Nat} {update : JobUpdate}
    (offered : Offered held source pdf db outside)
    (more : batch.writes[sent]? = some (.updateJob workspaceId jobId update))
    (track : Track held source pdf db outside (.flush batch (sent + 1)))
    (quiet : ∀ w ∈ batch.writes, w.quiet = true) (employed : db.employs held jobId = true)
    (result : ∀ id, update.resultRevisionId = some id → id = source.id)
    (shorter : (Phase.flush batch (sent + 1)).rank < (Phase.flush batch sent).rank) :
    Advances rt held source pdf db outside (.flush batch sent) := by
  refine ⟨.write (.updateJob workspaceId jobId update) (.flush batch (sent + 1)) outside, ?_,
    ⟨.refl, track, rfl, ?_, .inr (.inr ⟨_, _, _, rfl⟩)⟩, shorter⟩
  · simp only [next, more]
  · have keeps : ∀ id, .deleteWorkspace id ∉ (Phase.flush batch sent).pending :=
      fun id member => absurd (quiet _ (List.mem_of_mem_take member)) Bool.false_ne_true
    obtain ⟨job, found, _⟩ := employs_some (replay_employs keeps employed)
    have kept := (replay_quiet db fun w member => quiet w (List.mem_of_mem_take member) : _ ∧
      (replay db (Phase.flush batch sent).pending).revisions = _).2
    simp only [admitsWrite, found, Option.isSome_some, Bool.true_and, Option.all_eq_true]
    intro id named
    rw [result id named, Database.revision?, kept]
    exact Option.isSome_iff_exists.mpr ⟨source, offered.revision⟩

theorem starting_advances (offered : Offered held source pdf db outside) {job : ResumeJob} {sent : Nat}
    (employed : db.employs held job.id = true) (home : job.workspaceId = held.id) :
    Advances rt held source pdf db outside (.flush (.startJob .render job) sent) := by
  cases more : (Batch.startJob .render job).writes[sent]? with
  | none => exact commit_advances more (Nat.lt_of_lt_of_le (by decide : 8 < 9) (Nat.le_add_right _ _))
  | some w =>
    have bound := (List.getElem?_eq_some_iff.mp more).1
    have quiet : ∀ v ∈ (Batch.startJob .render job).writes, v.quiet = true := batch_quiet rfl
    cases Batch.mem_writes (List.mem_of_getElem? more) with
    | starts =>
      exact update_advances offered more (.starting employed home) quiet employed (fun _ named =>
        (nomatch named))
        (by simp only [Phase.rank]; omega)
    | draws published => cases published

theorem rendered_advances (offered : Offered held source pdf db outside) {job : ResumeJob} {sent : Nat}
    (ok : rendering.Ok source pdf db outside) (employed : db.employs held job.id = true)
    (all : (rendering.writes held).length ≤ sent) :
    Advances rt held source pdf db outside (.flush (.rendered job held source rendering) sent) := by
  cases more : (Batch.rendered job held source rendering).writes[sent]? with
  | none => exact commit_advances more (Nat.lt_of_lt_of_le (by decide : 0 < 1) (Nat.le_add_right _ _))
  | some w =>
    have bound := (List.getElem?_eq_some_iff.mp more).1
    have last : w = .updateJob job.workspaceId job.id ⟨.succeeded, some source.id, none⟩ := by
      rw [Batch.writes, List.getElem?_append_right all] at more
      exact List.mem_singleton.mp (List.mem_of_getElem? more)
    subst last
    exact update_advances offered more (.rendered ok employed (Nat.le_succ_of_le all))
      (batch_quiet rfl) employed
      (fun _ named => (Option.some.inj named).symm) (by simp only [Phase.rank]; omega)

/-- A session on the way that has not finished has a next step, which keeps it on the way. -/
theorem track_advances (ready : Ready rt held source pdf) (offered : Offered held source pdf db outside)
    (course : Course held source pdf db outside phase pending)
    (running : ∀ outcome, phase ≠ .finished outcome) :
    Advances rt held source pdf db outside phase := by
  obtain ⟨_, track, alone⟩ := course
  cases track with
  | owned publishes => exact owned_advances ready offered publishes
  | source publishes => exact source_advances ready offered publishes
  | job employed =>
    obtain ⟨job, found, rfl, home⟩ := employs_some employed
    refine ⟨.read (.flush (.startJob .render job) 0) outside, ?_,
      ⟨.refl, .starting employed home, fun drawing => absurd drawing Bool.false_ne_true⟩, ?_⟩
    · simp only [next, Phase.pending, replay, List.foldl_nil, found]
    · simp only [Effect.phase, Phase.rank, Batch.writes]
      split <;> exact of_decide_eq_true rfl
  | starting employed home => exact starting_advances offered employed home
  | jobWorkspace employed home =>
    refine ⟨.read (.jobRevision .render _ held) outside, ?_, ⟨.refl, .jobRevision employed, fun drawing =>
      absurd drawing Bool.false_ne_true⟩, (by decide : 7 < 8)⟩
    simp only [next, Phase.pending, replay, List.foldl_nil, home, offered.workspace]
  | jobRevision employed =>
    refine ⟨.read (.artifact held source (.renderJob _)) outside, ?_,
      ⟨.refl, .artifact employed, fun drawing => absurd drawing Bool.false_ne_true⟩, (by decide : 6 < 7)⟩
    simp only [next, Phase.pending, replay, List.foldl_nil, ready.current, Option.bind_some, offered.revision,
      ready.approved, if_true]
  | artifact employed => exact artifact_advances ready employed
  | readStored employed listed named => exact readStored_advances offered employed listed named
  | store employed => exact store_advances ready employed
  | insertArtifact employed kept => exact insertArtifact_advances offered employed kept (alone rfl)
  | insertApplication ok => exact insertApplication_advances offered ok _
  | @exported rendering sent ok all =>
    exact commit_advances (List.getElem?_eq_none all)
      (Nat.lt_of_lt_of_le (by decide : 0 < 1) (Nat.le_add_right _ _))
  | rendered ok employed all => exact rendered_advances offered ok employed all
  | applied ok numbered all =>
    refine commit_advances (List.getElem?_eq_none ?_)
      (Nat.lt_of_lt_of_le (by decide : 0 < 1) (Nat.le_add_right _ _))
    rwa [Batch.writes, List.length_append, List.length_singleton]
  | finished => exact absurd rfl (running _)

theorem Track.grows {db' : Database} (track : Track held source pdf db outside phase)
    (further : Further pdf outside outside')
    (jobs : ∀ jobId, db.employs held jobId = true → db'.employs held jobId = true)
    (rows : ∀ row ∈ db.artifacts, row ∈ db'.artifacts) :
    Track held source pdf db' outside' phase := by
  have employed : ∀ {reader : Reader}, reader.Employed held db → reader.Employed held db' := by
    intro reader employed
    cases reader with
    | renderJob job => exact jobs _ employed
    | _ => trivial
  have rendered : ∀ {rendering : Rendering}, rendering.Ok source pdf db outside →
      rendering.Ok source pdf db' outside' := by
    intro rendering ok
    refine ⟨ok.bytes, ok.named, fun found => rows _ (ok.found found), fun made => ?_⟩
    obtain ⟨kept, digest, below⟩ := ok.made made
    exact ⟨further.stored _ kept, digest, Nat.lt_of_lt_of_le below further.artifactIds⟩
  cases track with
  | owned publishes => exact .owned publishes
  | source publishes => exact .source publishes
  | job employed => exact .job (jobs _ employed)
  | starting employed home => exact .starting (jobs _ employed) home
  | jobWorkspace employed home => exact .jobWorkspace (jobs _ employed) home
  | jobRevision employed => exact .jobRevision (jobs _ employed)
  | artifact job => exact .artifact (employed job)
  | readStored job listed named => exact .readStored (employed job) (rows _ listed) named
  | store job => exact .store (employed job)
  | insertArtifact job kept => exact .insertArtifact (employed job) (further.stored _ kept)
  | insertApplication ok => exact .insertApplication (rendered ok)
  | exported ok all => exact .exported (rendered ok) all
  | rendered ok employed all => exact .rendered (rendered ok) (jobs _ employed) all
  | applied ok numbered all =>
      exact .applied (rendered ok) (Nat.lt_of_lt_of_le numbered further.applicationIds) all
  | finished hands listed =>
    obtain ⟨row, inside, named⟩ := listed
    exact .finished hands ⟨row, rows row inside, named⟩

theorem Offered.grows (offered : Offered held source pdf db outside)
    (further : Further pdf outside outside') :
    Offered held source pdf db outside' :=
  { offered with
    filed := fun row listed named =>
      ⟨further.stored _ (offered.filed row listed named).1, (offered.filed row listed named).2⟩
    numbered := fun row listed => Nat.lt_of_lt_of_le (offered.numbered row listed) further.artifactIds
    applications := fun row listed =>
      Nat.lt_of_lt_of_le (offered.applications row listed) further.applicationIds }

structure Gains (db db' : Database) (outside : Outside) (rows : List ResumeRenderArtifact) : Prop where
  workspaces : db'.workspaces = db.workspaces
  revisions : db'.revisions = db.revisions
  artifacts : db'.artifacts = db.artifacts ++ rows
  applications : ∀ row ∈ db'.applications, row ∈ db.applications ∨ row.id < outside.nextApplicationId

theorem Offered.gains {db' : Database} {rows : List ResumeRenderArtifact}
    (offered : Offered held source pdf db outside) (gains : Gains db db' outside rows)
    (single : rows = [] ∨ ∃ row, rows = [row] ∧ db.artifact? source.id = none)
    (new : ∀ row ∈ rows, row.revisionId = source.id ∧ outside.storage.lookup row.storageKey = some pdf ∧
      row.sha256 = sha256 pdf ∧
      row.id < outside.nextArtifactId) : Offered held source pdf db' outside := by
  refine ⟨?_, ?_, ?_, ?_, ?_, ?_, ?_, ?_⟩
  · rw [Database.workspace?, gains.workspaces]
    exact offered.workspace
  · rw [Database.owned?, gains.workspaces]
    exact offered.owned
  · rw [Database.revision?, gains.revisions]
    exact offered.revision
  · intro row listed named
    rw [gains.artifacts] at listed
    rcases List.mem_append.mp listed with old | added
    · exact offered.filed row old named
    · exact ⟨(new row added).2.1, (new row added).2.2.1⟩
  · intro row listed key
    rw [gains.artifacts] at listed
    rcases List.mem_append.mp listed with old | added
    · exact offered.elsewhere row old key
    · exact (new row added).1
  · rw [gains.artifacts, List.filter_append]
    rcases single with rfl | ⟨row, rfl, absent⟩
    · rw [List.filter_nil, List.append_nil]
      exact offered.once
    · rw [lastBy_none absent, List.nil_append]
      exact List.length_filter_le _ [row]
  · intro row listed
    rw [gains.artifacts] at listed
    rcases List.mem_append.mp listed with old | added
    · exact offered.numbered row old
    · exact (new row added).2.2.2
  · intro row listed
    exact (gains.applications row listed).elim (offered.applications row) id

theorem rows_new (ok : rendering.Ok source pdf db outside) :
    ∀ row ∈ rendering.rows, row.revisionId = source.id ∧
    outside.storage.lookup row.storageKey = some pdf ∧ row.sha256 = sha256 pdf ∧
      row.id < outside.nextArtifactId := by
  intro row member
  rw [Rendering.rows] at member
  split at member
  · rename_i inserted
    rw [List.mem_singleton.mp member]
    exact ⟨ok.named, ok.made inserted⟩
  · cases member

theorem rows_single (rendering : Rendering) : rendering.rows = [] ∨ rendering.inserted = true ∧ ∃ row,
    rendering.rows = [row] := by
  rw [Rendering.rows]
  split
  · exact .inr ⟨‹_›, _, rfl⟩
  · exact .inl rfl

theorem Rendering.Ok.delivered {db' : Database} (ok : rendering.Ok source pdf db outside)
    (artifacts : db'.artifacts = db.artifacts ++ rendering.rows) :
    ∃ row ∈ db'.artifacts, row.revisionId = source.id := by
  refine ⟨rendering.artifact, ?_, ok.named⟩
  rw [artifacts, Rendering.rows]
  split
  · exact List.mem_append_right _ List.mem_cons_self
  · exact List.mem_append_left _ (ok.found (Bool.eq_false_iff.mpr ‹_›))

theorem commit_gains {batch : Batch} {sent : Nat}
    (track : Track held source pdf db outside (.flush batch sent)) :
    ∃ rows, Gains db (replay db batch.writes) outside rows ∧
      (rows = [] ∨ (Phase.flush batch sent).drawing = true ∧ ∃ row, rows = [row]) ∧
      (∀ row ∈ rows, row.revisionId = source.id ∧ outside.storage.lookup row.storageKey = some pdf ∧
        row.sha256 = sha256 pdf ∧
        row.id < outside.nextArtifactId) ∧ Track held source pdf (replay db batch.writes) outside
          batch.after := by
  cases track with
  | @starting job _ employed home =>
    have quiet : ∀ w ∈ (Batch.startJob .render job).writes, w.quiet = true := batch_quiet rfl
    have later := replay_employs (fun id member => nomatch quiet _ member) employed
    refine ⟨[], ?_, .inl rfl, fun _ member => (nomatch member), .jobWorkspace later home⟩
    rw [Batch.writes]
    split <;> exact ⟨rfl, rfl, (List.append_nil _).symm, fun _ listed => .inl listed⟩
  | @exported rendering _ ok all =>
    have same : replay db (Batch.exported held source rendering).writes = _ := replay_rendering
    refine ⟨rendering.rows, ?_, rows_single rendering, rows_new ok, .finished ⟨rfl, congrArg some ok.bytes⟩
      (ok.delivered (same ▸ rfl))⟩
    exact same ▸ ⟨rfl, rfl, rfl, fun _ listed => .inl listed⟩
  | @rendered job rendering _ ok employed all =>
    have gains : Gains db (replay db (Batch.rendered job held source rendering).writes) outside
        rendering.rows := by
      rw [Batch.writes, replay_append, replay_rendering]
      exact ⟨rfl, rfl, rfl, fun _ listed => .inl listed⟩
    exact ⟨rendering.rows, gains, rows_single rendering, rows_new ok,
      .finished ⟨rfl, congrArg some ok.bytes⟩ (ok.delivered gains.artifacts)⟩
  | @applied fields rendering applicationId _ ok numbered all =>
    have gains : Gains db (replay db (Batch.applied held source fields rendering applicationId).writes)
        outside rendering.rows := by
      rw [Batch.writes, replay_append, replay_rendering]
      refine ⟨rfl, rfl, rfl, fun row listed => ?_⟩
      rcases List.mem_append.mp listed with old | new
      · exact .inl old
      · rw [List.mem_singleton.mp new]
        exact .inr numbered
    exact ⟨rendering.rows, gains, rows_single rendering, rows_new ok,
      .finished ⟨rfl, congrArg some ok.bytes⟩ (ok.delivered gains.artifacts)⟩

theorem after_still (batch : Batch) : batch.after.drawing = false := by
  cases batch <;> rfl

theorem absent_gains {db' : Database} (gains : Gains db db' outside [])
    (absent : db.artifact? source.id = none) :
    db'.artifact? source.id = none := by
  rw [Database.artifact?, gains.artifacts, List.append_nil]
  exact absent

theorem track_keeps {batch : Batch} {sent : Nat}
    (track : Track held source pdf db outside (.flush batch sent)) :
    ∀ id, .deleteWorkspace id ∉ batch.writes := by
  intro id member
  obtain ⟨_, rfl⟩ := Batch.deletes member
  cases track

theorem Course.advances {effect : Effect Outside Phase Write} (ready : Ready rt held source pdf)
    (offered : Offered held source pdf db outside) (course : Course held source pdf db outside phase pending)
    (stepped : next rt (replay db pending) outside phase .answer = some effect) :
    Goes held source pdf db outside phase effect ∧ effect.phase.rank < phase.rank := by
  have running : ∀ outcome, phase ≠ .finished outcome := by
    rintro outcome rfl
    cases stepped
  obtain ⟨other, same, goes, shorter⟩ := track_advances ready offered course running
  rw [← course.shape, stepped] at same
  cases same
  exact ⟨goes, shorter⟩

theorem Course.further {other : Phase} {otherPending : List Write} (further : Further pdf outside outside')
    (course : Course held source pdf db outside other otherPending) :
    Course held source pdf db outside' other otherPending :=
  { course with track := course.track.grows further (fun _ employed => employed) fun _ listed => listed }

theorem course_moves {db' : Database} {phase' : Phase} {pending' : List Write}
    (ready : Ready rt held source pdf) (offered : Offered held source pdf db outside)
    (course : Course held source pdf db outside phase pending)
    (moves : (resumeSystem rt).Moves db outside phase pending (some .answer) db' outside' phase' pending') :
    Offered held source pdf db' outside' ∧ Course held source pdf db' outside' phase' pending' ∧
      phase'.rank < phase.rank ∧
      (phase'.drawing = true → phase.drawing = true ∨ (∃ reader, phase = .artifact held source reader) ∧
        db.artifact? source.id = none) ∧
      ∀ other otherPending, ¬ (phase.drawing = true ∧ other.drawing = true) →
        Course held source pdf db outside other otherPending →
        Course held source pdf db' outside' other otherPending := by
  cases moves with
  | read next =>
    obtain ⟨⟨further, track, draws⟩, shorter⟩ := course.advances ready offered next
    have shape := next_pending (next_cases next)
    refine ⟨offered.grows further, ⟨course.shape.trans shape.symm, track, fun drawing => ?_⟩, shorter, draws,
      fun _ _ _ beside => beside.further further⟩
    exact (draws drawing).elim course.alone And.right
  | write next admitted =>
    obtain ⟨⟨further, track, draws, _⟩, shorter⟩ := course.advances ready offered next
    have shape := next_pending (next_cases next)
    refine ⟨offered.grows further, ⟨?_, track, fun drawing => course.alone (draws ▸ drawing)⟩, shorter,
      fun drawing => .inl (draws ▸ drawing), fun _ _ _ beside => beside.further further⟩
    rw [course.shape]
    exact shape.symm
  | refused next refused =>
    obtain ⟨⟨_, _, _, admitted, _⟩, _⟩ := course.advances ready offered next
    rw [course.shape] at refused
    exact absurd (admitted.symm.trans refused) (fun same => nomatch same)
  | commit next =>
    obtain ⟨⟨rfl, batch, sent, rfl, all, rfl⟩, shorter⟩ := course.advances ready offered next
    have written : pending = batch.writes :=
      course.shape.trans (List.take_of_length_le (List.getElem?_eq_none_iff.mp all))
    obtain ⟨rows, gains, single, new, track⟩ := commit_gains course.track
    have view : System.view (resumeSystem rt) db pending = replay db batch.writes := by rw [written]; rfl
    rw [view]
    refine ⟨offered.gains gains ?_ new, ⟨batch.after_pending.symm, track, fun drawing => ?_⟩, shorter,
      fun drawing => ?_, ?_⟩
    · rcases single with nothing | ⟨drawing, row, one⟩
      · exact .inl nothing
      · exact .inr ⟨row, one, course.alone drawing⟩
    · rw [after_still] at drawing
      cases drawing
    · rw [after_still] at drawing
      cases drawing
    · intro other otherPending apart beside
      refine ⟨beside.shape, beside.track.grows .refl (fun _ => replay_employs (track_keeps course.track)) ?_,
        fun drawing => ?_⟩
      · intro row listed
        rw [gains.artifacts]
        exact List.mem_append_left _ listed
      · rcases single with rfl | ⟨mine, _⟩
        · exact absent_gains gains (beside.alone drawing)
        · exact absurd ⟨mine, drawing⟩ apart
  | fail next => exact (course.advances ready offered next).1.elim

end Steps

end ManifestCV.Workspace
