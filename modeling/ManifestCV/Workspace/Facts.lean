import ManifestCV.Foundation.Facts
import ManifestCV.Workspace.Invariant

namespace ManifestCV.Workspace

open Foundation Foundation.Transactions Document Render

def rendered (rt : Runtime) (documentJson : Str) : Option (List UInt8) :=
  (readDocument rt documentJson).bind (renderDocumentPdf rt)

def keyOf (userId workspaceId revisionId : Nat) : Str :=
  "users/".toList ++ decimal userId ++ "/workspaces/".toList ++ decimal workspaceId ++ "/revisions/".toList ++
    decimal revisionId ++ "/resume.pdf".toList

inductive Fact where
  | owner (workspaceId userId : Nat)
  | revision (row : ResumeRevision)
  | home (revisionId workspaceId : Nat)
  | jobHome (jobId workspaceId : Nat)
  | jobKind (jobId : Nat) (kind : JobKind)
  | stored (key : Str) (pdf : List UInt8)
  | digest (revisionId : Nat) (key : Str) (byteSize : Nat) (sha : Str)
  | application (applicationId userId : Nat) (snapshot : ApplicationSnapshot)

def Fact.fits (rt : Runtime) : Fact → Fact → Prop
  | .owner workspaceId userId, .owner other user => workspaceId = other → userId = user
  | .revision row, .revision other => row.id = other.id → row = other
  | .revision row, .home revisionId workspaceId => row.id = revisionId → row.workspaceId = workspaceId
  | .revision row, .stored key pdf => ∀ userId workspaceId, key = keyOf userId workspaceId row.id →
      rendered rt row.documentJson = some pdf
  | .revision row, .digest revisionId _ byteSize sha => row.id = revisionId →
      ∃ pdf, rendered rt row.documentJson = some pdf ∧ byteSize = pdf.length ∧ sha = sha256 pdf
  | .home revisionId workspaceId, .home other place => revisionId = other → workspaceId = place
  | .jobHome jobId workspaceId, .jobHome other place => jobId = other → workspaceId = place
  | .jobKind jobId kind, .jobKind other otherKind => jobId = other → kind = otherKind
  | .stored key pdf, .stored other bytes => key = other → pdf = bytes
  | .digest _ key byteSize sha, .stored other pdf => key = other → byteSize = pdf.length ∧ sha = sha256 pdf
  | .application applicationId userId snapshot, .application other user copy => applicationId = other →
      userId = user ∧ snapshot = copy
  | _, _ => True

/-- An application's copies are of one document, its rendering and the digest of that. -/
structure Faithful (rt : Runtime) (snapshot : ApplicationSnapshot) : Prop where
  document : snapshot.documentSnapshot = snapshot.resumeContentSnapshot
  pdf : rendered rt snapshot.documentSnapshot = some snapshot.pdfSnapshot
  digest : snapshot.pdfSha256Snapshot = sha256 snapshot.pdfSnapshot

def Fact.Known (rt : Runtime) (outside : Outside) : Fact → Prop
  | .owner workspaceId _ => workspaceId < outside.nextWorkspaceId
  | .revision row => row.id < outside.nextRevisionId
  | .home revisionId _ => revisionId < outside.nextRevisionId
  | .jobHome jobId _ => jobId < outside.nextJobId
  | .jobKind jobId _ => jobId < outside.nextJobId
  | .stored key _ => ∃ userId workspaceId revisionId, key = keyOf userId workspaceId revisionId ∧
      revisionId < outside.nextRevisionId
  | .digest revisionId key _ _ => (∃ userId workspaceId, key = keyOf userId workspaceId revisionId) ∧
      revisionId < outside.nextRevisionId
  | .application applicationId _ snapshot => applicationId < outside.nextApplicationId ∧ Faithful rt snapshot

def ResumeWorkspace.facts (row : ResumeWorkspace) : List Fact :=
  .owner row.id row.userId :: row.currentRevisionId.toList.map (Fact.home · row.id)

def ResumeJob.facts (row : ResumeJob) : List Fact :=
  [.owner row.workspaceId row.userId, .jobHome row.id row.workspaceId, .jobKind row.id row.kind] ++
    row.resultRevisionId.toList.map (Fact.home · row.workspaceId)

def ResumeRenderArtifact.fact (row : ResumeRenderArtifact) : Fact :=
  .digest row.revisionId row.storageKey row.byteSize row.sha256

def ApplicationRecord.facts (row : ApplicationRecord) : List Fact :=
  [.application row.id row.userId row.toApplicationSnapshot,
    .stored row.pdfStorageKeySnapshot row.pdfSnapshot] ++
    row.resumeWorkspaceId.toList.flatMap fun workspaceId =>
      .owner workspaceId row.userId :: row.resumeRevisionId.toList.map (Fact.home · workspaceId)

def Database.facts (db : Database) : List Fact :=
  db.workspaces.flatMap ResumeWorkspace.facts ++ db.revisions.map .revision ++ db.jobs.flatMap
    ResumeJob.facts ++
    db.artifacts.map ResumeRenderArtifact.fact ++ db.applications.flatMap ApplicationRecord.facts

def Write.facts : Write → List Fact
  | .insertWorkspace row => row.facts
  | .insertRevision row => [.revision row]
  | .insertJob row => row.facts
  | .insertArtifact _ row => [row.fact]
  | .insertApplication row => row.facts
  | .setCurrentRevision workspaceId revisionId => [.home revisionId workspaceId]
  | .setStatus _ _ | .lockWorkspace _ | .deleteWorkspace _ | .updateApplication _ _ | .deleteApplication _ =>
      []
  | .updateJob workspaceId jobId update => .jobHome jobId workspaceId :: update.resultRevisionId.toList.map
      (Fact.home · workspaceId)

def Rendering.facts (rendering : Rendering) : List Fact :=
  [rendering.artifact.fact, .stored rendering.artifact.storageKey rendering.pdf]

def Reader.job? : Reader → Option ResumeJob
  | .renderJob row => some row
  | _ => none

def Writer.job? : Writer → Option ResumeJob
  | .worker row _ _ => some row
  | _ => none

def Batch.job? : Batch → Option ResumeJob
  | .revision writer _ _ => writer.job?
  | .queueJob row | .startJob _ row | .failJob row _ _ | .rendered row _ _ _ => some row
  | _ => none

def Phase.jobObject? : Phase → Option ResumeJob
  | .jobWorkspace _ row | .jobRevision _ row _ | .jobThinking row _ _ | .deferring row => some row
  | .artifact _ _ reader | .readStored _ _ reader _ | .store _ _ reader _ | .insertArtifact _ _ reader _ _ =>
      reader.job?
  | .insertRevision writer _ => writer.job?
  | .flush batch _ | .finished (.committed batch) => batch.job?
  | _ => none

def Batch.facts : Batch → List Fact
  | .revision writer revisionId text =>
    writer.before.flatMap Write.facts ++ [.revision (revisionRow writer revisionId text),
      .home revisionId writer.workspaceId]
  | .exported _ _ rendering | .rendered _ _ _ rendering => rendering.facts
  | .applied held source fields rendering applicationId =>
    rendering.facts ++ (applicationRow held source fields rendering applicationId).facts
  | .tracked row _ | .removed row => row.facts
  | _ => []

def Phase.made : Phase → List Fact
  | .insertRevision writer _ => writer.before.flatMap Write.facts
  | .readStored _ _ _ row => [row.fact]
  | .store held revision _ pdf => [.stored (storageKey held revision) pdf]
  | .insertArtifact _ revision _ key pdf => [.digest revision.id key pdf.length (sha256 pdf), .stored key pdf]
  | .insertApplication _ _ _ rendering => rendering.facts
  | .flush batch _ | .finished (.committed batch) => batch.facts
  | _ => []

def Phase.facts (phase : Phase) : List Fact :=
  phase.held?.toList.flatMap ResumeWorkspace.facts ++ phase.source?.toList.map .revision ++
    phase.jobObject?.toList.flatMap ResumeJob.facts ++ phase.made

/-- The facts of the resume system; two agree if they fit both ways round. -/
def resumeFacts (rt : Runtime) : Facts Database Outside Phase Write Fact where
  agrees f g := f.fits rt g ∧ g.fits rt f
  symmetric fits := ⟨fits.2, fits.1⟩
  known := Fact.Known rt
  database db f := f ∈ db.facts
  outside outside f := ∃ entry ∈ outside.storage, f = .stored entry.1 entry.2
  phase phase f := f ∈ phase.facts
  write w f := f ∈ w.facts

def Batch.drawn? : Batch → Option (ResumeRevision × ResumeRenderArtifact)
  | .exported _ source rendering | .rendered _ _ source rendering | .applied _ source _ rendering _ =>
    some (source, rendering.artifact)
  | _ => none

def Phase.drawn? : Phase → Option (ResumeRevision × ResumeRenderArtifact)
  | .readStored _ made _ row => some (made, row)
  | .insertApplication _ made _ rendering => some (made, rendering.artifact)
  | .flush batch _ | .finished (.committed batch) => batch.drawn?
  | _ => none

structure Placed (phase : Phase) : Prop where
  publish : PublishOk phase
  house : ∀ held job, phase.held? = some held → phase.jobObject? = some job → held.id = job.workspaceId
  drawn : ∀ revision artifact, phase.drawn? = some (revision, artifact) → artifact.revisionId = revision.id

section Keys

theorem decimal_no_slash (n : Nat) : '/' ∉ decimal n := fun member => nomatch decimal_digits n '/' member

theorem cut_at {c : Char} {first first' rest rest' : Str} (plain : c ∉ first) (plain' : c ∉ first')
    (same : first ++ c :: rest = first' ++ c :: rest') : first = first' ∧ rest = rest' := by
  induction first generalizing first' with
  | nil =>
    cases first' with
    | nil => exact ⟨rfl, (List.cons.inj same).2⟩
    | cons d tail =>
      obtain ⟨rfl, _⟩ := List.cons.inj same
      exact absurd List.mem_cons_self plain'
  | cons d tail ih =>
    cases first' with
    | nil =>
      obtain ⟨rfl, _⟩ := List.cons.inj same
      exact absurd List.mem_cons_self plain
    | cons e tail' =>
      obtain ⟨head, tails⟩ := List.cons.inj same
      subst head
      have shorter : c ∉ tail := fun member => plain (List.mem_cons_of_mem _ member)
      have shorter' : c ∉ tail' := fun member => plain' (List.mem_cons_of_mem _ member)
      obtain ⟨rfl, rests⟩ := ih shorter shorter' tails
      exact ⟨rfl, rests⟩

theorem decimal_inj {n m : Nat} (same : decimal n = decimal m) : n = m := by
  have left := (readInt_decimalInt n).2
  have right := (readInt_decimalInt m).2
  have printed : decimalInt n = decimalInt m := same
  rw [printed, right] at left
  exact (Int.ofNat.inj left).symm

theorem segments_inj {a b c d x x' y y' z z' : Str} (plain : '/' ∉ x ∧ '/' ∉ y ∧ '/' ∉ z)
    (plain' : '/' ∉ x' ∧ '/' ∉ y' ∧ '/' ∉ z')
    (same : a ++ (x ++ '/' :: (b ++ (y ++ '/' :: (c ++ (z ++ '/' :: d))))) =
      a ++ (x' ++ '/' :: (b ++ (y' ++ '/' :: (c ++ (z' ++ '/' :: d)))))) : z = z' := by
  obtain ⟨_, rest⟩ := cut_at plain.1 plain'.1 (List.append_cancel_left same)
  obtain ⟨_, rest⟩ := cut_at plain.2.1 plain'.2.1 (List.append_cancel_left rest)
  exact (cut_at plain.2.2 plain'.2.2 (List.append_cancel_left rest)).1

theorem segments_eq {a b b' c c' d d' x y z : Str} (second : b = '/' :: b') (third : c = '/' :: c')
    (last : d = '/' :: d') :
    a ++ x ++ b ++ y ++ c ++ z ++ d = a ++ (x ++ '/' :: (b' ++ (y ++ '/' :: (c' ++ (z ++ '/' :: d'))))) := by
  subst second third last
  simp only [List.append_assoc, List.cons_append]

theorem keyOf_segments (userId workspaceId revisionId : Nat) : keyOf userId workspaceId revisionId =
    "users/".toList ++ (decimal userId ++ '/' :: ("workspaces/".toList ++ (decimal workspaceId ++ '/' ::
      ("revisions/".toList ++ (decimal revisionId ++ '/' :: "resume.pdf".toList))))) :=
  segments_eq (by decide) (by decide) (by decide)

theorem keyOf_inj {userId workspaceId revisionId user workspace revision : Nat}
    (same : keyOf userId workspaceId revisionId = keyOf user workspace revision) : revisionId = revision := by
  rw [keyOf_segments, keyOf_segments] at same
  have plain : ∀ n, '/' ∉ decimal n := decimal_no_slash
  exact decimal_inj (segments_inj ⟨plain _, plain _, plain _⟩ ⟨plain _, plain _, plain _⟩ same)

end Keys

section Placing

variable {rt : Runtime} {db : Database} {outside : Outside} {phase : Phase} {input : Input}
  {effect : Effect Outside Phase Write}

theorem afterRendering_job (held : ResumeWorkspace) (source : ResumeRevision) (rendering : Rendering)
    (reader : Reader) :
    (afterRendering held source rendering reader).jobObject? = reader.job? := by
  cases reader <;> rfl

theorem afterRendering_drawn (held : ResumeWorkspace) (source : ResumeRevision) (rendering : Rendering)
    (reader : Reader) :
    (afterRendering held source rendering reader).drawn? = some (source, rendering.artifact) := by
  cases reader <;> rfl

theorem artifact?_some {revisionId : Nat} {row : ResumeRenderArtifact}
    (found : db.artifact? revisionId = some row) :
    row ∈ db.artifacts ∧ row.revisionId = revisionId := by
  have member := List.mem_filter.mp (lastBy_mem found)
  exact ⟨member.1, of_decide_eq_true member.2⟩

theorem Outcome.plain_clean {outcome : Outcome} (plain : outcome.plain = true) :
    (Phase.finished outcome).held? = none ∧ (Phase.finished outcome).jobObject? = none ∧
    (Phase.finished outcome).drawn? = none := by
  cases outcome <;> first | exact ⟨rfl, rfl, rfl⟩ | cases plain

theorem next_house (step : Next rt db outside phase input effect)
    (ok : ∀ held job, phase.held? = some held → phase.jobObject? = some job → held.id = job.workspaceId) :
    ∀ held job, effect.phase.held? = some held → effect.phase.jobObject? = some job →
      held.id = job.workspaceId := by
  intro held job holds employs
  cases step with
  | jobOwner found =>
    cases holds
    cases employs
    exact (workspace?_some found).2
  | verified =>
    refine ok held job ?_ ?_
    · exact (afterRendering_held _ _ _ _).symm.trans holds
    · exact (afterRendering_job _ _ _ _).symm.trans employs
  | catalogued =>
    refine ok held job ?_ ?_
    · exact (afterRendering_held _ _ _ _).symm.trans holds
    · exact (afterRendering_job _ _ _ _).symm.trans employs
  | committed =>
    rename_i batch sent all
    cases batch <;> first | exact ok held job holds employs | exact (nomatch holds)
  | failed plain =>
    rw [Effect.phase, (Outcome.plain_clean plain).1] at holds
    cases holds
  | publishing publishes found =>
    rename_i call reader source
    cases call <;> cases publishes <;> cases employs
  | queued | started | jobFailed => exact nomatch (holds : (none : Option ResumeWorkspace) = some held)
  | _ => first | exact ok held job holds employs | exact (nomatch employs)

theorem next_drawn (step : Next rt db outside phase input effect)
    (ok : ∀ source artifact, phase.drawn? = some (source, artifact) → artifact.revisionId = source.id) :
    ∀ source artifact, effect.phase.drawn? = some (source, artifact) → artifact.revisionId = source.id := by
  intro source artifact drawn
  cases step with
  | rendered found =>
    cases drawn
    exact (artifact?_some found).2
  | verified =>
    refine ok source artifact ?_
    exact (afterRendering_drawn _ _ _ _).symm.trans drawn
  | catalogued =>
    rw [Effect.phase, afterRendering_drawn] at drawn
    cases drawn
    rfl
  | committed =>
    rename_i batch sent all
    cases batch <;> exact ok source artifact drawn
  | failed plain =>
    rw [Effect.phase, (Outcome.plain_clean plain).2.2] at drawn
    cases drawn
  | _ => first | exact ok source artifact drawn | exact (nomatch drawn)

theorem placed_stable (rt : Runtime) (g : Guard Database Outside Phase Input)
    (known : Assertion Database Outside Phase Write) :
    Stable (resumeSystem rt) g known (Assertion.phase Placed) := by
  refine phase_stable ?_ ?_ ?_
  · intro outside request phase outside' started
    cases started
    cases request <;>
      exact ⟨.none (fun _ _ same => nomatch same) rfl, fun _ _ holds => (nomatch holds), fun _ _ drawn =>
        (nomatch drawn)⟩
  · intro db outside phase input effect next ok
    have step := next_cases next
    exact ⟨next_publishOk step ok.publish, next_house step ok.house, next_drawn step ok.drawn⟩
  · intro phase ok
    cases phase <;> first
      | exact ok
      | exact ⟨.none (fun _ _ same => nomatch same) rfl, fun _ _ holds => (nomatch holds), fun _ _ drawn =>
          (nomatch drawn)⟩

end Placing

section Steps

variable {rt : Runtime} {db : Database} {outside outside' : Outside} {phase : Phase} {input : Input}
  {effect : Effect Outside Phase Write} {f g : Fact}

theorem Phase.mem_facts : f ∈ phase.facts ↔ (∃ held, phase.held? = some held ∧ f ∈ held.facts) ∨
    (∃ source, phase.source? = some source ∧ f = .revision source) ∨
    (∃ job, phase.jobObject? = some job ∧ f ∈ job.facts) ∨
      f ∈ phase.made := by
  simp [Phase.facts, eq_comm]

theorem Database.mem_facts : f ∈ db.facts ↔ (∃ row ∈ db.workspaces, f ∈ row.facts) ∨
    (∃ row ∈ db.revisions, .revision row = f) ∨ (∃ row ∈ db.jobs, f ∈ row.facts) ∨
    (∃ row ∈ db.artifacts, row.fact = f) ∨ ∃ row ∈ db.applications, f ∈ row.facts := by
  simp [Database.facts]

theorem deleted_facts {workspaceId : Nat} (stays : f ∈ (db.delete workspaceId).facts) : f ∈ db.facts := by
  rw [Database.mem_facts] at stays ⊢
  rcases stays with ⟨row, member, here⟩ | ⟨row, member, here⟩ | ⟨row, member, here⟩ | ⟨row, member,
    here⟩ | ⟨row, member, here⟩
  · exact .inl ⟨row, (List.mem_filter.mp member).1, here⟩
  · exact .inr (.inl ⟨row, (List.mem_filter.mp member).1, here⟩)
  · obtain ⟨job, inside, rfl⟩ := List.mem_map.mp member
    refine .inr (.inr (.inl ⟨job, (List.mem_filter.mp inside).1, ?_⟩))
    rcases List.mem_append.mp here with fixed | result
    · exact List.mem_append_left _ fixed
    · obtain ⟨revisionId, named, rfl⟩ := List.mem_map.mp result
      refine List.mem_append_right _ (List.mem_map.mpr ⟨revisionId, ?_, rfl⟩)
      have kept := Option.mem_toList.mp named
      exact Option.mem_toList.mpr (Option.mem_def.mpr (Option.filter_eq_some_iff.mp kept).1)
  · exact .inr (.inr (.inr (.inl ⟨row, (List.mem_filter.mp member).1, here⟩)))
  · obtain ⟨application, inside, rfl⟩ := List.mem_map.mp member
    refine .inr (.inr (.inr (.inr ⟨application, inside, ?_⟩)))
    simp only [ApplicationRecord.facts, keepReference, List.mem_append, List.mem_flatMap, Option.mem_toList,
      Option.filter_eq_some_iff, List.mem_cons, List.mem_map] at here ⊢
    rcases here with copied | ⟨id, ⟨kept, _⟩, rfl | ⟨revisionId, ⟨named, _⟩, rfl⟩⟩
    · exact .inl copied
    · exact .inr ⟨id, kept, .inl rfl⟩
    · exact .inr ⟨id, kept, .inr ⟨revisionId, named, rfl⟩⟩

theorem mapped_facts {α : Type} {rows : List α} {facts : α → List Fact} {change : α → α} {new : List Fact}
    (kept : ∀ row ∈ rows, ∀ f ∈ facts (change row), f ∈ facts row ∨ f ∈ new)
    (here : f ∈ (rows.map change).flatMap facts) :
    f ∈ rows.flatMap facts ∨ f ∈ new := by
  rw [List.flatMap_map, List.mem_flatMap] at here
  obtain ⟨row, member, here⟩ := here
  exact (kept row member f here).imp_left fun old => List.mem_flatMap.mpr ⟨row, member, old⟩

theorem set_facts {job : ResumeJob} {update : JobUpdate} (here : f ∈ (job.set update).facts) :
    f ∈ job.facts ∨ ∃ revisionId, update.resultRevisionId = some revisionId ∧
      f = .home revisionId job.workspaceId := by
  rcases List.mem_append.mp here with fixed | result
  · exact .inl (List.mem_append_left _ fixed)
  · obtain ⟨revisionId, named, rfl⟩ := List.mem_map.mp result
    rcases Option.or_eq_some_iff.mp (Option.mem_toList.mp named) with new | ⟨_, old⟩
    · exact .inr ⟨revisionId, new, rfl⟩
    · exact .inl (List.mem_append_right _ (List.mem_map.mpr ⟨revisionId, Option.mem_toList.mpr old, rfl⟩))

theorem fact_applies (rt : Runtime) : (resumeFacts rt).Applied (resumeSystem rt) := by
  intro db w f agreed here
  change f ∈ (applyWrite db w).facts at here
  change f ∈ db.facts ∨ f ∈ w.facts
  have others : ∀ db' : Database, db'.revisions = db.revisions → db'.artifacts = db.artifacts →
    db'.applications = db.applications →
      (f ∈ db'.workspaces.flatMap ResumeWorkspace.facts → f ∈ db.workspaces.flatMap ResumeWorkspace.facts ∨
        f ∈ w.facts) →
      (f ∈ db'.jobs.flatMap ResumeJob.facts → f ∈ db.jobs.flatMap ResumeJob.facts ∨ f ∈ w.facts) →
      f ∈ db'.facts → f ∈ db.facts ∨ f ∈ w.facts := by
    intro db' revisions artifacts applications workspaces jobs here
    simp only [Database.facts, List.mem_append, revisions, artifacts, applications] at here ⊢
    tauto
  cases w with
  | deleteWorkspace workspaceId => exact .inl (deleted_facts here)
  | setCurrentRevision workspaceId revisionId =>
    refine others (applyWrite db (.setCurrentRevision workspaceId revisionId)) rfl rfl rfl (fun here =>
      mapped_facts ?_ here) .inl here
    intro row member f inside
    dsimp only at inside
    split at inside
    · rename_i same
      rcases List.mem_cons.mp inside with owner | pointer
      · exact .inl (owner ▸ List.mem_cons_self)
      · rw [List.mem_singleton.mp pointer]
        exact .inr (same ▸ List.mem_cons_self)
    · exact .inl inside
  | setStatus workspaceId status =>
    refine others (applyWrite db (.setStatus workspaceId status)) rfl rfl rfl (fun here =>
      mapped_facts ?_ here) .inl here
    intro row member f inside
    dsimp only at inside
    split at inside <;> exact .inl inside
  | updateJob workspaceId jobId update =>
    refine others (applyWrite db (.updateJob workspaceId jobId update)) rfl rfl rfl .inl (fun here =>
      mapped_facts ?_ here) here
    intro row member f inside
    split at inside
    · rename_i same
      rcases set_facts inside with old | ⟨revisionId, named, rfl⟩
      · exact .inl old
      · have stored : Fact.jobHome row.id row.workspaceId ∈ db.facts := by
          refine Database.mem_facts.mpr (.inr (.inr (.inl ⟨row, member, ?_⟩)))
          simp [ResumeJob.facts]
        have home : row.workspaceId = workspaceId := (agreed _ _ stored List.mem_cons_self).1 same
        refine .inr (List.mem_cons_of_mem _ (List.mem_map.mpr ⟨revisionId, Option.mem_toList.mpr named, ?_⟩))
        rw [home]
    · exact .inl inside
  | updateApplication applicationId changes =>
    rw [Database.mem_facts] at here
    rcases here with row | row | row | row | ⟨row, member, inside⟩
    · exact .inl (Database.mem_facts.mpr (.inl row))
    · exact .inl (Database.mem_facts.mpr (.inr (.inl row)))
    · exact .inl (Database.mem_facts.mpr (.inr (.inr (.inl row))))
    · exact .inl (Database.mem_facts.mpr (.inr (.inr (.inr (.inl row)))))
    · obtain ⟨old, stored, rfl⟩ := List.mem_map.mp member
      refine .inl (Database.mem_facts.mpr (.inr (.inr (.inr (.inr ⟨old, stored, ?_⟩)))))
      split at inside
      · obtain ⟨fields, same⟩ := setattr_kept old changes
        rw [same] at inside
        exact inside
      · exact inside
  | deleteApplication applicationId =>
    rw [Database.mem_facts] at here ⊢
    rcases here with row | row | row | row | ⟨row, member, inside⟩
    · exact .inl (.inl row)
    · exact .inl (.inr (.inl row))
    · exact .inl (.inr (.inr (.inl row)))
    · exact .inl (.inr (.inr (.inr (.inl row))))
    · exact .inl (.inr (.inr (.inr (.inr ⟨row, (List.mem_filter.mp member).1, inside⟩))))
  | _ =>
    simp only [applyWrite, Database.facts, List.flatMap_append, List.flatMap_singleton, List.map_append,
      List.map_cons, List.map_nil, List.mem_append, Write.facts] at here ⊢
    tauto

inductive New (rt : Runtime) (outside : Outside) : Phase → Fact → Prop
  | owner {userId key} : New rt outside (.create userId key) (.owner outside.nextWorkspaceId userId)
  | revision {writer text} :
      New rt outside (.insertRevision writer text)
      (.revision (revisionRow writer outside.nextRevisionId text))
  | home {writer text} :
      New rt outside (.insertRevision writer text) (.home outside.nextRevisionId writer.workspaceId)
  | jobHome {held kind} : New rt outside (.insertJob held kind) (.jobHome outside.nextJobId held.id)
  | jobKind {held kind} : New rt outside (.insertJob held kind) (.jobKind outside.nextJobId kind)
  | stored {held source reader pdf} (drawn : rendered rt source.documentJson = some pdf) :
      New rt outside (.artifact held source reader) (.stored (storageKey held source) pdf)
  | digest {held source reader pdf} :
      New rt outside (.store held source reader pdf)
        (.digest source.id (storageKey held source) pdf.length (sha256 pdf))
  | application {held source fields rendering} :
      New rt outside (.insertApplication held source fields rendering)
      (.application outside.nextApplicationId held.userId
        (applicationRow held source fields rendering outside.nextApplicationId).toApplicationSnapshot)

section New

variable {base : Fact → Prop}

theorem follows_fresh_owner (userId : Nat) :
    (resumeFacts rt).Follows outside base (.owner outside.nextWorkspaceId userId) := by
  intro g known _
  cases g with
  | owner workspaceId user =>
    have apart : workspaceId ≠ outside.nextWorkspaceId := Nat.ne_of_lt known
    exact ⟨fun same => absurd same.symm apart, fun same => absurd same apart⟩
  | _ => exact ⟨trivial, trivial⟩

theorem follows_fresh_revision {row : ResumeRevision} (fresh : row.id = outside.nextRevisionId) :
    (resumeFacts rt).Follows outside base (.revision row) := by
  intro g known _
  cases g with
  | revision other =>
    have apart : other.id ≠ row.id := fresh ▸ Nat.ne_of_lt known
    exact ⟨fun same => absurd same.symm apart, fun same => absurd same apart⟩
  | home revisionId workspaceId =>
    have apart : revisionId ≠ row.id := fresh ▸ Nat.ne_of_lt known
    exact ⟨fun same => absurd same.symm apart, trivial⟩
  | stored key pdf =>
    obtain ⟨userId, workspaceId, revisionId, named, bound⟩ := known
    refine ⟨fun user workspace same => ?_, trivial⟩
    have apart : revisionId ≠ row.id := fresh ▸ Nat.ne_of_lt bound
    exact absurd (keyOf_inj (named.symm.trans same)) apart
  | digest revisionId key byteSize sha =>
    have apart : revisionId ≠ row.id := fresh ▸ Nat.ne_of_lt known.2
    exact ⟨fun same => absurd same.symm apart, trivial⟩
  | _ => exact ⟨trivial, trivial⟩

theorem follows_fresh_home (workspaceId : Nat) :
    (resumeFacts rt).Follows outside base (.home outside.nextRevisionId workspaceId) := by
  intro g known _
  cases g with
  | revision row =>
    have apart : row.id ≠ outside.nextRevisionId := Nat.ne_of_lt known
    exact ⟨trivial, fun same => absurd same apart⟩
  | home revisionId place =>
    have apart : revisionId ≠ outside.nextRevisionId := Nat.ne_of_lt known
    exact ⟨fun same => absurd same.symm apart, fun same => absurd same apart⟩
  | _ => exact ⟨trivial, trivial⟩

theorem follows_fresh_jobHome (workspaceId : Nat) :
    (resumeFacts rt).Follows outside base (.jobHome outside.nextJobId workspaceId) := by
  intro g known _
  cases g with
  | jobHome jobId place =>
    have apart : jobId ≠ outside.nextJobId := Nat.ne_of_lt known
    exact ⟨fun same => absurd same.symm apart, fun same => absurd same apart⟩
  | _ => exact ⟨trivial, trivial⟩

theorem follows_fresh_jobKind (kind : JobKind) :
    (resumeFacts rt).Follows outside base (.jobKind outside.nextJobId kind) := by
  intro g known _
  cases g with
  | jobKind jobId other =>
    have apart : jobId ≠ outside.nextJobId := Nat.ne_of_lt known
    exact ⟨fun same => absurd same.symm apart, fun same => absurd same apart⟩
  | _ => exact ⟨trivial, trivial⟩

theorem follows_fresh_application (userId : Nat) (snapshot : ApplicationSnapshot) :
    (resumeFacts rt).Follows outside base (.application outside.nextApplicationId userId snapshot) := by
  intro g known _
  cases g with
  | application other user copy =>
    have apart : other ≠ outside.nextApplicationId := Nat.ne_of_lt known.1
    exact ⟨fun same => absurd same.symm apart, fun same => absurd same apart⟩
  | _ => exact ⟨trivial, trivial⟩

theorem follows_stored {source : ResumeRevision} (held : ResumeWorkspace) {pdf : List UInt8}
    (loaded : base (.revision source)) (drawn : rendered rt source.documentJson = some pdf) :
    (resumeFacts rt).Follows outside base (.stored (storageKey held source) pdf) := by
  intro g known agrees
  cases g with
  | revision row =>
    refine ⟨trivial, fun userId workspaceId same => ?_⟩
    have named : source.id = row.id := keyOf_inj same
    rw [← (agrees _ loaded).1 named]
    exact drawn
  | stored key bytes =>
    have other : key = storageKey held source → bytes = pdf := by
      intro same
      have theirs := (agrees _ loaded).1 held.userId held.id same
      exact Option.some.inj (theirs.symm.trans drawn)
    exact ⟨fun same => (other same.symm).symm, other⟩
  | digest revisionId key byteSize sha =>
    refine ⟨trivial, fun same => ?_⟩
    obtain ⟨⟨userId, workspaceId, named⟩, _⟩ := known
    have mine : source.id = revisionId := (keyOf_inj (named.symm.trans same)).symm
    obtain ⟨bytes, theirs, size, digest⟩ := (agrees _ loaded).1 mine
    cases theirs.symm.trans drawn
    exact ⟨size, digest⟩
  | _ => exact ⟨trivial, trivial⟩

theorem follows_digest {source : ResumeRevision} {held : ResumeWorkspace} {pdf : List UInt8}
    (loaded : base (.revision source)) (made : base (.stored (storageKey held source) pdf))
    (drawn : rendered rt source.documentJson = some pdf) :
    (resumeFacts rt).Follows outside base
    (.digest source.id (storageKey held source) pdf.length (sha256 pdf)) := by
  intro g known agrees
  cases g with
  | revision row =>
    refine ⟨trivial, fun same => ?_⟩
    rw [← (agrees _ loaded).1 same.symm]
    exact ⟨pdf, drawn, rfl, rfl⟩
  | stored key bytes =>
    refine ⟨fun same => ?_, trivial⟩
    have theirs : pdf = bytes := (agrees _ made).1 same
    rw [theirs]
    exact ⟨rfl, rfl⟩
  | _ => exact ⟨trivial, trivial⟩

theorem adds_new (sound : (resumeFacts rt).Sound outside base) (inPhase : ∀ f ∈ phase.facts, base f)
    (kept : ∀ f : Fact, f.Known rt outside → f.Known rt outside') :
    (resumeFacts rt).Adds outside outside' base fun f => New rt outside phase f ∧ f.Known rt outside' := by
  refine ⟨fun f new => new.2, ?_, ?_, kept⟩
  · rintro f ⟨new, _⟩
    cases new with
    | owner => exact follows_fresh_owner _
    | revision => exact follows_fresh_revision rfl
    | home => exact follows_fresh_home _
    | jobHome => exact follows_fresh_jobHome _
    | jobKind => exact follows_fresh_jobKind _
    | stored drawn =>
        exact follows_stored _ (inPhase _ (Phase.mem_facts.mpr (.inr (.inl ⟨_, rfl, rfl⟩)))) drawn
    | digest =>
      have loaded := inPhase _ (Phase.mem_facts.mpr (.inr (.inl ⟨_, rfl, rfl⟩)))
      have made := inPhase _ (Phase.mem_facts.mpr (.inr (.inr (.inr List.mem_cons_self))))
      exact follows_digest loaded made ((sound.agreed _ _ loaded made).1 _ _ rfl)
    | application => exact follows_fresh_application _ _
  · rintro f g ⟨first, _⟩ ⟨second, _⟩
    cases first with
    | stored drawn =>
      cases second with
      | stored other =>
        cases drawn.symm.trans other
        exact ⟨fun _ => rfl, fun _ => rfl⟩
    | revision =>
      cases second with
      | revision => exact ⟨fun _ => rfl, fun _ => rfl⟩
      | home => exact ⟨fun _ => rfl, trivial⟩
    | home =>
      cases second with
      | revision => exact ⟨trivial, fun _ => rfl⟩
      | home => exact ⟨fun _ => rfl, fun _ => rfl⟩
    | digest =>
      cases second
      exact ⟨trivial, trivial⟩
    | jobHome =>
      cases second with
      | jobHome => exact ⟨fun _ => rfl, fun _ => rfl⟩
      | jobKind => exact ⟨trivial, trivial⟩
    | jobKind =>
      cases second with
      | jobHome => exact ⟨trivial, trivial⟩
      | jobKind => exact ⟨fun _ => rfl, fun _ => rfl⟩
    | owner =>
      cases second
      exact ⟨fun _ => rfl, fun _ => rfl⟩
    | application =>
      cases second
      exact ⟨fun _ => ⟨rfl, rfl⟩, fun _ => ⟨rfl, rfl⟩⟩

end New

theorem job?_object {job : ResumeJob} (running : phase.job? = some job) : phase.jobObject? = some job := by
  cases phase with
  | artifact held source reader => cases reader <;> exact running
  | readStored held source reader row => cases reader <;> exact running
  | store held source reader pdf => cases reader <;> exact running
  | _ => first | exact running | cases running

theorem next_job (step : Next rt db outside phase input effect) {job : ResumeJob}
    (employs : effect.phase.jobObject? = some job) :
    (∃ old, phase.jobObject? = some old ∧ old.facts = job.facts) ∨ job ∈ db.jobs ∨ ∃ held kind,
    phase = .insertJob held kind ∧
      job = ⟨outside.nextJobId, held.userId, held.id, kind, .queued, none, none⟩ := by
  cases step with
  | queued =>
    cases employs
    exact .inr (.inr ⟨_, _, rfl, rfl⟩)
  | started found =>
    cases employs
    exact .inr (.inl (List.mem_of_find?_eq_some found))
  | verified => exact .inl ⟨job, (afterRendering_job _ _ _ _).symm.trans employs, rfl⟩
  | catalogued => exact .inl ⟨job, (afterRendering_job _ _ _ _).symm.trans employs, rfl⟩
  | publishing publishes found =>
    rename_i call reader source
    cases call <;> cases publishes <;> cases employs
  | jobFailed running =>
    cases employs
    exact .inl ⟨_, job?_object running, rfl⟩
  | committed =>
    rename_i batch sent all
    cases batch with
    | startJob function row =>
      cases employs
      exact .inl ⟨row, rfl, rfl⟩
    | _ => exact .inl ⟨job, employs, rfl⟩
  | failed plain =>
    rw [Effect.phase, (Outcome.plain_clean plain).2.1] at employs
    cases employs
  | _ => first | exact .inl ⟨job, employs, rfl⟩ | exact (nomatch employs)

theorem next_kept (step : Next rt db outside phase input effect) :
    ∀ f : Fact, f.Known rt outside → f.Known rt (effect.outside outside) := by
  have later : ∀ {outside' : Outside}, outside.nextWorkspaceId ≤ outside'.nextWorkspaceId →
      outside.nextRevisionId ≤ outside'.nextRevisionId → outside.nextJobId ≤ outside'.nextJobId →
      outside.nextApplicationId ≤ outside'.nextApplicationId → ∀ f : Fact, f.Known rt outside →
          f.Known rt outside' := by
    intro outside' workspaces revisions jobs applications f known
    cases f with
    | owner => exact Nat.lt_of_lt_of_le known workspaces
    | revision => exact Nat.lt_of_lt_of_le known revisions
    | home => exact Nat.lt_of_lt_of_le known revisions
    | jobHome => exact Nat.lt_of_lt_of_le known jobs
    | jobKind => exact Nat.lt_of_lt_of_le known jobs
    | stored =>
      obtain ⟨userId, workspaceId, revisionId, named, bound⟩ := known
      exact ⟨userId, workspaceId, revisionId, named, Nat.lt_of_lt_of_le bound revisions⟩
    | digest => exact ⟨known.1, Nat.lt_of_lt_of_le known.2 revisions⟩
    | application => exact ⟨Nat.lt_of_lt_of_le known.1 applications, known.2⟩
  cases step with
  | created => exact later (Nat.le_succ _) (Nat.le_refl _) (Nat.le_refl _) (Nat.le_refl _)
  | inserted => exact later (Nat.le_refl _) (Nat.le_succ _) (Nat.le_refl _) (Nat.le_refl _)
  | queued => exact later (Nat.le_refl _) (Nat.le_refl _) (Nat.le_succ _) (Nat.le_refl _)
  | applied => exact later (Nat.le_refl _) (Nat.le_refl _) (Nat.le_refl _) (Nat.le_succ _)
  | _ => exact later (Nat.le_refl _) (Nat.le_refl _) (Nat.le_refl _) (Nat.le_refl _)

section Covered

variable {base : Fact → Prop}

structure Relies (rt : Runtime) (db : Database) (outside : Outside) (phase : Phase) (base : Fact → Prop) :
    Prop where
  sound : (resumeFacts rt).Sound outside base
  phase : ∀ f ∈ phase.facts, base f
  view : ∀ f ∈ db.facts, base f
  storage : ∀ entry ∈ outside.storage, base (.stored entry.1 entry.2)

theorem Relies.held (relies : Relies rt db outside phase base) {held : ResumeWorkspace}
    (holds : phase.held? = some held) :
    ∀ f ∈ held.facts, base f :=
  fun f member => relies.phase f (Phase.mem_facts.mpr (.inl ⟨held, holds, member⟩))

theorem Relies.source (relies : Relies rt db outside phase base) {source : ResumeRevision}
    (loads : phase.source? = some source) :
    base (.revision source) := relies.phase _ (Phase.mem_facts.mpr (.inr (.inl ⟨source, loads, rfl⟩)))

theorem Relies.job (relies : Relies rt db outside phase base) {job : ResumeJob}
    (employs : phase.jobObject? = some job) :
    ∀ f ∈ job.facts, base f :=
  fun f member => relies.phase f (Phase.mem_facts.mpr (.inr (.inr (.inl ⟨job, employs, member⟩))))

theorem Relies.made (relies : Relies rt db outside phase base) : ∀ f ∈ phase.made, base f :=
  fun f member => relies.phase f (Phase.mem_facts.mpr (.inr (.inr (.inr member))))

theorem jobHome_mem (job : ResumeJob) : Fact.jobHome job.id job.workspaceId ∈ job.facts :=
  by simp [ResumeJob.facts]

theorem lookup_entry {storage : List (Str × List UInt8)} {key : Str} {pdf : List UInt8}
    (found : storage.lookup key = some pdf) :
    (key, pdf) ∈ storage := by
  obtain ⟨before, after, same, _⟩ := List.lookup_eq_some_iff.mp found
  exact same ▸ List.mem_append_right _ List.mem_cons_self

theorem Batch.covered {batch : Batch} {sent : Nat} (relies : Relies rt db outside (.flush batch sent) base)
    (ok : Placed (.flush batch sent)) {w : Write} (member : w ∈ batch.writes) : ∀ f ∈ w.facts, base f := by
  intro f here
  have made := relies.made
  have result : ∀ {job : ResumeJob} {status : JobStatus} {revisionId : Option Nat}
    {error : Option (Str × Str)},
      (Phase.flush batch sent).jobObject? = some job →
        (∀ id, revisionId = some id → base (.home id job.workspaceId)) →
      f ∈ Write.facts (.updateJob job.workspaceId job.id ⟨status, revisionId, error⟩) → base f := by
    intro job status revisionId error employs home here
    rcases List.mem_cons.mp here with rfl | here
    · exact relies.job employs _ (jobHome_mem job)
    · obtain ⟨id, named, rfl⟩ := List.mem_map.mp here
      exact home id (Option.mem_toList.mp named)
  have drawn : ∀ {held : ResumeWorkspace} {rendering : Rendering}, (∀ g ∈ rendering.facts, base g) →
      w ∈ rendering.writes held → base f := by
    intro held rendering facts member
    rw [Rendering.writes] at member
    split at member
    · rw [List.mem_singleton.mp member] at here
      exact facts f (by simpa [Rendering.facts, Write.facts] using .inl (List.mem_singleton.mp here))
    · cases member
  cases batch with
  | revision writer revisionId text =>
    simp only [Batch.writes, List.mem_append, List.mem_cons, List.not_mem_nil, or_false] at member
    rcases member with (before | rfl | rfl) | reported
    · exact made f (List.mem_append_left _ (List.mem_flatMap.mpr ⟨w, before, here⟩))
    · exact made f (List.mem_append_right _ (by rw [List.mem_singleton.mp here]; exact List.mem_cons_self))
    · exact made f (List.mem_append_right _ (List.mem_cons_of_mem _ here))
    · cases writer with
      | worker job held source =>
        rw [List.mem_singleton.mp reported] at here
        refine result rfl ?_ here
        intro id named
        cases named
        rw [← ok.house held job rfl rfl]
        exact made _ (List.mem_append_right _ (List.mem_cons_of_mem _ List.mem_cons_self))
      | create workspace => cases reported
      | save held caller payload number => cases reported
  | approve held =>
    rw [Batch.writes] at member
    split at member
    · cases member
    · rw [List.mem_singleton.mp member] at here
      cases here
  | delete held =>
    rcases List.mem_cons.mp member with rfl | member
    · cases here
    · rw [List.mem_singleton.mp member] at here
      cases here
  | queueJob row =>
    rw [List.mem_singleton.mp member] at here
    exact relies.job rfl f here
  | startJob function job =>
    rw [Batch.writes] at member
    split at member
    · cases member
    · rw [List.mem_singleton.mp member] at here
      exact result rfl (fun _ named => absurd named (Option.some_ne_none _).symm) here
  | failJob job code message =>
    rw [List.mem_singleton.mp member] at here
    exact result rfl (fun _ named => absurd named (Option.some_ne_none _).symm) here
  | exported held source rendering => exact drawn made member
  | rendered job held source rendering =>
    rcases List.mem_append.mp member with inserted | updated
    · exact drawn made inserted
    · rw [List.mem_singleton.mp updated] at here
      refine result rfl ?_ here
      intro id named
      cases named
      have pointer := (ok.publish.published held source rfl).2.2
      rw [← ok.house held job rfl rfl]
      exact relies.held rfl _
        (List.mem_cons_of_mem _ (List.mem_map.mpr ⟨source.id, Option.mem_toList.mpr pointer, rfl⟩))
  | applied held source fields rendering applicationId =>
    rcases List.mem_append.mp member with inserted | added
    · exact drawn (fun g inside => made g (List.mem_append_left _ inside)) inserted
    · rw [List.mem_singleton.mp added] at here
      exact made f (List.mem_append_right _ here)
  | tracked row fields =>
    rw [Batch.writes] at member
    split at member
    · cases member
    · rw [List.mem_singleton.mp member] at here
      cases here
  | removed row =>
    rw [List.mem_singleton.mp member] at here
    cases here

theorem Relies.holds (relies : Relies rt db outside phase base) (step : Next rt db outside phase input effect)
    {held : ResumeWorkspace} (holds : effect.phase.held? = some held) : ∀ f ∈ held.facts, base f := by
  rcases next_held step with nothing | kept | ⟨_, other, member, loaded⟩
  · exact absurd (nothing.symm.trans holds) (fun same => nomatch same)
  · exact relies.held (kept ▸ holds)
  · cases Option.some.inj (loaded.symm.trans holds)
    exact fun f here => relies.view f (Database.mem_facts.mpr (.inl ⟨held, member, here⟩))

theorem Relies.loads (relies : Relies rt db outside phase base) (step : Next rt db outside phase input effect)
    {source : ResumeRevision} (loads : effect.phase.source? = some source) : base (.revision source) := by
  rcases next_source step with nothing | ⟨kept, _⟩ | ⟨_, other, row, _, _, loaded, member, _⟩
  · exact absurd (nothing.symm.trans loads) (fun same => nomatch same)
  · exact relies.source (kept ▸ loads)
  · cases Option.some.inj (loaded.symm.trans loads)
    exact relies.view _ (Database.mem_facts.mpr (.inr (.inl ⟨source, member, rfl⟩)))

theorem Relies.queued {held : ResumeWorkspace} {kind : JobKind}
    (relies : Relies rt db outside (.insertJob held kind) base)
    (here : f ∈ (ResumeJob.mk outside.nextJobId held.userId held.id kind .queued none none).facts) :
    base f ∨ New rt outside (.insertJob held kind) f ∧
      f.Known rt { outside with nextJobId := outside.nextJobId + 1 } := by
  simp only [ResumeJob.facts, Option.toList_none, List.map_nil, List.append_nil, List.mem_cons,
    List.not_mem_nil, or_false] at here
  rcases here with rfl | rfl | rfl
  · exact .inl (relies.held rfl _ List.mem_cons_self)
  · exact .inr ⟨.jobHome, Nat.lt_succ_self _⟩
  · exact .inr ⟨.jobKind, Nat.lt_succ_self _⟩

theorem afterRendering_made (held : ResumeWorkspace) (source : ResumeRevision) (rendering : Rendering)
    (reader : Reader) :
    (afterRendering held source rendering reader).made = rendering.facts := by
  cases reader <;> rfl

/-- An application copies the document of the revision that was loaded, its rendering and the digest of
    that. -/
theorem Relies.faithful {held : ResumeWorkspace} {source : ResumeRevision} {fields : ApplicationFields}
    {rendering : Rendering}
    (relies : Relies rt db outside (.insertApplication held source fields rendering) base)
    (ok : Placed (.insertApplication held source fields rendering)) (applicationId : Nat) :
    Faithful rt (applicationRow held source fields rendering applicationId).toApplicationSnapshot := by
  have drawn : rendering.artifact.revisionId = source.id := ok.drawn _ _ rfl
  have digest := relies.made rendering.artifact.fact List.mem_cons_self
  have stored := relies.made (.stored rendering.artifact.storageKey rendering.pdf)
    (List.mem_cons_of_mem _ List.mem_cons_self)
  obtain ⟨⟨userId, workspaceId, named⟩, _⟩ := relies.sound.known _ digest
  have loaded : base (.revision source) := relies.source rfl
  refine ⟨rfl, ?_, ?_⟩
  · exact (relies.sound.agreed _ _ loaded stored).1 userId workspaceId (drawn ▸ named)
  · exact ((relies.sound.agreed _ _ digest stored).1 rfl).2

theorem Relies.applied {held : ResumeWorkspace} {source : ResumeRevision} {fields : ApplicationFields}
    {rendering : Rendering}
    (relies : Relies rt db outside (.insertApplication held source fields rendering) base)
    (ok : Placed (.insertApplication held source fields rendering))
    (here : f ∈ (applicationRow held source fields rendering outside.nextApplicationId).facts) :
    base f ∨ New rt outside (.insertApplication held source fields rendering) f ∧
      f.Known rt { outside with nextApplicationId := outside.nextApplicationId + 1 } := by
  have pointer := (ok.publish.published held source rfl).2.2
  simp only [ApplicationRecord.facts, applicationRow, Option.toList_some, List.flatMap_singleton,
    List.map_cons, List.map_nil, List.cons_append, List.nil_append, List.mem_cons, List.not_mem_nil,
    or_false] at here
  rcases here with rfl | rfl | rfl | rfl
  · exact .inr ⟨.application, Nat.lt_succ_self _, relies.faithful ok outside.nextApplicationId⟩
  · exact .inl (relies.made _ (List.mem_cons_of_mem _ List.mem_cons_self))
  · exact .inl (relies.held rfl _ List.mem_cons_self)
  · exact .inl (relies.held rfl _
      (List.mem_cons_of_mem _ (List.mem_map.mpr ⟨source.id, Option.mem_toList.mpr pointer, rfl⟩)))

theorem next_made (relies : Relies rt db outside phase base) (ok : Placed phase)
    (step : Next rt db outside phase input effect) :
    ∀ f ∈ effect.phase.made, base f ∨ New rt outside phase f ∧ f.Known rt (effect.outside outside) := by
  intro f here
  cases step with
  | created =>
    obtain rfl := List.mem_singleton.mp here
    exact .inr ⟨.owner, Nat.lt_succ_self _⟩
  | inserted =>
    rename_i writer text
    rcases List.mem_append.mp here with old | new
    · exact .inl (relies.made f old)
    · simp only [List.mem_cons, List.not_mem_nil, or_false] at new
      rcases new with rfl | rfl
      · exact .inr ⟨.revision, Nat.lt_succ_self _⟩
      · exact .inr ⟨.home, Nat.lt_succ_self _⟩
  | rendered found =>
    obtain rfl := List.mem_singleton.mp here
    exact .inl (relies.view _
      (Database.mem_facts.mpr (.inr (.inr (.inr (.inl ⟨_, (artifact?_some found).1, rfl⟩))))))
  | rendering absent read drawn =>
    rename_i held source reader document pdf
    obtain rfl := List.mem_singleton.mp here
    have bound := relies.sound.known (.revision source) (relies.source rfl)
    refine .inr ⟨.stored ?_, held.userId, held.id, source.id, rfl, bound⟩
    rw [rendered, read]
    exact drawn
  | verified kept digest =>
    rw [Effect.phase, afterRendering_made] at here
    rcases List.mem_cons.mp here with rfl | here
    · exact .inl (relies.made _ List.mem_cons_self)
    · obtain rfl := List.mem_singleton.mp here
      exact .inl (relies.storage _ (lookup_entry kept))
  | put =>
    rename_i held source reader pdf _
    have bound := relies.sound.known (.revision source) (relies.source rfl)
    rcases List.mem_cons.mp here with rfl | here
    · exact .inr ⟨.digest, ⟨held.userId, held.id, rfl⟩, bound⟩
    · obtain rfl := List.mem_singleton.mp here
      exact .inl (relies.made _ List.mem_cons_self)
  | catalogued =>
    rw [Effect.phase, afterRendering_made] at here
    exact .inl (relies.made f here)
  | applied =>
    rcases List.mem_append.mp here with old | new
    · exact .inl (relies.made f old)
    · exact relies.applied ok new
  | sent => exact .inl (relies.made f here)
  | tracking found =>
    exact .inl (relies.view f
      (Database.mem_facts.mpr (.inr (.inr (.inr (.inr ⟨_, List.mem_of_find?_eq_some found, here⟩))))))
  | removing found =>
    exact .inl (relies.view f
      (Database.mem_facts.mpr (.inr (.inr (.inr (.inr ⟨_, List.mem_of_find?_eq_some found, here⟩))))))
  | committed =>
    rename_i batch sent all
    cases batch <;> exact .inl (relies.made f here)
  | failed plain =>
    rename_i outcome
    cases outcome <;> first | cases here | cases plain
  | _ => cases here

theorem next_written {w : Write} {phase' : Phase} (relies : Relies rt db outside phase base)
    (ok : Placed phase) (step : Next rt db outside phase input (.write w phase' outside')) :
    ∀ f ∈ w.facts, base f ∨ New rt outside phase f ∧ f.Known rt outside' := by
  intro f here
  cases step with
  | created =>
    obtain rfl := List.mem_singleton.mp here
    exact .inr ⟨.owner, Nat.lt_succ_self _⟩
  | inserted =>
    obtain rfl := List.mem_singleton.mp here
    exact .inr ⟨.revision, Nat.lt_succ_self _⟩
  | queued => exact relies.queued here
  | catalogued =>
    obtain rfl := List.mem_singleton.mp here
    exact .inl (relies.made _ List.mem_cons_self)
  | applied => exact relies.applied ok here
  | sent more => exact .inl (Batch.covered relies ok (List.mem_of_getElem? more) f here)

theorem next_stored (relies : Relies rt db outside phase base)
    (step : Next rt db outside phase input effect) :
    ∀ entry ∈ (effect.outside outside).storage, base (.stored entry.1 entry.2) := by
  intro entry here
  cases step with
  | put =>
    rcases List.mem_cons.mp here with rfl | old
    · exact relies.made _ List.mem_cons_self
    · exact relies.storage entry old
  | _ => exact relies.storage entry here

theorem next_covered (relies : Relies rt db outside phase base) (ok : Placed phase)
    (step : Next rt db outside phase input effect) :
    ∀ f, (resumeFacts rt).effect effect f → base f ∨ New rt outside phase f ∧
      f.Known rt (effect.outside outside) := by
  have inPhase : ∀ f ∈ effect.phase.facts, base f ∨ New rt outside phase f ∧
      f.Known rt (effect.outside outside) := by
    intro f here
    rcases Phase.mem_facts.mp here with ⟨held, holds, here⟩ | ⟨source, loads, rfl⟩ | ⟨job,
      employs, here⟩ | made
    · exact .inl (relies.holds step holds f here)
    · exact .inl (relies.loads step loads)
    · rcases next_job step employs with ⟨old, employed, same⟩ | stored | ⟨held, kind, rfl, rfl⟩
      · exact .inl (relies.job employed f (same ▸ here))
      · exact .inl (relies.view f (Database.mem_facts.mpr (.inr (.inr (.inl ⟨job, stored, here⟩)))))
      · cases step with
        | queued => exact relies.queued here
        | jobFailed running => cases running
        | failed plain =>
          rw [Effect.phase, (Outcome.plain_clean plain).2.1] at employs
          cases employs
        | blamed => cases employs
    · exact next_made relies ok step f made
  have stored : ∀ f, (∃ entry ∈ (effect.outside outside).storage, f = .stored entry.1 entry.2) → base f := by
    rintro f ⟨entry, member, rfl⟩
    exact next_stored relies step entry member
  intro f here
  cases effect with
  | read phase' outside' => exact here.elim (inPhase f) fun kept => .inl (stored f kept)
  | write w phase' outside' =>
    rcases here with held | written | kept
    · exact inPhase f held
    · exact next_written relies ok step f written
    · exact .inl (stored f kept)
  | commit phase' outside' => exact here.elim (inPhase f) fun kept => .inl (stored f kept)
  | fail phase' => exact inPhase f here

end Covered

theorem facts_recorded (rt : Runtime) :
    (resumeFacts rt).Recorded (resumeSystem rt) (Assertion.phase Placed) where
  applies := fact_applies rt
  starts {outside request phase outside'} started := by
    cases started
    refine ⟨rfl, ?_⟩
    intro f here
    cases request <;> cases here
  fails {phase f} here := by
    change f ∈ (failedPhase phase).facts at here
    cases phase <;> first | exact here | cases here
  steps {db outside phase pending input effect} ok sound answer := by
    have step := next_cases answer
    have relies : Relies rt ((resumeSystem rt).view db pending) outside phase
        ((resumeFacts rt).seen db outside phase pending) := by
      refine ⟨sound, fun f here => .inl (.inl here), ?_, fun entry member => .inr (.inr ⟨entry, member, rfl⟩)⟩
      exact fun f here => Facts.Applied.seen (fact_applies rt) sound here
    refine ⟨_, ?_, next_covered relies ok step⟩
    cases effect <;> exact adds_new sound relies.phase (next_kept step)

theorem placed_holds {rt : Runtime} {g : Guard Database Outside Phase Input}
    {s : State Database Outside Phase Write} (run : Runs (resumeSystem rt) g initialState s) :
    (Assertion.phase Placed).Holds s :=
  (holds_idle_runs conflicts_symm (placed_stable rt g Assertion.trivial) (fun t _ =>
    Assertion.trivial_holds t) rfl trivial
    run).2

theorem facts_hold {rt : Runtime} {s : State Database Outside Phase Write} (reachable : Reachable rt s) :
    (resumeFacts rt).assertion.Holds s := by
  refine (holds_idle_runs conflicts_symm ((facts_recorded rt).stable Guard.free) (fun t run =>
    placed_holds run) rfl ?_
    reachable).2
  have nothing : ∀ f, ¬ (resumeFacts rt).common initialState.db initialState.outside f := by
    rintro f (stored | ⟨entry, member, _⟩)
    · cases stored
    · cases member
  exact ⟨fun f here => absurd here (nothing f), fun f _ here => absurd here (nothing f)⟩

theorem fact_remembered {rt : Runtime} {g : Guard Database Outside Phase Input}
    {s s' : State Database Outside Phase Write} (reachable : Reachable rt s)
    (run : Runs (resumeSystem rt) g s s') {past f : Fact}
    (before : (resumeFacts rt).common s.db s.outside past)
    (after : (resumeFacts rt).common s'.db s'.outside f) :
    (resumeFacts rt).agrees f past := by
  have known : ∀ t, Runs (resumeSystem rt) g s t →
      ((Assertion.phase Placed).and (resumeFacts rt).assertion).Holds t := by
    intro t reached
    exact (placed_holds (reachable.trans reached.free)).and (facts_hold (reachable.trans reached.free))
  obtain ⟨_, holds⟩ := holds_runs conflicts_symm ((facts_recorded rt).remembers past g) known
    (history_holds reachable).1
    (Facts.remembered (facts_hold reachable) before) run
  exact holds.common.2 f after

end Steps

end ManifestCV.Workspace
