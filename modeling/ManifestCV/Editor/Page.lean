import ManifestCV.Editor.Store
import ManifestCV.Foundation.Machine

namespace ManifestCV.Editor

open Foundation

structure Revision (D : Type) where
  id : Nat
  document : D
  deriving DecidableEq

structure Server (D : Type) where
  earlier : List (Revision D)
  current : Revision D
  approved : Bool

structure Snapshot (D : Type) where
  revision : Revision D
  approved : Bool

inductive Refusal where
  /-- "Approved resumes are immutable" -/
  | approved
  /-- "Resume changed elsewhere; reload before saving" -/
  | changed
  | missing
  | invalid
  | failed
  deriving DecidableEq

inductive Call (D : Type) where
  | save (document : D) (expected : Option Nat)
  | restore (revisionId : Nat)
  | approve
  /-- A generation job that the page asks after. -/
  | generate
  /-- A generation job that the page has stopped asking after. -/
  | abandoned
  | saved (sent : D) (id : Nat)
  | restored (revision : Revision D)
  | approved
  | generated
  | refused (reason : Refusal)

/-- One tab of `ResumeBuilderPage` and the workspace on the server. -/
structure Page (D : Type) where
  store : EditorState D
  /-- `query.data`. -/
  cache : Option (Snapshot D)
  /-- A fetch of the query in flight, with the answer once the server has read it. -/
  fetch : Option (Option (Snapshot D))
  calls : List (Call D)
  /-- The effect that copies `query.data.revision` into the store has to run. -/
  effect : Bool
  server : Server D

inductive Action (D : Type) where
  | edit (change : D → D)
  | undo
  | redo
  /-- The autosave timer or the Save button. -/
  | save
  | accept (proposal : D)
  | restore (revisionId : Nat)
  | generate
  | approve
  /-- The query fetches again, for instance when the window gets the focus. -/
  | refetch
  /-- The server works on a call; a job writes the given document, if any. -/
  | serve (i fresh : Nat) (written : Option D)
  | answer (i : Nat)
  | giveUp (i : Nat)
  | read
  | fetched
  | runEffect

namespace Server

variable {D : Type}

def revisions (server : Server D) : List (Revision D) := server.earlier ++ [server.current]

def append (server : Server D) (revision : Revision D) : Server D :=
  { server with earlier := server.revisions, current := revision }

/-- `validate` is `validate_document` with the dump of what it accepts. -/
def saveDocument (validate : D → Option D) (server : Server D) (document : D) (expected : Option Nat)
    (fresh : Nat) :
    Except Refusal (Server D) :=
  if server.approved then .error .approved
  else if expected.isSome ∧ expected ≠ some server.current.id then .error .changed
  else
    match validate document with
    | none => .error .invalid
    | some document => .ok (server.append ⟨fresh, document⟩)

def restoreRevision (validate : D → Option D) (server : Server D) (revisionId fresh : Nat) :
    Except Refusal (Server D) :=
  if server.approved then .error .approved
  else
    match server.revisions.find? (·.id = revisionId) with
    | none => .error .missing
    | some source => server.saveDocument validate source.document (some server.current.id) fresh

/-- The server and the answer after a call; the job of an abandoned call answers nobody. -/
def handle (validate : D → Option D) (server : Server D) (fresh : Nat) (written : Option D) :
    Call D → Option (Server D × Option (Call D))
  | .save document expected =>
    match server.saveDocument validate document expected fresh with
    | .ok server => some (server, some (.saved document fresh))
    | .error reason => some (server, some (.refused reason))
  | .restore revisionId =>
    match server.restoreRevision validate revisionId fresh with
    | .ok server => some (server, some (.restored server.current))
    | .error reason => some (server, some (.refused reason))
  | .approve => some ({ server with approved := true }, some .approved)
  | .generate =>
    match written with
    | some document => some (server.append ⟨fresh, document⟩, some .generated)
    | none => some (server, some (.refused .failed))
  | .abandoned =>
    match written with
    | some document => some (server.append ⟨fresh, document⟩, none)
    | none => some (server, none)
  | _ => none

@[simp] theorem revisions_append (server : Server D) (revision : Revision D) :
    (server.append revision).revisions = server.revisions ++ [revision] := rfl

theorem saveDocument_ok {validate : D → Option D} {server server' : Server D} {document : D}
    {expected : Option Nat} {fresh : Nat}
    (saved : server.saveDocument validate document expected fresh = .ok server') :
    ∃ stored, validate document = some stored ∧ server' = server.append ⟨fresh, stored⟩ := by
  rw [saveDocument] at saved
  split at saved
  · cases saved
  split at saved
  · cases saved
  split at saved
  · cases saved
  · rename_i stored valid
    cases saved
    exact ⟨stored, valid, rfl⟩

theorem saveDocument_expected {validate : D → Option D} {server server' : Server D} {document : D}
    {expected : Option Nat} {fresh source : Nat}
    (saved : server.saveDocument validate document expected fresh = .ok server')
    (named : expected = some source) :
    server.current.id = source := by
  subst named
  rw [saveDocument] at saved
  split at saved
  · cases saved
  split at saved
  · cases saved
  · rename_i current
    exact (Option.some.inj (by_contra fun other => current ⟨rfl, other⟩)).symm

theorem restoreRevision_ok {validate : D → Option D} {server server' : Server D} {revisionId fresh : Nat}
    (restored : server.restoreRevision validate revisionId fresh = .ok server') :
    ∃ stored, server' = server.append ⟨fresh, stored⟩ := by
  rw [restoreRevision] at restored
  split at restored
  · cases restored
  split at restored
  · cases restored
  · obtain ⟨stored, _, same⟩ := saveDocument_ok restored
    exact ⟨stored, same⟩

end Server

namespace Page

variable {D : Type}

def initial (server : Server D) : Page D := ⟨.initial, none, some none, [], false, server⟩

def editorDocument (page : Page D) : Option D :=
  page.store.document.or (page.cache.map (·.revision.document))

def currentRevisionId (page : Page D) : Option Nat :=
  page.store.savedRevisionId.or (page.cache.map (·.revision.id))

def approved (page : Page D) : Bool := page.cache.any (·.approved)

def usable (page : Page D) : Bool := page.editorDocument.isSome && !page.approved

def sync (page : Page D) : EditorState D :=
  match page.cache with
  | some snapshot =>
    if page.store.document.isNone ∨ page.store.dirty = false ∧ page.store.savedRevisionId ≠
        some snapshot.revision.id then
      page.store.setDocument snapshot.revision.document (some snapshot.revision.id)
    else page.store
  | none => page.store

def setStore (page : Page D) (store : EditorState D) : Page D := { page with store, effect := true }

def send (page : Page D) (call : Call D) : Page D := { page with calls := page.calls ++ [call] }

def refetch (page : Page D) : Page D := { page with fetch := some none }

def receive (page : Page D) : Call D → Option (Page D)
  | .saved _ id => some (page.setStore (page.store.markSaved id)).refetch
  | .restored revision => some (page.setStore (page.store.setDocument revision.document (some revision.id)))
  | .approved | .generated => some page.refetch
  | .refused _ => some page
  | _ => none

def step (validate : D → Option D) (page : Page D) : Action D → Option (Page D)
  | .edit change => if page.usable then some (page.setStore (page.store.update change)) else none
  | .undo => if page.usable ∧ !page.store.undo.isEmpty then some (page.setStore page.store.undoChange)
      else none
  | .redo => if page.usable ∧ !page.store.redo.isEmpty then some (page.setStore page.store.redoChange)
      else none
  | .save =>
    match page.editorDocument with
    | some document =>
      if page.usable ∧ page.store.dirty then some (page.send (.save document page.currentRevisionId))
        else none
    | none => none
  | .accept proposal => if page.usable then some (page.send (.save proposal page.currentRevisionId)) else none
  | .restore revisionId => if page.usable then some (page.send (.restore revisionId)) else none
  | .generate => if page.usable then some (page.send .generate) else none
  | .approve => if page.usable then some (page.send .approve) else none
  | .refetch => if page.fetch.isSome then none else some page.refetch
  | .serve i fresh written => do
    let call ← page.calls[i]?
    let (server, answer) ← page.server.handle validate fresh written call
    if page.server.revisions.any (·.id = fresh) then none
    else some { page with
      server
      calls := match answer with
        | some answer => page.calls.set i answer
        | none => page.calls.eraseIdx i }
  | .answer i => do
    let call ← page.calls[i]?
    ({ page with calls := page.calls.eraseIdx i } : Page D).receive call
  | .giveUp i => do
    let call ← page.calls[i]?
    match call with
    | .generate => some { page with calls := page.calls.set i .abandoned }
    | .generated => some { page with calls := page.calls.eraseIdx i }
    | _ => none
  | .read =>
    match page.fetch with
    | some none => some { page with fetch := some (some ⟨page.server.current, page.server.approved⟩) }
    | _ => none
  | .fetched =>
    match page.fetch with
    | some (some snapshot) => some { page with cache := some snapshot, fetch := none, effect := true }
    | _ => none
  | .runEffect => if page.effect then some { page with store := page.sync, effect := false } else none

def quiescent (page : Page D) : Bool := page.calls.isEmpty && page.fetch.isNone && !page.effect

/-- The effect copies the query's revision when the store has no document, or an unedited one of another
    revision. -/
theorem sync_cases (page : Page D) :
    (∃ snapshot, page.cache = some snapshot ∧
      (page.store.document = none ∨ page.store.dirty = false ∧ page.store.savedRevisionId ≠
        some snapshot.revision.id) ∧
      page.sync = page.store.setDocument snapshot.revision.document (some snapshot.revision.id)) ∨
    page.sync = page.store ∧ ∀ snapshot, page.cache = some snapshot →
      page.store.document ≠ none ∧
        (page.store.dirty = false → page.store.savedRevisionId = some snapshot.revision.id) := by
  rw [sync]
  split
  · rename_i snapshot cached
    split
    · rename_i copies
      left
      rw [Option.isNone_iff_eq_none] at copies
      exact ⟨snapshot, cached, copies, rfl⟩
    · rename_i stays
      right
      refine ⟨rfl, ?_⟩
      intro other same
      cases cached.symm.trans same
      rw [Option.isNone_iff_eq_none, not_or] at stays
      exact ⟨stays.1, fun clean => by_contra fun differs => stays.2 ⟨clean, differs⟩⟩
  · rename_i nothing
    right
    exact ⟨rfl, fun other same => absurd (nothing.symm.trans same) (fun same => nomatch same)⟩

end Page

end ManifestCV.Editor
