import ManifestCV.Editor.Page

namespace ManifestCV.Editor

open Foundation

/-- A call after whose answer the page has fetched the workspace again, or has been given the revision
    itself. -/
def Call.owes {D : Type} : Call D → Bool
  | .saved _ _ | .restored _ | .approve | .approved | .generated => true
  | _ => false

section Settling

variable {D : Type}

def Page.covered (page : Page D) : Bool :=
  page.cache.any (·.revision.id = page.server.current.id) ||
    page.fetch.any (·.all (·.revision.id = page.server.current.id)) || page.calls.any (·.owes)

def Page.without (page : Page D) (i : Nat) : Page D := { page with calls := page.calls.eraseIdx i }

/-- The steps that do not leave the page behind the server. -/
def keepsUp [DecidableEq D] (page : Page D) : Action D → Bool
  | .answer i =>
    match page.calls[i]? with
    -- the query does not hold the saved revision yet, or the editor holds its document
    | some (.saved _ id) => page.cache.any (·.revision.id ≠ id) ||
        page.server.revisions.any fun revision => revision.id = id ∧ page.store.document =
          some revision.document
    -- only the list of revisions is fetched again
    | some (.restored _) => (page.without i).covered
    | _ => true
  | .giveUp i =>
    match page.calls[i]? with
    | some .generated => (page.without i).covered
    | _ => true
  | .serve i _ written =>
    match page.calls[i]? with
    | some .abandoned => written.isNone || page.fetch.any (·.isNone) || (page.without i).calls.any (·.owes)
    | _ => true
  | .fetched =>
    match page.fetch with
    -- no revision arrives that the editor was marked as saved at with another document, before the effect ran
    | some (some snapshot) => !page.effect || page.store.dirty || page.store.savedRevisionId ≠
        some snapshot.revision.id ||
        page.store.document = some snapshot.revision.document
    | _ => true
  | _ => true

def Call.OnServer (server : Server D) : Call D → Prop
  | .saved _ id => ∃ revision ∈ server.revisions, revision.id = id
  | .restored revision => revision ∈ server.revisions
  | _ => True

structure Settling (page : Page D) : Prop where
  unique : ∀ first ∈ page.server.revisions, ∀ second ∈ page.server.revisions, first.id = second.id →
    first = second
  cached : ∀ snapshot, page.cache = some snapshot → snapshot.revision ∈ page.server.revisions
  fetching : ∀ snapshot, page.fetch = some (some snapshot) → snapshot.revision ∈ page.server.revisions
  /-- The answer to a fetch is not older than the query. -/
  newer : ∀ held fetched, page.cache = some held → page.fetch = some (some fetched) →
    held.revision.id = page.server.current.id → fetched.revision.id = page.server.current.id
  calls : ∀ call ∈ page.calls, call.OnServer page.server
  /-- An unedited document is the saved revision's, or the effect is about to replace it. -/
  clean : page.store.dirty = false → page.store.document ≠ none →
    ∃ revision ∈ page.server.revisions, page.store.savedRevisionId = some revision.id ∧
      (page.store.document = some revision.document ∨
        page.effect = true ∧ ∃ snapshot, page.cache = some snapshot ∧ snapshot.revision.id ≠ revision.id)
  copied : page.effect = false → ∀ snapshot, page.cache = some snapshot →
    page.store.document ≠ none ∧
      (page.store.dirty = false → page.store.savedRevisionId = some snapshot.revision.id)
  covered : page.covered = true

theorem Server.current_mem (server : Server D) : server.current ∈ server.revisions :=
  List.mem_append_right _ (List.mem_singleton.mpr rfl)

theorem initial_settling {server : Server D}
    (unique : ∀ first ∈ server.revisions, ∀ second ∈ server.revisions, first.id = second.id →
      first = second) :
    Settling (Page.initial server) where
  unique := unique
  cached _ same := nomatch same
  fetching _ same := nomatch same
  newer _ _ same := nomatch same
  calls _ member := nomatch member
  clean _ given := absurd rfl given
  copied _ _ same := nomatch same
  covered := rfl

/-- A page without anything outstanding shows the current revision, unless it is edited. -/
theorem Settling.quiescent {page : Page D} (settling : Settling page) (quiet : page.quiescent = true)
    (clean : page.store.dirty = false) : page.store.savedRevisionId = some page.server.current.id ∧
      page.store.document = some page.server.current.document := by
  simp only [Page.quiescent, Bool.and_eq_true, List.isEmpty_iff, Option.isNone_iff_eq_none,
    Bool.not_eq_true'] at quiet
  obtain ⟨⟨calls, fetch⟩, effect⟩ := quiet
  have covered := settling.covered
  simp only [Page.covered, calls, fetch, List.any_nil, Option.any_none, Bool.or_false] at covered
  obtain ⟨snapshot, cached, same⟩ := (Option.any_eq_true _ _).mp covered
  have current : snapshot.revision = page.server.current :=
    settling.unique _ (settling.cached snapshot cached) _ page.server.current_mem (of_decide_eq_true same)
  obtain ⟨shown, copied⟩ := settling.copied effect snapshot cached
  have saved := copied clean
  rw [current] at saved
  obtain ⟨revision, member, id, document⟩ := settling.clean clean shown
  have named : revision = page.server.current := by
    refine settling.unique _ member _ page.server.current_mem ?_
    exact Option.some.inj (id.symm.trans saved)
  refine ⟨saved, ?_⟩
  rcases document with document | ⟨pending, _⟩
  · rw [document, named]
  · cases effect.symm.trans pending

theorem set_owes {calls : List (Call D)} {i : Nat} {call answer : Call D} (found : calls[i]? = some call)
    (kept : call.owes = true → answer.owes = true) (owed : calls.any (·.owes) = true) :
    (calls.set i answer).any (·.owes) = true := by
  have bound := (List.getElem?_eq_some_iff.mp found).1
  obtain ⟨other, member, owes⟩ := List.any_eq_true.mp owed
  obtain ⟨j, place⟩ := List.mem_iff_getElem?.mp member
  rw [List.any_eq_true]
  by_cases same : j = i
  · subst same
    cases found.symm.trans place
    exact ⟨answer, List.mem_iff_getElem?.mpr ⟨j, List.getElem?_set_self bound⟩, kept owes⟩
  · exact ⟨other, List.mem_iff_getElem?.mpr ⟨j, by rw [List.getElem?_set_ne (Ne.symm same)]; exact place⟩,
      owes⟩

theorem eraseIdx_owes {calls : List (Call D)} {i : Nat} {call : Call D} (found : calls[i]? = some call)
    (free : call.owes = false) (owed : calls.any (·.owes) = true) :
    (calls.eraseIdx i).any (·.owes) = true := by
  obtain ⟨other, member, owes⟩ := List.any_eq_true.mp owed
  obtain ⟨j, place⟩ := List.mem_iff_getElem?.mp member
  rw [List.any_eq_true]
  refine ⟨other, List.mem_eraseIdx_iff_getElem?.mpr ⟨j, ?_, place⟩, owes⟩
  rintro rfl
  cases found.symm.trans place
  cases free.symm.trans owes

/-- What the server's work on a call does: nothing to the revisions, or a new current one. -/
theorem handle_cases {validate : D → Option D} {server server' : Server D} {fresh : Nat} {written : Option D}
    {call : Call D} {answer : Option (Call D)}
    (handled : server.handle validate fresh written call = some (server', answer)) :
    (server'.revisions = server.revisions ∧ server'.current = server.current ∧
      match answer with
      | some answer => (call.owes = true → answer.owes = true) ∧ ∀ server, answer.OnServer server
      | none => call = .abandoned ∧ written = none) ∨
    ∃ document, server' = server.append ⟨fresh, document⟩ ∧
      match answer with
      | some answer => answer.owes = true ∧ answer.OnServer server'
      | none => call = .abandoned ∧ written.isSome := by
  cases call with
  | save document expected =>
    simp only [Server.handle] at handled
    split at handled
    · rename_i saved
      cases handled
      obtain ⟨stored, _, rfl⟩ := Server.saveDocument_ok saved
      exact .inr ⟨stored, rfl, rfl, _, List.mem_append_right _ (List.mem_singleton.mpr rfl), rfl⟩
    · cases handled
      exact .inl ⟨rfl, rfl, fun owes => (nomatch owes), fun _ => trivial⟩
  | restore revisionId =>
    simp only [Server.handle] at handled
    split at handled
    · rename_i restored
      cases handled
      obtain ⟨stored, rfl⟩ := Server.restoreRevision_ok restored
      exact .inr ⟨stored, rfl, rfl, Server.current_mem _⟩
    · cases handled
      exact .inl ⟨rfl, rfl, fun owes => (nomatch owes), fun _ => trivial⟩
  | approve =>
    cases handled
    exact .inl ⟨rfl, rfl, fun _ => rfl, fun _ => trivial⟩
  | generate =>
    cases written with
    | some document =>
      cases handled
      exact .inr ⟨document, rfl, rfl, trivial⟩
    | none =>
      cases handled
      exact .inl ⟨rfl, rfl, fun owes => (nomatch owes), fun _ => trivial⟩
  | abandoned =>
    cases written with
    | some document =>
      cases handled
      exact .inr ⟨document, rfl, rfl, rfl⟩
    | none =>
      cases handled
      exact .inl ⟨rfl, rfl, rfl, rfl⟩
  | _ => cases handled

theorem Call.OnServer.append {server : Server D} {call : Call D} (stored : call.OnServer server)
    (revision : Revision D) :
    call.OnServer (server.append revision) := by
  cases call with
  | saved sent id =>
    obtain ⟨old, member, same⟩ := stored
    exact ⟨old, List.mem_append_left _ member, same⟩
  | restored old => exact List.mem_append_left _ stored
  | _ => trivial

variable {validate : D → Option D} {page page' : Page D}

theorem touched_settling (settling : Settling page) {store : EditorState D}
    (touched : page.store.Touched store) :
    Settling (page.setStore store) where
  unique := settling.unique
  cached := settling.cached
  fetching := settling.fetching
  newer := settling.newer
  calls := settling.calls
  covered := settling.covered
  copied pending := nomatch pending
  clean clean given := by
    rcases touched with rfl | ⟨dirty, _⟩
    · obtain ⟨revision, member, id, document⟩ := settling.clean clean given
      refine ⟨revision, member, id, ?_⟩
      rcases document with document | ⟨_, differs⟩
      · exact .inl document
      · exact .inr ⟨rfl, differs⟩
    · cases clean.symm.trans dirty

theorem send_settling (settling : Settling page) {call : Call D} (new : ∀ server, call.OnServer server) :
    Settling (page.send call) where
  unique := settling.unique
  cached := settling.cached
  fetching := settling.fetching
  newer := settling.newer
  copied := settling.copied
  clean := settling.clean
  calls other member := by
    rcases List.mem_append.mp member with old | single
    · exact settling.calls other old
    · rw [List.mem_singleton.mp single]
      exact new _
  covered := by
    have covered := settling.covered
    simp only [Page.covered, Page.send, List.any_append, Bool.or_eq_true] at covered ⊢
    rcases covered with covered | owed
    · exact .inl covered
    · exact .inr (.inl owed)

theorem refetch_settling (settling : Settling page) : Settling page.refetch where
  unique := settling.unique
  cached := settling.cached
  fetching _ same := nomatch same
  newer _ _ _ same := nomatch same
  copied := settling.copied
  clean := settling.clean
  calls := settling.calls
  covered := by simp [Page.covered, Page.refetch]

theorem read_settling (settling : Settling page) :
    Settling { page with fetch := some (some ⟨page.server.current, page.server.approved⟩) } where
  unique := settling.unique
  cached := settling.cached
  fetching _ same := by
    cases same
    exact Server.current_mem _
  newer _ _ _ same _ := by
    cases same
    rfl
  copied := settling.copied
  clean := settling.clean
  calls := settling.calls
  covered := by simp [Page.covered]

theorem runEffect_settling (settling : Settling page) :
    Settling { page with store := page.sync, effect := false } := by
  rcases page.sync_cases with ⟨snapshot, cached, _, now⟩ | ⟨same, stays⟩
  · rw [now]
    refine ⟨settling.unique, settling.cached, settling.fetching, settling.newer, settling.calls, ?_,
      ?_, settling.covered⟩
    · intro _ _
      exact ⟨snapshot.revision, settling.cached snapshot cached, rfl, .inl rfl⟩
    · intro _ other same
      cases cached.symm.trans same
      exact ⟨fun same => (nomatch same), fun _ => rfl⟩
  · rw [same]
    refine ⟨settling.unique, settling.cached, settling.fetching, settling.newer, settling.calls, ?_, fun _ =>
      stays, settling.covered⟩
    intro clean given
    obtain ⟨revision, member, id, document⟩ := settling.clean clean given
    refine ⟨revision, member, id, .inl ?_⟩
    rcases document with document | ⟨_, snapshot, cached, differs⟩
    · exact document
    · exact absurd (Option.some.inj ((stays snapshot cached).2 clean |>.symm.trans id)) differs

theorem without_settling (settling : Settling page) {i : Nat} (covered : (page.without i).covered = true) :
    Settling (page.without i) where
  unique := settling.unique
  cached := settling.cached
  fetching := settling.fetching
  newer := settling.newer
  copied := settling.copied
  clean := settling.clean
  calls other member := settling.calls other (List.mem_of_mem_eraseIdx member)
  covered := covered

variable [DecidableEq D]

theorem fetched_settling (settling : Settling page) {snapshot : Snapshot D}
    (fetching : page.fetch = some (some snapshot)) (keeps : keepsUp page .fetched = true) :
    Settling { page with cache := some snapshot, fetch := none, effect := true } where
  unique := settling.unique
  cached _ same := by
    cases same
    exact settling.fetching snapshot fetching
  fetching _ same := nomatch same
  newer _ _ _ same := nomatch same
  copied pending := nomatch pending
  calls := settling.calls
  covered := by
    have covered := settling.covered
    simp only [Page.covered, fetching, Option.any_some, Option.all_some, Option.any_none, Bool.or_false,
      Bool.or_eq_true, decide_eq_true_eq] at covered ⊢
    rcases covered with (cached | read) | owed
    · obtain ⟨held, cached, same⟩ := (Option.any_eq_true _ _).mp cached
      exact .inl (settling.newer held snapshot cached fetching (of_decide_eq_true same))
    · exact .inl read
    · exact .inr owed
  clean clean given := by
    obtain ⟨revision, member, id, document⟩ := settling.clean clean given
    refine ⟨revision, member, id, ?_⟩
    by_cases same : snapshot.revision.id = revision.id
    · left
      rcases document with document | ⟨pending, _⟩
      · exact document
      · simp only [keepsUp, fetching, pending, id, same, Bool.not_true, Bool.false_or, ne_eq,
          not_true_eq_false, decide_false, Bool.or_false, Bool.or_eq_true, decide_eq_true_eq] at keeps
        rcases keeps with dirty | document
        · cases clean.symm.trans dirty
        · rw [document, settling.unique _ (settling.fetching snapshot fetching) _ member same]
    · exact .inr ⟨rfl, snapshot, rfl, same⟩

theorem serve_settling (settling : Settling page) {i fresh : Nat} {written : Option D}
    (keeps : keepsUp page (.serve i fresh written) = true)
    (step : page.step validate (.serve i fresh written) = some page') :
    Settling page' := by
  obtain ⟨call, found, step⟩ := Option.bind_eq_some_iff.mp step
  obtain ⟨⟨server, answer⟩, handled, step⟩ := Option.bind_eq_some_iff.mp step
  simp only at step
  split at step
  · cases step
  rename_i unused
  cases step
  have kept : ∀ other ∈ page.calls.eraseIdx i, other ∈ page.calls := fun _ member =>
    List.mem_of_mem_eraseIdx member
  rcases handle_cases handled with ⟨same, current, answered⟩ | ⟨document, rfl, answered⟩
  · have onServer : ∀ call : Call D, call.OnServer page.server → call.OnServer server := by
      intro call stored
      cases call with
      | saved sent id =>
        rw [Call.OnServer, same]
        exact stored
      | restored revision =>
        rw [Call.OnServer, same]
        exact stored
      | _ => trivial
    have covered := settling.covered
    simp only [Page.covered, Bool.or_eq_true] at covered
    refine ⟨same ▸ settling.unique, same ▸ settling.cached, same ▸ settling.fetching, ?_, ?_,
      same ▸ settling.clean, settling.copied, ?_⟩
    · rw [current]
      exact settling.newer
    · intro other member
      cases answer with
      | some answer =>
        rcases List.mem_or_eq_of_mem_set member with old | rfl
        · exact onServer other (settling.calls other old)
        · exact answered.2 server
      | none => exact onServer other (settling.calls other (kept other member))
    · simp only [Page.covered, Bool.or_eq_true, current]
      refine covered.imp_right fun owed => ?_
      cases answer with
      | some answer => exact set_owes found answered.1 owed
      | none =>
        obtain ⟨rfl, _⟩ := answered
        exact eraseIdx_owes found rfl owed
  · have unseen : ∀ revision ∈ page.server.revisions, revision.id ≠ fresh := by
      intro revision member same
      exact unused (List.any_eq_true.mpr ⟨revision, member, decide_eq_true same⟩)
    refine ⟨?_, ?_, ?_, ?_, ?_, ?_, settling.copied, ?_⟩
    · intro first hFirst second hSecond same
      rcases List.mem_append.mp hFirst with oldFirst | newFirst
      · rcases List.mem_append.mp hSecond with oldSecond | newSecond
        · exact settling.unique first oldFirst second oldSecond same
        · rw [List.mem_singleton.mp newSecond] at same
          exact absurd same (unseen first oldFirst)
      · rcases List.mem_append.mp hSecond with oldSecond | newSecond
        · rw [List.mem_singleton.mp newFirst] at same
          exact absurd same.symm (unseen second oldSecond)
        · rw [List.mem_singleton.mp newFirst, List.mem_singleton.mp newSecond]
    · exact fun snapshot cached => List.mem_append_left _ (settling.cached snapshot cached)
    · exact fun snapshot fetching => List.mem_append_left _ (settling.fetching snapshot fetching)
    · intro held _ cached _ same
      exact absurd same (unseen _ (settling.cached held cached))
    · intro other member
      cases answer with
      | some answer =>
        rcases List.mem_or_eq_of_mem_set member with old | rfl
        · exact (settling.calls other old).append _
        · exact answered.2
      | none => exact (settling.calls other (kept other member)).append _
    · intro clean given
      obtain ⟨revision, member, rest⟩ := settling.clean clean given
      exact ⟨revision, List.mem_append_left _ member, rest⟩
    · simp only [Page.covered, Bool.or_eq_true]
      cases answer with
      | some answer =>
        right
        have bound := (List.getElem?_eq_some_iff.mp found).1
        exact List.any_eq_true.mpr ⟨answer, List.mem_iff_getElem?.mpr ⟨i, List.getElem?_set_self bound⟩,
          answered.1⟩
      | none =>
        obtain ⟨rfl, given⟩ := answered
        simp only [keepsUp, found, Bool.or_eq_true, Page.without] at keeps
        rcases keeps with (nothing | unread) | owed
        · rw [Option.isNone_iff_eq_none] at nothing
          rw [nothing] at given
          cases given
        · obtain ⟨fetch, fetching, empty⟩ := (Option.any_eq_true _ _).mp unread
          rw [Option.isNone_iff_eq_none] at empty
          left
          right
          rw [fetching, empty]
          rfl
        · exact .inr owed

theorem answer_settling (settling : Settling page) {i : Nat} (keeps : keepsUp page (.answer i) = true)
    (step : page.step validate (.answer i) = some page') : Settling page' := by
  obtain ⟨call, found, step⟩ := Option.bind_eq_some_iff.mp step
  have stored := settling.calls call (List.mem_of_getElem? found)
  have others : ∀ other ∈ page.calls.eraseIdx i, other.OnServer page.server :=
    fun other member => settling.calls other (List.mem_of_mem_eraseIdx member)
  have unread : ∀ page : Page D, page.refetch.covered = true := by
    intro page
    simp [Page.covered, Page.refetch]
  cases call with
  | saved sent id =>
    cases step
    obtain ⟨revision, member, same⟩ := stored
    simp only [keepsUp, found, Bool.or_eq_true, List.any_eq_true, decide_eq_true_eq] at keeps
    refine ⟨settling.unique, settling.cached, fun _ same => (nomatch same), fun _ _ _ same =>
      (nomatch same), others, ?_, fun pending => (nomatch pending), unread _⟩
    intro _ _
    refine ⟨revision, member, congrArg some same.symm, ?_⟩
    rcases keeps with behind | ⟨other, inside, id', document⟩
    · obtain ⟨snapshot, cached, differs⟩ := (Option.any_eq_true _ _).mp behind
      exact .inr ⟨rfl, snapshot, cached, same ▸ of_decide_eq_true differs⟩
    · rw [settling.unique revision member other inside (same.trans id'.symm)]
      exact .inl document
  | restored revision =>
    cases step
    simp only [keepsUp, found] at keeps
    refine ⟨settling.unique, settling.cached, settling.fetching, settling.newer, others, ?_, fun pending =>
      (nomatch pending), keeps⟩
    intro _ _
    exact ⟨revision, stored, rfl, .inl rfl⟩
  | approved =>
    cases step
    exact ⟨settling.unique, settling.cached, fun _ same => (nomatch same), fun _ _ _ same =>
      (nomatch same), others, settling.clean, settling.copied, unread _⟩
  | generated =>
    cases step
    exact ⟨settling.unique, settling.cached, fun _ same => (nomatch same), fun _ _ _ same =>
      (nomatch same), others, settling.clean, settling.copied, unread _⟩
  | refused reason =>
    cases step
    refine without_settling settling ?_
    have covered := settling.covered
    simp only [Page.covered, Page.without, Bool.or_eq_true] at covered ⊢
    exact covered.imp_right (eraseIdx_owes found rfl)
  | _ => cases step

theorem giveUp_settling (settling : Settling page) {i : Nat} (keeps : keepsUp page (.giveUp i) = true)
    (step : page.step validate (.giveUp i) = some page') : Settling page' := by
  obtain ⟨call, found, step⟩ := Option.bind_eq_some_iff.mp step
  cases call with
  | generate =>
    cases step
    refine ⟨settling.unique, settling.cached, settling.fetching, settling.newer, ?_, settling.clean,
      settling.copied, ?_⟩
    · intro other member
      rcases List.mem_or_eq_of_mem_set member with old | rfl
      · exact settling.calls other old
      · trivial
    · have covered := settling.covered
      simp only [Page.covered, Bool.or_eq_true] at covered ⊢
      exact covered.imp_right (set_owes found fun owes => nomatch owes)
  | generated =>
    cases step
    simp only [keepsUp, found] at keeps
    exact without_settling settling keeps
  | _ => cases step

theorem step_settling (settling : Settling page) {action : Action D} (keeps : keepsUp page action = true)
    (step : page.step validate action = some page') : Settling page' := by
  cases action with
  | serve i fresh written => exact serve_settling settling keeps step
  | answer i => exact answer_settling settling keeps step
  | giveUp i => exact giveUp_settling settling keeps step
  | edit change =>
    simp only [Page.step] at step
    split at step
    · cases step
      exact touched_settling settling (EditorState.update_touched _ _)
    · cases step
  | undo =>
    simp only [Page.step] at step
    split at step
    · cases step
      exact touched_settling settling (EditorState.undoChange_touched _)
    · cases step
  | redo =>
    simp only [Page.step] at step
    split at step
    · cases step
      exact touched_settling settling (EditorState.redoChange_touched _)
    · cases step
  | save =>
    simp only [Page.step] at step
    split at step
    · split at step
      · cases step
        exact send_settling settling fun _ => trivial
      · cases step
    · cases step
  | refetch =>
    simp only [Page.step] at step
    split at step
    · cases step
    · cases step
      exact refetch_settling settling
  | read =>
    simp only [Page.step] at step
    split at step
    · cases step
      exact read_settling settling
    · cases step
  | fetched =>
    simp only [Page.step] at step
    split at step
    · rename_i snapshot fetching
      cases step
      exact fetched_settling settling fetching keeps
    · cases step
  | runEffect =>
    simp only [Page.step] at step
    split at step
    · cases step
      exact runEffect_settling settling
    · cases step
  | _ =>
    simp only [Page.step] at step
    split at step
    · cases step
      exact send_settling settling fun _ => trivial
    · cases step

/-- Where no step leaves the page behind, an unedited page at rest shows the server's current revision, and
    its next save is not refused as made elsewhere. -/
theorem editor_settles {server : Server D}
    (unique : ∀ first ∈ server.revisions, ∀ second ∈ server.revisions, first.id = second.id → first = second)
    (run : Machine.Reaches (Page.step validate) keepsUp (.initial server) page)
    (quiet : page.quiescent = true) (clean : page.store.dirty = false) :
    page.store.savedRevisionId = some page.server.current.id ∧ page.store.document =
      some page.server.current.document ∧
      ∀ document fresh, page.server.saveDocument validate document page.currentRevisionId fresh ≠
        .error .changed := by
  have settling := run.invariant (fun settling keeps step => step_settling settling keeps step)
    (initial_settling unique)
  obtain ⟨saved, shown⟩ := settling.quiescent quiet clean
  refine ⟨saved, shown, ?_⟩
  intro document fresh refused
  have expected : page.currentRevisionId = some page.server.current.id := by
    rw [Page.currentRevisionId, saved, Option.some_or]
  rw [expected, Server.saveDocument] at refused
  split at refused
  · cases refused
  split at refused
  · rename_i changed
    exact changed.2 rfl
  split at refused
  · cases refused
  · cases refused

end Settling

def twoRevisions : Server Nat := ⟨[⟨1, 10⟩], ⟨2, 20⟩, false⟩

def opening : List (Action Nat) := [.read, .fetched, .runEffect]

def atRest (page : Page Nat) : Bool := page.quiescent && !page.store.dirty

theorem editor_settles_saved : ∃ page, Machine.Reaches (Page.step some) keepsUp (.initial twoRevisions) page ∧
    page.store.savedRevisionId = some 3 ∧ page.store.document = some 21 ∧
    ∀ document fresh, page.server.saveDocument some document page.currentRevisionId fresh ≠
      .error .changed := by
  have ran : (Machine.perform (Page.step some) keepsUp (.initial twoRevisions) (opening ++
      [.edit (· + 1), .save, .serve 0 3 none, .answer 0, .runEffect, .read, .fetched, .runEffect])).any
      (fun page => atRest page && page.server.current.id = 3 && page.server.current.document = 21) = true :=
        by decide
  obtain ⟨page, run, checked⟩ := Machine.reaches_of_performed ran
  simp only [atRest, Bool.and_eq_true, Bool.not_eq_true', decide_eq_true_eq] at checked
  obtain ⟨⟨⟨quiet, clean⟩, id⟩, document⟩ := checked
  have settled := editor_settles (by decide) run quiet clean
  rw [id, document] at settled
  exact ⟨page, run, settled⟩

/-- Restoring revision 1 makes revision 3, and the page goes back to revision 2. -/
theorem restore_left_behind :
    ∃ page, Machine.Reaches (Page.step some) (fun _ _ => true) (.initial twoRevisions) page ∧
    page.quiescent = true ∧ page.store.dirty = false ∧ page.store.savedRevisionId = some 2 ∧
      page.server.current.id = 3 ∧
    ∀ document fresh, page.server.saveDocument some document page.currentRevisionId fresh =
        .error .changed := by
  have ran : (Machine.perform (Page.step some) (fun _ _ => true) (.initial twoRevisions) (opening ++
      [.restore 1, .serve 0 3 none, .answer 0, .runEffect])).any
      (fun page => atRest page && page.store.savedRevisionId = some 2 && page.server.current.id = 3 &&
        !page.server.approved) =
        true := by decide
  obtain ⟨page, run, checked⟩ := Machine.reaches_of_performed ran
  simp only [atRest, Bool.and_eq_true, Bool.not_eq_true', decide_eq_true_eq] at checked
  obtain ⟨⟨⟨⟨quiet, clean⟩, saved⟩, current⟩, opens⟩ := checked
  refine ⟨page, run, quiet, clean, saved, current, ?_⟩
  intro document fresh
  simp [Server.saveDocument, Page.currentRevisionId, saved, current, opens]

end ManifestCV.Editor
