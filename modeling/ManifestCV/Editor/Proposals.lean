import ManifestCV.Editor.Edits

namespace ManifestCV.Editor

open Foundation

/-- A refined document, and the `source_revision_id` that the page is sent with it and drops. -/
structure Proposal (E : Type) where
  document : Tracked E
  source : Nat

/-- The page with its requests for previews, each with the revision that the server has read for it, and the
    saves of accepted proposals, each with the proposal's source. -/
structure Refining (E : Type) where
  watched : Watched E
  previews : List (Option (Revision (Tracked E)))
  proposal : Option (Proposal E)
  accepting : List (Call (Tracked E) × Nat)
  /-- How many `setProposal(null)` are still to come after a save. -/
  clears : Nat

inductive Move (E : Type) where
  | deed (deed : Deed E)
  | preview
  | readPreview (i : Nat)
  | propose (i : Nat) (refine : E → E)
  | previewFailed (i : Nat)
  | reject
  | accept
  | serve (i fresh : Nat)
  | answer (i : Nat)
  | clear

section Refine

variable {E : Type}

def Refining.loaded (server : Server E) : Refining E := ⟨.loaded server, [], none, [], 0⟩

def Refining.page (r : Refining E) : Page (Tracked E) := r.watched.page

def Refining.setPage (r : Refining E) (page : Page (Tracked E)) : Refining E :=
  { r with watched := { r.watched with page } }

def Call.isSaved {D : Type} : Call D → Bool
  | .saved _ _ => true
  | _ => false

def Refining.step (validate : E → Option E) (r : Refining E) : Move E → Option (Refining E)
  | .deed deed => (r.watched.step validate deed).map fun watched => { r with watched }
  | .preview => if r.page.usable then some { r with previews := r.previews ++ [none] } else none
  | .readPreview i =>
    match r.previews[i]? with
    | some none =>
      if r.page.server.approved then some { r with previews := r.previews.eraseIdx i }
      else some { r with previews := r.previews.set i (some r.page.server.current) }
    | _ => none
  | .propose i refine =>
    match r.previews[i]? with
    | some (some revision) =>
      match validate (refine revision.document.document) with
      | some document =>
        some { r with
          previews := r.previews.eraseIdx i
          proposal := some ⟨⟨document, revision.document.edits⟩, revision.id⟩ }
      | none => some { r with previews := r.previews.eraseIdx i }
    | _ => none
  | .previewFailed i => if i < r.previews.length then some { r with previews := r.previews.eraseIdx i }
      else none
  | .reject => if r.proposal.isSome then some { r with proposal := none } else none
  | .accept =>
    match r.proposal with
    | none => none
    | some proposal =>
      if r.page.approved then some { r with proposal := none }
      else some { r with
        accepting := r.accepting ++ [(.save proposal.document r.page.currentRevisionId, proposal.source)] }
  | .serve i fresh => do
    let (call, source) ← r.accepting[i]?
    let (server, answer) ← r.page.server.handle (tracked validate) fresh none call
    let answer ← answer
    if r.page.server.revisions.any (·.id = fresh) then none
    else some { r.setPage { r.page with server } with accepting := r.accepting.set i (answer, source) }
  | .answer i => do
    let (call, _) ← r.accepting[i]?
    let page ← r.page.receive call
    some { r.setPage page with
      accepting := r.accepting.eraseIdx i
      clears := if call.isSaved then r.clears + 1 else r.clears }
  | .clear => if r.clears = 0 then none else some { r with proposal := none, clears := r.clears - 1 }

def Refining.stores (validate : E → Option E) (r : Refining E) : Move E → Option Nat
  | .serve i fresh =>
    match r.accepting[i]? with
    | some (.save document expected, source) =>
      match r.page.server.saveDocument (tracked validate) document expected fresh with
      | .ok _ => some source
      | .error _ => none
    | _ => none
  | _ => none

def Deed.edits : Deed E → Bool
  | .edit _ | .undo | .redo => true
  | _ => false

/-- A proposal is accepted only while the editor shows its source unedited, nothing is edited until the
    answer, and nothing between another save and its answer. -/
def careful (r : Refining E) : Move E → Bool
  | .deed deed => (!deed.edits || r.accepting.isEmpty) && sentAll r.watched deed
  | .accept => !r.page.store.dirty && r.proposal.all (r.page.currentRevisionId = some ·.source)
  | _ => true

structure Refined (r : Refining E) : Prop where
  kept : Kept r.watched
  clean : r.accepting ≠ [] → r.page.store.dirty = false
  expected : ∀ call ∈ r.accepting, ∀ document expected, call.1 = .save document expected →
    expected = some call.2
  stored : ∀ call ∈ r.accepting, call.1.Stored r.page.server

variable {validate : E → Option E} {w w' : Watched E} {r r' : Refining E}

theorem receive_keeps {page page' : Page (Tracked E)} {call : Call (Tracked E)}
    (received : page.receive call = some page') :
    page'.server = page.server ∧ (page'.store = page.store ∨ page'.store.dirty = false) := by
  cases call with
  | saved sent id =>
    cases received
    exact ⟨rfl, .inr rfl⟩
  | restored revision =>
    cases received
    exact ⟨rfl, .inr rfl⟩
  | approved | generated | refused _ =>
    cases received
    exact ⟨rfl, .inl rfl⟩
  | _ => cases received

theorem sync_keeps (page : Page (Tracked E)) : page.sync = page.store ∨ page.sync.dirty = false := by
  rcases page.sync_cases with ⟨_, _, _, copied⟩ | ⟨same, _⟩
  · rw [copied]
    exact .inr rfl
  · exact .inl same

theorem deed_clean {deed : Deed E} (quiet : deed.edits = false) (step : w.step validate deed = some w')
    (clean : w.page.store.dirty = false) : w'.page.store.dirty = false := by
  obtain ⟨page, stepped, rfl⟩ := Option.map_eq_some_iff.mp step
  cases deed with
  | edit | undo | redo => cases quiet
  | save =>
    simp only [Deed.action, Page.step] at stepped
    split at stepped
    · split at stepped
      · cases stepped
        exact clean
      · cases stepped
    · cases stepped
  | read | fetched =>
    simp only [Deed.action, Page.step] at stepped
    split at stepped
    · cases stepped
      exact clean
    · cases stepped
  | refetch =>
    simp only [Deed.action, Page.step] at stepped
    split at stepped
    · cases stepped
    · cases stepped
      exact clean
  | serve i fresh =>
    simp only [Deed.action, Page.step] at stepped
    obtain ⟨call, _, stepped⟩ := Option.bind_eq_some_iff.mp stepped
    obtain ⟨⟨server, answer⟩, _, stepped⟩ := Option.bind_eq_some_iff.mp stepped
    simp only at stepped
    split at stepped
    · cases stepped
    · cases stepped
      exact clean
  | answer i =>
    simp only [Deed.action, Page.step] at stepped
    obtain ⟨call, _, stepped⟩ := Option.bind_eq_some_iff.mp stepped
    rcases (receive_keeps stepped).2 with same | done
    · exact (congrArg EditorState.dirty same).trans clean
    · exact done
  | runEffect =>
    simp only [Deed.action, Page.step] at stepped
    split at stepped
    · cases stepped
      rcases sync_keeps w.page with same | done
      · exact (congrArg EditorState.dirty same).trans clean
      · exact done
    · cases stepped

theorem deed_stores (kept : Kept w) {deed : Deed E} (step : w.step validate deed = some w') :
    ∀ call : Call (Tracked E), call.Stored w.page.server → call.Stored w'.page.server := by
  obtain ⟨page, stepped, rfl⟩ := Option.map_eq_some_iff.mp step
  cases deed with
  | serve i fresh =>
    simp only [Deed.action, Page.step] at stepped
    obtain ⟨call, found, stepped⟩ := Option.bind_eq_some_iff.mp stepped
    obtain ⟨⟨server, answer⟩, handled, stepped⟩ := Option.bind_eq_some_iff.mp stepped
    simp only at stepped
    split at stepped
    · cases stepped
    · cases stepped
      exact (handle_stored (kept.calls call (List.mem_of_getElem? found)) handled).2.1
  | answer i =>
    simp only [Deed.action, Page.step] at stepped
    obtain ⟨call, _, stepped⟩ := Option.bind_eq_some_iff.mp stepped
    have same : page.server = w.page.server := (receive_keeps stepped).1
    exact fun call stored => same ▸ stored
  | save =>
    simp only [Deed.action, Page.step] at stepped
    split at stepped
    · split at stepped
      · cases stepped
        exact fun call stored => stored
      · cases stepped
    · cases stepped
  | refetch =>
    simp only [Deed.action, Page.step] at stepped
    split at stepped
    · cases stepped
    · cases stepped
      exact fun call stored => stored
  | read | fetched | edit | undo | redo | runEffect =>
    simp only [Deed.action, Page.step] at stepped
    split at stepped
    · cases stepped
      exact fun call stored => stored
    · cases stepped

theorem loaded_refined (server : Server E) : Refined (Refining.loaded server) where
  kept := loaded_kept server
  clean given := absurd rfl given
  expected _ member := nomatch member
  stored _ member := nomatch member

theorem deed_refined (refined : Refined r) {deed : Deed E} (may : careful r (.deed deed) = true)
    (step : r.step validate (.deed deed) = some r') : Refined r' := by
  obtain ⟨watched, stepped, rfl⟩ := Option.map_eq_some_iff.mp step
  obtain ⟨unedited, sent⟩ := Bool.and_eq_true_iff.mp may
  refine ⟨step_kept refined.kept sent stepped, fun waiting => ?_, refined.expected, fun call member => ?_⟩
  · have quiet : deed.edits = false := by
      have busy : r.accepting.isEmpty = false := by simpa using waiting
      simpa [busy] using unedited
    exact deed_clean quiet stepped (refined.clean waiting)
  · exact deed_stores refined.kept stepped call.1 (refined.stored call member)

theorem accept_refined (refined : Refined r) (may : careful r .accept = true)
    (step : r.step validate .accept = some r') :
    Refined r' := by
  simp only [careful, Bool.and_eq_true, Bool.not_eq_true'] at may
  obtain ⟨clean, source⟩ := may
  simp only [Refining.step] at step
  split at step
  · cases step
  · rename_i proposal shown
    split at step
    · cases step
      exact ⟨refined.kept, refined.clean, refined.expected, refined.stored⟩
    · cases step
      simp only [shown, Option.all_some, decide_eq_true_eq] at source
      refine ⟨refined.kept, fun _ => clean, ?_, ?_⟩
      · intro call member document expected same
        rcases List.mem_append.mp member with old | new
        · exact refined.expected call old document expected same
        · rw [List.mem_singleton.mp new] at same ⊢
          cases same
          exact source
      · intro call member
        rcases List.mem_append.mp member with old | new
        · exact refined.stored call old
        · rw [List.mem_singleton.mp new]
          trivial

theorem handle_answers {server server' : Server (Tracked E)} {fresh : Nat} {call answer : Call (Tracked E)}
    (handled : server.handle (tracked validate) fresh none call = some (server', some answer))
    (document : Tracked E) (expected : Option Nat) : answer ≠ .save document expected := by
  rintro rfl
  cases call with
  | save sent other =>
    simp only [Server.handle] at handled
    split at handled
    · cases handled
    · cases handled
  | restore revisionId =>
    simp only [Server.handle] at handled
    split at handled
    · cases handled
    · cases handled
  | _ => cases handled

theorem serve_refined (refined : Refined r) {i fresh : Nat}
    (step : r.step validate (.serve i fresh) = some r') : Refined r' := by
  simp only [Refining.step] at step
  obtain ⟨⟨call, source⟩, found, step⟩ := Option.bind_eq_some_iff.mp step
  obtain ⟨⟨server, answer⟩, handled, step⟩ := Option.bind_eq_some_iff.mp step
  obtain ⟨given, answered, step⟩ := Option.bind_eq_some_iff.mp step
  simp only at answered
  subst answered
  simp only at step
  split at step
  · cases step
  · have member := List.mem_of_getElem? found
    obtain ⟨stores, stored, answer, same, answered⟩ := handle_stored (refined.stored _ member) handled
    cases same
    cases step
    refine ⟨refined.kept.grow stores fun call member => stored call (refined.kept.calls call member),
      ?_, ?_, ?_⟩
    · intro _
      exact refined.clean fun nothing => by rw [nothing] at member; cases member
    · intro other inside document expected save
      rcases List.mem_or_eq_of_mem_set inside with old | rfl
      · exact refined.expected other old document expected save
      · exact absurd save (handle_answers handled document expected)
    · intro other inside
      rcases List.mem_or_eq_of_mem_set inside with old | rfl
      · exact stored other.1 (refined.stored other old)
      · exact answered

theorem answer_refined (refined : Refined r) {i : Nat} (step : r.step validate (.answer i) = some r') :
    Refined r' := by
  simp only [Refining.step] at step
  obtain ⟨⟨call, source⟩, found, step⟩ := Option.bind_eq_some_iff.mp step
  obtain ⟨page, received, step⟩ := Option.bind_eq_some_iff.mp step
  cases step
  have member := List.mem_of_getElem? found
  have clean : r.page.store.dirty = false := refined.clean fun nothing =>
    by rw [nothing] at member; cases member
  obtain ⟨server, store⟩ := receive_keeps received
  have still : page.store.dirty = false := by
    rcases store with same | done
    · rw [same]
      exact clean
    · exact done
  have kept : Kept (r.setPage page).watched := by
    cases call with
    | saved sent id =>
      cases received
      exact refined.kept.markSaved (refined.kept.clean clean) id
    | refused reason =>
      cases received
      exact refined.kept
    | save document expected => cases received
    | _ => cases refined.stored _ member
  refine ⟨kept, fun _ => still, fun other inside => refined.expected other (List.mem_of_mem_eraseIdx inside),
    ?_⟩
  intro other inside
  have before := refined.stored other (List.mem_of_mem_eraseIdx inside)
  have same : page.server = r.page.server := server
  show other.1.Stored page.server
  rw [same]
  exact before

theorem Refined.congr (refined : Refined r) (watched : r'.watched = r.watched)
    (accepting : r'.accepting = r.accepting) :
    Refined r' where
  kept := watched ▸ refined.kept
  clean := by
    rw [accepting, Refining.page, watched]
    exact refined.clean
  expected := by
    rw [accepting]
    exact refined.expected
  stored := by
    rw [accepting, Refining.page, watched]
    exact refined.stored

theorem step_refined (refined : Refined r) {move : Move E} (may : careful r move = true)
    (step : r.step validate move = some r') :
    Refined r' := by
  cases move with
  | deed deed => exact deed_refined refined may step
  | accept => exact accept_refined refined may step
  | serve i fresh => exact serve_refined refined step
  | answer i => exact answer_refined refined step
  | preview | previewFailed | reject =>
    simp only [Refining.step] at step
    split at step
    · cases step
      exact refined.congr rfl rfl
    · cases step
  | clear =>
    simp only [Refining.step] at step
    split at step
    · cases step
    · cases step
      exact refined.congr rfl rfl
  | readPreview | propose =>
    simp only [Refining.step] at step
    split at step
    · split at step
      · cases step
        exact refined.congr rfl rfl
      · cases step
        exact refined.congr rfl rfl
    · cases step

/-- As long as proposals are accepted carefully, the server stores one only while its source is the current
    revision and the editor holds no unsaved edit. -/
theorem proposals_accepted {server : Server E}
    (run : Machine.Reaches (Refining.step validate) careful (.loaded server) r) {move : Move E} {source : Nat}
    (stores : r.stores validate move = some source) :
    r.page.server.current.id = source ∧ r.page.store.dirty = false ∧
      ∀ edit ∈ r.page.edits, r.page.server.Stores edit := by
  have refined : Refined r := run.invariant (fun refined may step => step_refined refined may step)
    (loaded_refined server)
  cases move with
  | serve i fresh =>
    simp only [Refining.stores] at stores
    split at stores
    · rename_i document expected origin found
      split at stores
      · rename_i server' saved
        cases stores
        have member := List.mem_of_getElem? found
        have clean := refined.clean fun nothing => by rw [nothing] at member; cases member
        have named := refined.expected _ member document expected rfl
        refine ⟨?_, clean, refined.kept.clean clean⟩
        have current := Server.saveDocument_expected saved named
        exact current
      · cases stores
    · cases stores
  | _ => cases stores

end Refine

theorem proposals_accepted_draft :
    ∃ r : Refining Nat, Machine.Reaches (Refining.step some) careful (.loaded ⟨[], ⟨1, 0⟩, false⟩) r ∧
    r.stores some (.serve 0 2) = some 1 ∧ r.page.server.current.id = 1 ∧ r.page.store.dirty = false ∧
      ∀ edit ∈ r.page.edits, r.page.server.Stores edit := by
  have ran : (Machine.perform (Refining.step some) careful (.loaded ⟨[], ⟨1, 0⟩, false⟩)
      [.preview, .readPreview 0, .propose 0 (· + 5), .accept]).any (fun r =>
        r.stores some (.serve 0 2) = some 1) = true := by decide
  obtain ⟨r, run, checked⟩ := Machine.reaches_of_performed ran
  have stores := of_decide_eq_true checked
  exact ⟨r, run, stores, proposals_accepted run stores⟩

/-- A proposal computed before an autosave is stored after it, over the work that the autosave stored. -/
theorem stale_proposal :
    ∃ r : Refining Nat, Machine.Reaches (Refining.step some) (fun _ _ => true)
    (.loaded ⟨[], ⟨1, 0⟩, false⟩) r ∧
    r.stores some (.serve 0 3) = some 1 ∧ r.page.server.current.id = 2 ∧
      r.page.server.current.document.edits = [0] ∧
      r.proposal.map (·.document.edits) = some [] := by
  have ran : (Machine.perform (Refining.step some) (fun _ _ => true) (.loaded ⟨[], ⟨1, 0⟩, false⟩)
      [.preview, .readPreview 0, .deed (.edit (· + 7)), .deed .save, .deed (.serve 0 2), .deed (.answer 0),
        .propose 0 (· + 5), .accept]).any (fun r =>
          r.stores some (.serve 0 3) = some 1 ∧ r.page.server.current.id = 2 ∧
          r.page.server.current.document.edits = [0] ∧ r.proposal.map (·.document.edits) = some []) =
              true := by
    decide
  obtain ⟨r, run, checked⟩ := Machine.reaches_of_performed ran
  exact ⟨r, run, of_decide_eq_true checked⟩

end ManifestCV.Editor
