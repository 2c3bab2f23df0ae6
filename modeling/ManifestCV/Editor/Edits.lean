import ManifestCV.Editor.Page

namespace ManifestCV.Editor

open Foundation

structure Tracked (E : Type) where
  document : E
  edits : List Nat

structure Watched (E : Type) where
  page : Page (Tracked E)
  made : Nat
  undone : List Nat

inductive Deed (E : Type) where
  | edit (change : E → E)
  | undo
  | redo
  | save
  | refetch
  | serve (i fresh : Nat)
  | answer (i : Nat)
  | read
  | fetched
  | runEffect

section Watching

variable {E : Type}

def Deed.action (made : Nat) : Deed E → Action (Tracked E)
  | .edit change => .edit fun tracked => ⟨change tracked.document, made :: tracked.edits⟩
  | .undo => .undo
  | .redo => .redo
  | .save => .save
  | .refetch => .refetch
  | .serve i fresh => .serve i fresh none
  | .answer i => .answer i
  | .read => .read
  | .fetched => .fetched
  | .runEffect => .runEffect

def Page.edits (page : Page (Tracked E)) : List Nat :=
  match page.store.document with
  | some tracked => tracked.edits
  | none => []

def Server.Stores (server : Server (Tracked E)) (edit : Nat) : Prop :=
  ∃ revision ∈ server.revisions, edit ∈ revision.document.edits

def tracked (validate : E → Option E) (document : Tracked E) : Option (Tracked E) :=
  (validate document.document).map (⟨·, document.edits⟩)

def Watched.step (validate : E → Option E) (w : Watched E) (deed : Deed E) : Option (Watched E) :=
  (w.page.step (tracked validate) (deed.action w.made)).map fun page =>
    match deed with
    | .edit _ => ⟨page, w.made + 1, w.undone⟩
    | .undo => ⟨page, w.made, w.page.edits.filter (· ∉ page.edits) ++ w.undone⟩
    | .redo => ⟨page, w.made, w.undone.filter (· ∉ page.edits)⟩
    | _ => ⟨page, w.made, w.undone⟩

def Watched.loaded (server : Server E) : Watched E :=
  let track (revision : Revision E) : Revision (Tracked E) := ⟨revision.id, revision.document, []⟩
  let current := track server.current
  { page :=
      { store := EditorState.initial.setDocument current.document (some current.id)
        cache := some ⟨current, server.approved⟩
        fetch := none
        calls := []
        effect := false
        server := ⟨server.earlier.map track, current, server.approved⟩ }
    made := 0
    undone := [] }

def Watched.Keeps (w : Watched E) : Prop :=
  ∀ edit < w.made, edit ∈ w.page.edits ∨ w.page.server.Stores edit ∨ edit ∈ w.undone

/-- When the answer to a save arrives, the document that was sent has every edit that the editor's document
    has. -/
def sentAll (w : Watched E) : Deed E → Bool
  | .answer i =>
    match w.page.calls[i]? with
    | some (.saved sent _) => w.page.edits.all (· ∈ sent.edits)
    | _ => true
  | _ => true

def Call.Stored (server : Server (Tracked E)) : Call (Tracked E) → Prop
  | .save _ _ | .refused _ => True
  | .saved sent _ => ∀ edit ∈ sent.edits, server.Stores edit
  | _ => False

structure Kept (w : Watched E) : Prop where
  loaded : ∃ document, w.page.store.document = some document
  accounted : w.Keeps
  clean : w.page.store.dirty = false → ∀ edit ∈ w.page.edits, w.page.server.Stores edit
  cached : ∀ snapshot, w.page.cache = some snapshot → ∀ edit ∈ snapshot.revision.document.edits,
    w.page.server.Stores edit
  fetching : ∀ snapshot, w.page.fetch = some (some snapshot) →
    ∀ edit ∈ snapshot.revision.document.edits, w.page.server.Stores edit
  calls : ∀ call ∈ w.page.calls, call.Stored w.page.server
  chain : w.page.store.timeline.Pairwise fun before after => before.edits ⊆ after.edits

theorem Page.edits_eq {p : Page (Tracked E)} {document : Tracked E}
    (shown : p.store.document = some document) :
    p.edits = document.edits := by
  rw [Page.edits, shown]

theorem Server.Stores.append {server : Server (Tracked E)} {edit : Nat} (stores : server.Stores edit)
    (revision : Revision (Tracked E)) : (server.append revision).Stores edit := by
  obtain ⟨old, member, inside⟩ := stores
  exact ⟨old, List.mem_append_left _ member, inside⟩

theorem Call.Stored.append {server : Server (Tracked E)} {call : Call (Tracked E)}
    (stored : call.Stored server) (revision : Revision (Tracked E)) :
    call.Stored (server.append revision) := by
  cases call with
  | saved sent id => exact fun edit member => (stored edit member).append revision
  | save document expected => trivial
  | refused reason => trivial
  | _ => exact stored

theorem tracked_edits {validate : E → Option E} {document stored : Tracked E}
    (valid : tracked validate document = some stored) :
    stored.edits = document.edits := by
  obtain ⟨_, _, rfl⟩ := Option.map_eq_some_iff.mp valid
  rfl

/-- The server keeps what it has stored, and its answer to a save tells that the document is stored. -/
theorem handle_stored {validate : E → Option E} {server server' : Server (Tracked E)} {fresh : Nat}
    {call : Call (Tracked E)} {answer : Option (Call (Tracked E))} (stored : call.Stored server)
    (handled : server.handle (tracked validate) fresh none call = some (server', answer)) :
    (∀ edit, server.Stores edit → server'.Stores edit) ∧
    (∀ other : Call (Tracked E), other.Stored server → other.Stored server') ∧
      ∃ given, answer = some given ∧ given.Stored server' := by
  cases call with
  | save document expected =>
    simp only [Server.handle] at handled
    split at handled
    · rename_i server'' saved
      cases handled
      obtain ⟨kept, valid, rfl⟩ := Server.saveDocument_ok saved
      refine ⟨fun edit stores => stores.append _, fun other stored => stored.append _, _, rfl, ?_⟩
      intro edit member
      exact ⟨⟨fresh, kept⟩, List.mem_append_right _ (List.mem_singleton.mpr rfl),
        by rw [tracked_edits valid]; exact member⟩
    · cases handled
      exact ⟨fun _ stores => stores, fun _ stored => stored, _, rfl, trivial⟩
  | saved sent id => cases handled
  | refused reason => cases handled
  | _ => cases stored

theorem loaded_kept (server : Server E) : Kept (Watched.loaded server) where
  loaded := ⟨_, rfl⟩
  accounted _ below := absurd below (Nat.not_lt_zero _)
  clean _ _ member := nomatch member
  cached _ same _ member := by
    cases same
    cases member
  fetching _ same := nomatch same
  calls _ member := nomatch member
  chain := List.pairwise_singleton _ _

variable {validate : E → Option E} {w w' : Watched E}

theorem edit_kept (kept : Kept w) {change : E → E} (step : w.step validate (.edit change) = some w') :
    Kept w' := by
  obtain ⟨page, stepped, rfl⟩ := Option.map_eq_some_iff.mp step
  simp only [Deed.action, Page.step] at stepped
  split at stepped
  · cases stepped
    obtain ⟨document, shown⟩ := kept.loaded
    let edited : Tracked E := ⟨change document.document, w.made :: document.edits⟩
    have now : (w.page.store.update fun tracked =>
        ⟨change tracked.document, w.made :: tracked.edits⟩).document = some edited := by
      rw [EditorState.update, shown]
    refine ⟨⟨_, now⟩, ?_, ?_, kept.cached, kept.fetching, kept.calls, ?_⟩
    · intro edit below
      rw [Page.edits_eq now]
      rcases Nat.lt_succ_iff_lt_or_eq.mp below with below | rfl
      · rcases kept.accounted edit below with here | elsewhere
        · rw [Page.edits_eq shown] at here
          exact .inl (List.mem_cons_of_mem _ here)
        · exact .inr elsewhere
      · exact .inl List.mem_cons_self
    · intro clean
      rw [Page.setStore, EditorState.update, shown] at clean
      cases clean
    · refine List.Pairwise.sublist (EditorState.update_timeline shown _) ?_
      have before : (w.page.store.undo ++ [document]).Pairwise fun before after =>
          before.edits ⊆ after.edits := by
        refine kept.chain.sublist ?_
        rw [EditorState.timeline, shown]
        exact (List.Sublist.refl _).append (List.sublist_append_left _ _)
      rw [List.pairwise_append]
      refine ⟨before, List.pairwise_singleton _ _, ?_⟩
      intro earlier member after single
      cases List.mem_singleton.mp single
      intro edit inside
      refine List.mem_cons_of_mem _ ?_
      rcases List.mem_append.mp member with member | member
      · exact (List.pairwise_append.mp before).2.2 earlier member document (List.mem_singleton.mpr rfl) inside
      · rw [List.mem_singleton.mp member] at inside
        exact inside
  · cases stepped

theorem undo_kept (kept : Kept w) (step : w.step validate .undo = some w') : Kept w' := by
  obtain ⟨page, stepped, rfl⟩ := Option.map_eq_some_iff.mp step
  simp only [Deed.action, Page.step] at stepped
  split at stepped
  · rename_i possible
    cases stepped
    obtain ⟨document, shown⟩ := kept.loaded
    have given : w.page.store.undo ≠ [] := by simpa using possible.2
    obtain ⟨previous, now, dirty, _, timeline⟩ := EditorState.undoChange_spec shown given
    refine ⟨⟨previous, now⟩, ?_, ?_, kept.cached, kept.fetching, kept.calls, kept.chain.sublist timeline⟩
    · intro edit below
      rcases kept.accounted edit below with here | stored | undone
      · by_cases still : edit ∈ (w.page.setStore w.page.store.undoChange).edits
        · exact .inl still
        · exact .inr (.inr (List.mem_append_left _ (List.mem_filter.mpr ⟨here, decide_eq_true still⟩)))
      · exact .inr (.inl stored)
      · exact .inr (.inr (List.mem_append_right _ undone))
    · intro clean
      cases clean.symm.trans dirty
  · cases stepped

theorem redo_kept (kept : Kept w) (step : w.step validate .redo = some w') : Kept w' := by
  obtain ⟨page, stepped, rfl⟩ := Option.map_eq_some_iff.mp step
  simp only [Deed.action, Page.step] at stepped
  split at stepped
  · rename_i possible
    cases stepped
    obtain ⟨document, shown⟩ := kept.loaded
    have given : w.page.store.redo ≠ [] := by simpa using possible.2
    obtain ⟨next, rest, queued, now, dirty, _, timeline⟩ := EditorState.redoChange_spec shown given
    refine ⟨⟨next, now⟩, ?_, ?_, kept.cached, kept.fetching, kept.calls, kept.chain.sublist timeline⟩
    · have grows : document.edits ⊆ next.edits := by
        have chain := kept.chain
        rw [EditorState.timeline, shown, queued] at chain
        have after := (List.pairwise_append.mp chain).2.1
        exact (List.pairwise_cons.mp after).1 next List.mem_cons_self
      intro edit below
      rw [Page.edits_eq (p := w.page.setStore w.page.store.redoChange) now]
      rcases kept.accounted edit below with here | stored | undone
      · rw [Page.edits_eq shown] at here
        exact .inl (grows here)
      · exact .inr (.inl stored)
      · by_cases again : edit ∈ next.edits
        · exact .inl again
        · refine .inr (.inr (List.mem_filter.mpr ⟨undone, ?_⟩))
          rw [Page.edits_eq (p := w.page.setStore w.page.store.redoChange) now]
          exact decide_eq_true again
    · intro clean
      cases clean.symm.trans dirty
  · cases stepped

theorem Kept.grow (kept : Kept w) {server : Server (Tracked E)} {calls : List (Call (Tracked E))}
    (stores : ∀ edit, w.page.server.Stores edit → server.Stores edit)
    (stored : ∀ call ∈ calls, call.Stored server) :
    Kept { w with page := { w.page with server, calls } } where
  loaded := kept.loaded
  accounted edit below := by
    rcases kept.accounted edit below with here | inside | undone
    · exact .inl here
    · exact .inr (.inl (stores edit inside))
    · exact .inr (.inr undone)
  clean clean edit member := stores edit (kept.clean clean edit member)
  cached snapshot cached edit member := stores edit (kept.cached snapshot cached edit member)
  fetching snapshot fetching edit member := stores edit (kept.fetching snapshot fetching edit member)
  calls := stored
  chain := kept.chain

theorem Kept.markSaved (kept : Kept w) (stored : ∀ edit ∈ w.page.edits, w.page.server.Stores edit)
    (id : Nat) :
    Kept { w with page := (w.page.setStore (w.page.store.markSaved id)).refetch } where
  loaded := kept.loaded
  accounted := kept.accounted
  clean _ := stored
  cached := kept.cached
  fetching _ same := nomatch same
  calls := kept.calls
  chain := by
    obtain ⟨shown, same⟩ := kept.loaded
    simp only [EditorState.timeline, Page.refetch, Page.setStore, EditorState.markSaved, same]
    exact List.pairwise_singleton _ _

theorem serve_kept (kept : Kept w) {i fresh : Nat} (step : w.step validate (.serve i fresh) = some w') :
    Kept w' := by
  obtain ⟨page, stepped, rfl⟩ := Option.map_eq_some_iff.mp step
  simp only [Deed.action, Page.step] at stepped
  obtain ⟨call, found, stepped⟩ := Option.bind_eq_some_iff.mp stepped
  obtain ⟨⟨server, answer⟩, handled, stepped⟩ := Option.bind_eq_some_iff.mp stepped
  simp only at stepped
  split at stepped
  · cases stepped
  · obtain ⟨stores, stored, given, rfl, answered⟩ :=
      handle_stored (kept.calls call (List.mem_of_getElem? found)) handled
    cases stepped
    refine kept.grow stores ?_
    intro other member
    rcases List.mem_or_eq_of_mem_set member with old | rfl
    · exact stored other (kept.calls other old)
    · exact answered

theorem answer_kept (kept : Kept w) {i : Nat} (sent : sentAll w (.answer i) = true)
    (step : w.step validate (.answer i) = some w') : Kept w' := by
  obtain ⟨page, stepped, rfl⟩ := Option.map_eq_some_iff.mp step
  simp only [Deed.action, Page.step] at stepped
  obtain ⟨call, found, stepped⟩ := Option.bind_eq_some_iff.mp stepped
  have stored := kept.calls call (List.mem_of_getElem? found)
  have rest : Kept { w with page := { w.page with calls := w.page.calls.eraseIdx i } } :=
    kept.grow (fun _ stores => stores) fun other member => kept.calls other (List.mem_of_mem_eraseIdx member)
  cases call with
  | refused reason =>
    cases stepped
    exact rest
  | saved document id =>
    cases stepped
    simp only [sentAll, found, List.all_eq_true, decide_eq_true_eq] at sent
    exact rest.markSaved (fun edit member => stored edit (sent edit member)) id
  | save document expected => cases stepped
  | _ => cases stored

theorem runEffect_kept (kept : Kept w) (step : w.step validate .runEffect = some w') : Kept w' := by
  obtain ⟨page, stepped, rfl⟩ := Option.map_eq_some_iff.mp step
  simp only [Deed.action, Page.step] at stepped
  split at stepped
  · cases stepped
    obtain ⟨document, shown⟩ := kept.loaded
    rcases w.page.sync_cases with ⟨snapshot, cached, copies, now⟩ | ⟨same, _⟩
    · have clean : w.page.store.dirty = false := by
        rcases copies with missing | copies
        · cases shown.symm.trans missing
        · exact copies.1
      refine ⟨⟨_, by rw [now]; rfl⟩, ?_, ?_, kept.cached, kept.fetching, kept.calls, ?_⟩
      · intro edit below
        rcases kept.accounted edit below with here | elsewhere
        · exact .inr (.inl (kept.clean clean edit here))
        · exact .inr elsewhere
      · intro _ edit member
        rw [Page.edits_eq (p := { w.page with store := w.page.sync, effect := false })
          (by rw [now]; rfl)] at member
        exact kept.cached snapshot cached edit member
      · rw [now]
        exact List.pairwise_singleton _ _
    · rw [same]
      exact ⟨kept.loaded, kept.accounted, kept.clean, kept.cached, kept.fetching, kept.calls, kept.chain⟩
  · cases stepped

theorem fetch_kept (kept : Kept w) {deed : Deed E}
    (quiet : deed = .save ∨ deed = .refetch ∨ deed = .read ∨ deed = .fetched)
    (step : w.step validate deed = some w') : Kept w' := by
  rcases quiet with rfl | rfl | rfl | rfl
  all_goals
    obtain ⟨page, stepped, rfl⟩ := Option.map_eq_some_iff.mp step
    simp only [Deed.action, Page.step] at stepped
    split at stepped
  · split at stepped
    · cases stepped
      refine ⟨kept.loaded, kept.accounted, kept.clean, kept.cached, kept.fetching, ?_, kept.chain⟩
      intro other member
      rcases List.mem_append.mp member with old | new
      · exact kept.calls other old
      · rw [List.mem_singleton.mp new]
        trivial
    · cases stepped
  · cases stepped
  · cases stepped
  · cases stepped
    exact ⟨kept.loaded, kept.accounted, kept.clean, kept.cached, fun _ same => (nomatch same),
      kept.calls, kept.chain⟩
  · cases stepped
    refine ⟨kept.loaded, kept.accounted, kept.clean, kept.cached, ?_, kept.calls, kept.chain⟩
    intro snapshot same edit member
    cases same
    exact ⟨_, List.mem_append_right _ (List.mem_singleton.mpr rfl), member⟩
  · cases stepped
  · rename_i snapshot fetching
    cases stepped
    refine ⟨kept.loaded, kept.accounted, kept.clean, ?_, fun _ same => (nomatch same), kept.calls, kept.chain⟩
    intro other same edit member
    cases same
    exact kept.fetching snapshot fetching edit member
  · cases stepped

theorem step_kept (kept : Kept w) {deed : Deed E} (sent : sentAll w deed = true)
    (step : w.step validate deed = some w') :
    Kept w' := by
  cases deed with
  | edit change => exact edit_kept kept step
  | undo => exact undo_kept kept step
  | redo => exact redo_kept kept step
  | serve i fresh => exact serve_kept kept step
  | answer i => exact answer_kept kept sent step
  | runEffect => exact runEffect_kept kept step
  | save => exact fetch_kept kept (.inl rfl) step
  | refetch => exact fetch_kept kept (.inr (.inl rfl)) step
  | read => exact fetch_kept kept (.inr (.inr (.inl rfl))) step
  | fetched => exact fetch_kept kept (.inr (.inr (.inr rfl))) step

/-- No edit is lost as long as nothing is edited between a save and its answer. -/
theorem edits_kept {server : Server E}
    (run : Machine.Reaches (Watched.step validate) sentAll (.loaded server) w) : w.Keeps :=
  (run.invariant (fun kept sent step => step_kept kept sent step) (loaded_kept server)).accounted

end Watching

def draft : Watched Nat := .loaded ⟨[], ⟨1, 0⟩, false⟩

theorem edits_kept_saved : ∃ w, Machine.Reaches (Watched.step some) sentAll draft w ∧ w.Keeps ∧ w.made = 2 ∧
    w.page.edits = [1, 0] := by
  have ran : (Machine.perform (Watched.step some) sentAll draft
      [.edit (· + 1), .save, .serve 0 2, .answer 0, .runEffect, .read, .fetched, .runEffect,
        .edit (· + 2)]).any
      (fun w => w.made = 2 ∧ w.page.edits = [1, 0]) = true := by decide
  obtain ⟨w, run, checked⟩ := Machine.reaches_of_performed ran
  obtain ⟨made, edits⟩ := of_decide_eq_true checked
  exact ⟨w, run, edits_kept run, made, edits⟩

/-- The second edit is made while the first is being saved, and is gone with the answer. -/
theorem edit_lost : ∃ w, Machine.Reaches (Watched.step some) (fun _ _ => true) draft w ∧ ¬ w.Keeps := by
  have ran : (Machine.perform (Watched.step some) (fun _ _ => true) draft
      [.edit (· + 1), .save, .edit (· + 2), .serve 0 2, .answer 0, .runEffect]).any
      (fun w => 1 < w.made ∧ 1 ∉ w.page.edits ∧
        (∀ revision ∈ w.page.server.revisions, 1 ∉ revision.document.edits) ∧
        1 ∉ w.undone) = true := by decide
  obtain ⟨w, run, checked⟩ := Machine.reaches_of_performed ran
  obtain ⟨made, here, stored, undone⟩ := of_decide_eq_true checked
  refine ⟨w, run, ?_⟩
  intro keeps
  rcases keeps 1 made with inside | ⟨revision, member, inside⟩ | inside
  · exact here inside
  · exact stored revision member inside
  · exact undone inside

end ManifestCV.Editor
