import ManifestCV.Foundation.Text

namespace ManifestCV.Editor

open Foundation

structure EditorState (D : Type) where
  document : Option D
  selectedId : Option Str
  savedRevisionId : Option Nat
  dirty : Bool
  undo : List D
  redo : List D

namespace EditorState

variable {D : Type}

def initial : EditorState D := ⟨none, none, none, false, [], []⟩

def lastFifty (documents : List D) : List D := documents.drop (documents.length - 50)

def setDocument (state : EditorState D) (document : D) (revisionId : Option Nat) : EditorState D :=
  { state with
    document := some document
    savedRevisionId := revisionId
    dirty := false
    undo := []
    redo := [] }

def update (state : EditorState D) (change : D → D) : EditorState D :=
  match state.document with
  | some document =>
    { state with
      document := some (change document)
      undo := lastFifty (state.undo ++ [document])
      redo := []
      dirty := true }
  | none => state

def select (state : EditorState D) (selectedId : Option Str) : EditorState D := { state with selectedId }

def undoChange (state : EditorState D) : EditorState D :=
  match state.undo.getLast?, state.document with
  | some previous, some document =>
    { state with
      document := some previous
      undo := state.undo.dropLast
      redo := (document :: state.redo).take 50
      dirty := true }
  | _, _ => state

def redoChange (state : EditorState D) : EditorState D :=
  match state.redo, state.document with
  | next :: rest, some document =>
    { state with
      document := some next
      redo := rest
      undo := lastFifty (state.undo ++ [document])
      dirty := true }
  | _, _ => state

def markSaved (state : EditorState D) (savedRevisionId : Nat) : EditorState D :=
  { state with savedRevisionId := some savedRevisionId, dirty := false, undo := [], redo := [] }

def timeline (state : EditorState D) : List D := state.undo ++ (state.document.toList ++ state.redo)

theorem lastFifty_sublist (documents : List D) : (lastFifty documents).Sublist documents :=
  List.drop_sublist _ _

theorem update_timeline {state : EditorState D} {document : D} (shown : state.document = some document)
    (change : D → D) :
    (state.update change).timeline.Sublist (state.undo ++ [document] ++ [change document]) := by
  rw [update, shown]
  exact (lastFifty_sublist _).append (List.Sublist.refl _)

theorem undoChange_spec {state : EditorState D} {document : D} (shown : state.document = some document)
    (given : state.undo ≠ []) : ∃ previous, state.undoChange.document = some previous ∧
      state.undoChange.dirty = true ∧
      state.undoChange.savedRevisionId = state.savedRevisionId ∧
        state.undoChange.timeline.Sublist state.timeline := by
  obtain ⟨earlier, previous, same⟩ := List.eq_nil_or_concat state.undo |>.resolve_left given
  rw [List.concat_eq_append] at same
  refine ⟨previous, ?_⟩
  simp only [undoChange, timeline, same, shown, List.getLast?_append, List.getLast?_singleton, Option.some_or,
    List.dropLast_concat, Option.toList_some, List.append_assoc]
  exact ⟨trivial, trivial, trivial,
    (List.Sublist.refl _).append ((List.Sublist.refl _).append (List.take_sublist _ _))⟩

theorem redoChange_spec {state : EditorState D} {document : D} (shown : state.document = some document)
    (given : state.redo ≠ []) :
    ∃ next rest, state.redo = next :: rest ∧ state.redoChange.document = some next ∧
      state.redoChange.dirty = true ∧ state.redoChange.savedRevisionId = state.savedRevisionId ∧
      state.redoChange.timeline.Sublist state.timeline := by
  obtain ⟨next, rest, same⟩ := List.exists_cons_of_ne_nil given
  refine ⟨next, rest, same, ?_⟩
  simp only [redoChange, timeline, same, shown, Option.toList_some]
  refine ⟨trivial, trivial, trivial, ?_⟩
  rw [← List.append_assoc, ← List.append_assoc, List.append_cons (state.undo ++ [document]) next rest]
  exact ((lastFifty_sublist _).append (List.Sublist.refl _)).append (List.Sublist.refl _)

def Touched (state state' : EditorState D) : Prop :=
  state' = state ∨ state'.dirty = true ∧ state'.document ≠ none

theorem update_touched (state : EditorState D) (change : D → D) : state.Touched (state.update change) := by
  rw [update]
  split
  · exact .inr ⟨rfl, fun same => nomatch same⟩
  · exact .inl rfl

theorem undoChange_touched (state : EditorState D) : state.Touched state.undoChange := by
  rw [undoChange]
  split
  · exact .inr ⟨rfl, fun same => nomatch same⟩
  · exact .inl rfl

theorem redoChange_touched (state : EditorState D) : state.Touched state.redoChange := by
  rw [redoChange]
  split
  · exact .inr ⟨rfl, fun same => nomatch same⟩
  · exact .inl rfl

end EditorState

end ManifestCV.Editor
