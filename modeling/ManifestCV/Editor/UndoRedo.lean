import ManifestCV.Editor.Store

namespace ManifestCV.Editor

open Foundation

inductive StoreCall (D : Type) where
  | setDocument (document : D) (revisionId : Option Nat)
  | update (change : D → D)
  | select (selectedId : Option Str)
  | undoChange
  | redoChange
  | markSaved (revisionId : Nat)

namespace StoreCall

variable {D : Type}

def isUpdate : StoreCall D → Bool
  | .update _ => true
  | _ => false

def isUndo : StoreCall D → Bool
  | .undoChange => true
  | _ => false

def isSelect : StoreCall D → Bool
  | .select _ => true
  | _ => false

end StoreCall

namespace EditorState

variable {D : Type}

def call (state : EditorState D) : StoreCall D → EditorState D
  | .setDocument document revisionId => state.setDocument document revisionId
  | .update change => state.update change
  | .select selectedId => state.select selectedId
  | .undoChange => state.undoChange
  | .redoChange => state.redoChange
  | .markSaved revisionId => state.markSaved revisionId

def after (state : EditorState D) (calls : List (StoreCall D)) : EditorState D := calls.foldl call state

theorem after_append (state : EditorState D) (first second : List (StoreCall D)) :
    state.after (first ++ second) = (state.after first).after second :=
  List.foldl_append

/-- The two stacks fit into 50 entries together, and both are empty while no document is shown. -/
structure Undoable (state : EditorState D) : Prop where
  few : state.undo.length + state.redo.length ≤ 50
  shown : state.document = none → state.undo = [] ∧ state.redo = []

theorem lastFifty_length (documents : List D) : (lastFifty documents).length ≤ 50 := by
  rw [lastFifty, List.length_drop]
  omega

theorem lastFifty_short {documents : List D} (short : documents.length ≤ 50) :
    lastFifty documents = documents := by
  rw [lastFifty]
  have nothing : documents.length - 50 = 0 := by omega
  rw [nothing, List.drop_zero]

theorem lastFifty_reverse (documents : List D) :
    (lastFifty documents).reverse = documents.reverse.take 50 := by
  rw [lastFifty, List.reverse_drop]
  by_cases short : documents.length ≤ 50
  · have all : documents.length - (documents.length - 50) = documents.length := by omega
    rw [all, List.take_of_length_le (by simp), List.take_of_length_le (by simpa using short)]
  · have fifty : documents.length - (documents.length - 50) = 50 := by omega
    rw [fifty]

namespace Undoable

variable {state : EditorState D}

theorem document_of_undo (holds : state.Undoable) (given : state.undo ≠ []) :
    ∃ document, state.document = some document := by
  apply Option.ne_none_iff_exists'.mp
  intro missing
  exact given (holds.shown missing).1

theorem document_of_redo (holds : state.Undoable) (given : state.redo ≠ []) :
    ∃ document, state.document = some document := by
  apply Option.ne_none_iff_exists'.mp
  intro missing
  exact given (holds.shown missing).2

/-- `slice(0, 50)` drops nothing, since the stack that `undoChange` pops has an entry. -/
theorem undoChange_eq (holds : state.Undoable) {earlier : List D} {previous document : D}
    (stack : state.undo = earlier ++ [previous]) (shown : state.document = some document) :
    state.undoChange =
      { state with
        document := some previous
        undo := earlier
        redo := document :: state.redo
        dirty := true } := by
  have few := holds.few
  rw [stack, List.length_append, List.length_singleton] at few
  have whole : (document :: state.redo).take 50 = document :: state.redo := by
    apply List.take_of_length_le
    rw [List.length_cons]
    omega
  simp only [undoChange, stack, shown, List.getLast?_append, List.getLast?_singleton, Option.some_or,
    List.dropLast_concat, whole]

theorem redoChange_eq (holds : state.Undoable) {next document : D} {rest : List D}
    (stack : state.redo = next :: rest) (shown : state.document = some document) :
    state.redoChange =
      { state with
        document := some next
        redo := rest
        undo := state.undo ++ [document]
        dirty := true } := by
  have few := holds.few
  rw [stack, List.length_cons] at few
  have whole : lastFifty (state.undo ++ [document]) = state.undo ++ [document] := by
    apply lastFifty_short
    rw [List.length_append, List.length_singleton]
    omega
  simp only [redoChange, stack, shown, whole]

theorem update (holds : state.Undoable) (change : D → D) : (state.update change).Undoable := by
  rw [EditorState.update]
  split
  · constructor
    · have short := lastFifty_length (state.undo ++ [‹D›])
      simpa using short
    · intro missing
      cases missing
  · exact holds

theorem undoChange (holds : state.Undoable) : state.undoChange.Undoable := by
  by_cases empty : state.undo = []
  · have same : state.undoChange = state := by
      rw [EditorState.undoChange, empty]
      rfl
    rw [same]
    exact holds
  · obtain ⟨document, shown⟩ := holds.document_of_undo empty
    have stack := List.dropLast_concat_getLast empty
    rw [holds.undoChange_eq stack.symm shown]
    constructor
    · have few := holds.few
      rw [← stack, List.length_append, List.length_singleton] at few
      simp only [List.length_cons]
      omega
    · intro missing
      cases missing

theorem redoChange (holds : state.Undoable) : state.redoChange.Undoable := by
  cases stack : state.redo with
  | nil =>
    have same : state.redoChange = state := by
      rw [EditorState.redoChange, stack]
    rw [same]
    exact holds
  | cons next rest =>
    obtain ⟨document, shown⟩ := holds.document_of_redo (stack ▸ List.cons_ne_nil _ _)
    rw [holds.redoChange_eq stack shown]
    constructor
    · have few := holds.few
      rw [stack, List.length_cons] at few
      simp only [List.length_append, List.length_singleton]
      omega
    · intro missing
      cases missing

theorem call (holds : state.Undoable) (action : StoreCall D) : (state.call action).Undoable := by
  cases action with
  | setDocument document revisionId => exact ⟨Nat.zero_le _, fun _ => ⟨rfl, rfl⟩⟩
  | update change => exact holds.update change
  | select selectedId => exact ⟨holds.few, holds.shown⟩
  | undoChange => exact holds.undoChange
  | redoChange => exact holds.redoChange
  | markSaved revisionId => exact ⟨Nat.zero_le _, fun _ => ⟨rfl, rfl⟩⟩

end Undoable

theorem after_undoable {state : EditorState D} (holds : state.Undoable) (calls : List (StoreCall D)) :
    (state.after calls).Undoable := by
  induction calls generalizing state with
  | nil => exact holds
  | cons action calls ih => exact ih (holds.call action)

theorem initial_undoable : (initial : EditorState D).Undoable := ⟨Nat.zero_le _, fun _ => ⟨rfl, rfl⟩⟩

section Recent

def recent (state : EditorState D) : List D := state.document.toList ++ state.undo.reverse

theorem recent_head {state : EditorState D} (holds : state.Undoable) :
    state.recent.head? = state.document := by
  cases shown : state.document with
  | some document => simp [recent, shown]
  | none => simp [recent, shown, (holds.shown shown).1]

theorem update_recent {state : EditorState D} {document : D} (shown : state.document = some document)
    (change : D → D) :
    (state.update change).recent = change document :: state.recent.take 50 := by
  simp only [EditorState.update, recent, shown, Option.toList_some, List.singleton_append, lastFifty_reverse,
    List.reverse_append, List.reverse_singleton]

theorem undoChange_recent {state : EditorState D} (more : 1 < state.recent.length) (holds : state.Undoable) :
    state.undoChange.recent = state.recent.drop 1 := by
  have given : state.undo ≠ [] := by
    intro empty
    cases shown : state.document <;> simp [recent, empty, shown] at more
  obtain ⟨document, shown⟩ := holds.document_of_undo given
  have stack := List.dropLast_concat_getLast given
  have earlier : state.undo.reverse = state.undo.getLast given :: state.undo.dropLast.reverse := by
    rw [← List.reverse_concat', stack]
  rw [holds.undoChange_eq stack.symm shown]
  simp only [recent, shown, Option.toList_some, List.singleton_append, List.drop_succ_cons,
    List.drop_zero, earlier]

/-- `k` updates put `k` documents before the ones there were, and drop none of these but the oldest. -/
theorem updates_recent {state : EditorState D} {document : D} (shown : state.document = some document)
    (short : state.recent.length ≤ 51) {edits : List (StoreCall D)}
    (only : ∀ action ∈ edits, action.isUpdate ∨ action.isSelect) (few : edits.countP (·.isUpdate) ≤ 50) :
    ∃ made, made.length = edits.countP (·.isUpdate) ∧
      (state.after edits).recent = made ++ state.recent.take (51 - edits.countP (·.isUpdate)) := by
  induction edits generalizing state document with
  | nil =>
    refine ⟨[], rfl, ?_⟩
    simp only [List.countP_nil, Nat.sub_zero, List.nil_append, List.take_of_length_le short]
    rfl
  | cons action edits ih =>
    have later : ∀ action ∈ edits, action.isUpdate ∨ action.isSelect := fun action member =>
      only action (List.mem_cons_of_mem _ member)
    have here := only action List.mem_cons_self
    cases action with
    | update change =>
      rw [List.countP_cons_of_pos rfl] at few ⊢
      have added := update_recent shown change
      have shown' : (state.update change).document = some (change document) := by
        simp only [EditorState.update, shown]
      have short' : (state.update change).recent.length ≤ 51 := by
        rw [added, List.length_cons, List.length_take]
        omega
      obtain ⟨made, length, same⟩ := ih shown' short' later (by omega)
      refine ⟨made ++ [change document], by rw [List.length_append, List.length_singleton, length], ?_⟩
      have left : 51 - edits.countP (·.isUpdate) = 51 - (edits.countP (·.isUpdate) + 1) + 1 := by omega
      have kept : min (51 - (edits.countP (·.isUpdate) + 1)) 50 = 51 - (edits.countP (·.isUpdate) + 1) :=
        by omega
      rw [added, left, List.take_succ_cons, List.take_take, kept] at same
      rw [List.append_assoc, List.singleton_append]
      exact same
    | select selectedId =>
      rw [List.countP_cons_of_neg Bool.false_ne_true] at few ⊢
      exact @ih (state.select selectedId) document shown short later few
    | _ => simp [StoreCall.isUpdate, StoreCall.isSelect] at here

theorem undos_recent {state : EditorState D} (holds : state.Undoable) {back : List (StoreCall D)}
    (only : ∀ action ∈ back, action.isUndo ∨ action.isSelect)
    (enough : back.countP (·.isUndo) < state.recent.length) :
    (state.after back).recent = state.recent.drop (back.countP (·.isUndo)) := by
  induction back generalizing state with
  | nil => rfl
  | cons action back ih =>
    have later : ∀ action ∈ back, action.isUndo ∨ action.isSelect := fun action member =>
      only action (List.mem_cons_of_mem _ member)
    have here := only action List.mem_cons_self
    cases action with
    | undoChange =>
      rw [List.countP_cons_of_pos rfl] at enough ⊢
      have popped := undoChange_recent (by omega) holds
      have rest := ih holds.undoChange later (by rw [popped, List.length_drop]; omega)
      rw [popped, List.drop_drop, Nat.add_comm] at rest
      exact rest
    | select selectedId =>
      rw [List.countP_cons_of_neg Bool.false_ne_true] at enough ⊢
      exact @ih (state.select selectedId) ⟨holds.few, holds.shown⟩ later enough
    | _ => simp [StoreCall.isUndo, StoreCall.isSelect] at here

theorem after_empty {state : EditorState D} (holds : state.Undoable) (missing : state.document = none)
    {calls : List (StoreCall D)}
    (only : ∀ action ∈ calls, action.isUpdate ∨ action.isUndo ∨ action.isSelect) :
    (state.after calls).document = none := by
  induction calls generalizing state with
  | nil => exact missing
  | cons action calls ih =>
    have here := only action List.mem_cons_self
    have later : (state.call action).document = none := by
      cases action with
      | update change => simp only [call, EditorState.update, missing]
      | undoChange =>
          simp only [call, EditorState.undoChange, missing, (holds.shown missing).1, List.getLast?_nil]
      | select selectedId => exact missing
      | _ => simp [StoreCall.isUpdate, StoreCall.isUndo, StoreCall.isSelect] at here
    exact ih (holds.call action) later fun action member => only action (List.mem_cons_of_mem _ member)

theorem undos_restore {state : EditorState D} (holds : state.Undoable) {edits back : List (StoreCall D)}
    (edited : ∀ action ∈ edits, action.isUpdate ∨ action.isSelect)
    (undone : ∀ action ∈ back, action.isUndo ∨ action.isSelect)
    (same : back.countP (·.isUndo) = edits.countP (·.isUpdate)) (few : edits.countP (·.isUpdate) ≤ 50) :
    ((state.after edits).after back).document = state.document := by
  cases shown : state.document with
  | none =>
    rw [← after_append]
    apply after_empty holds shown
    intro action member
    rcases List.mem_append.mp member with member | member
    · exact (edited action member).imp id .inr
    · exact .inr (undone action member)
  | some document =>
    have short : state.recent.length ≤ 51 := by
      have few := holds.few
      simp only [recent, shown, Option.toList_some, List.length_append, List.length_singleton,
        List.length_reverse]
      omega
    obtain ⟨made, length, edits_recent⟩ := updates_recent shown short edited few
    have left : state.recent.take (51 - edits.countP (·.isUpdate)) ≠ [] := by
      have one : 51 - edits.countP (·.isUpdate) = 50 - edits.countP (·.isUpdate) + 1 := by omega
      rw [one, recent, shown]
      exact List.cons_ne_nil _ _
    have after_edits := after_undoable holds edits
    have enough : back.countP (·.isUndo) < (state.after edits).recent.length := by
      have positive := List.length_pos_iff.mpr left
      rw [edits_recent, List.length_append, same]
      omega
    have back_recent := undos_recent after_edits undone enough
    rw [edits_recent, same, ← length, List.drop_left] at back_recent
    have head := recent_head (after_undoable after_edits back)
    have one : 51 - made.length = 50 - made.length + 1 := by omega
    rw [← head, back_recent, one, recent, shown]
    rfl

end Recent

/-- In every state that calls of the store lead to, undo and redo are inverse, both stacks together hold at
    most 50 documents, and undos bring back the document from before as many updates. -/
theorem undo_redo_inverse (calls : List (StoreCall D)) :
    ((initial.after calls).undo ≠ [] →
      (initial.after calls).undoChange.redoChange.document = (initial.after calls).document ∧
      (initial.after calls).undoChange.redoChange.undo = (initial.after calls).undo ∧
      (initial.after calls).undoChange.redoChange.redo = (initial.after calls).redo) ∧
    ((initial.after calls).redo ≠ [] →
      (initial.after calls).redoChange.undoChange.document = (initial.after calls).document ∧
      (initial.after calls).redoChange.undoChange.undo = (initial.after calls).undo ∧
      (initial.after calls).redoChange.undoChange.redo = (initial.after calls).redo) ∧
    (initial.after calls).undo.length + (initial.after calls).redo.length ≤ 50 ∧
    (∀ document, (initial.after calls).document = some document →
      ((initial.after calls).undo ≠ [] → (initial.after calls).undoChange.redo =
        document :: (initial.after calls).redo) ∧
      ((initial.after calls).redo ≠ [] → (initial.after calls).redoChange.undo =
        (initial.after calls).undo ++ [document])) ∧
    ∀ edits back : List (StoreCall D), (∀ action ∈ edits, action.isUpdate ∨ action.isSelect) →
      (∀ action ∈ back, action.isUndo ∨ action.isSelect) → back.countP (·.isUndo) = edits.countP
    (·.isUpdate) →
      edits.countP (·.isUpdate) ≤ 50 →
      (((initial.after calls).after edits).after back).document = (initial.after calls).document := by
  have holds := after_undoable initial_undoable calls
  generalize initial.after calls = state at holds ⊢
  refine ⟨?_, ?_, holds.few, ?_, fun _ _ => undos_restore holds⟩
  · intro given
    obtain ⟨document, shown⟩ := holds.document_of_undo given
    have stack := (List.dropLast_concat_getLast given).symm
    have undone := holds.undoChange_eq stack shown
    have ahead : state.undoChange.redo = document :: state.redo := by rw [undone]
    have before : state.undoChange.document = some (state.undo.getLast given) := by rw [undone]
    rw [holds.undoChange.redoChange_eq ahead before, undone]
    exact ⟨shown.symm, stack.symm, rfl⟩
  · intro given
    obtain ⟨next, rest, stack⟩ := List.exists_cons_of_ne_nil given
    obtain ⟨document, shown⟩ := holds.document_of_redo given
    have redone := holds.redoChange_eq stack shown
    have behind : state.redoChange.undo = state.undo ++ [document] := by rw [redone]
    have now : state.redoChange.document = some next := by rw [redone]
    rw [holds.redoChange.undoChange_eq behind now, redone]
    exact ⟨shown.symm, rfl, stack.symm⟩
  · intro document shown
    constructor
    · intro given
      rw [holds.undoChange_eq (List.dropLast_concat_getLast given).symm shown]
    · intro given
      obtain ⟨next, rest, stack⟩ := List.exists_cons_of_ne_nil given
      rw [holds.redoChange_eq stack shown]

theorem undo_redo_inverse_edited :
    ((initial : EditorState Nat).after [.setDocument 0 none, .update (· + 1), .update (· + 1),
      .undoChange]).undoChange.redoChange.redo
        = [2] ∧
      ((initial : EditorState Nat).after [.setDocument 0 none, .update (· + 1), .update (· + 1),
        .undoChange]).redoChange.undoChange.undo
        = [0] ∧
      ((((initial : EditorState Nat).after [.setDocument 0 none, .update (· + 1), .update (· + 1),
        .undoChange]).after
        [.update (· + 5), .select none, .update (· * 2)]).after [.undoChange, .undoChange]).document =
    some 1 := by
  obtain ⟨undone, redone, _, _, restored⟩ :=
    undo_redo_inverse [.setDocument 0 none, .update (· + 1), .update (· + 1), .undoChange]
  exact ⟨(undone (by decide)).2.2, (redone (by decide)).2.1,
    restored _ _ (by decide) (by decide) rfl (by decide)⟩

end EditorState

end ManifestCV.Editor
