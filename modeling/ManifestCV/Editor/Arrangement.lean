import ManifestCV.Document.Plain
import ManifestCV.Editor.Layout
import ManifestCV.Foundation.Machine

namespace ManifestCV.Editor

open Foundation Document

/-- Every block has its own id, and the layout has each block once and nothing else. -/
structure Arranged (document : EditorDocument ℚ) : Prop where
  unique : document.blockIds.Nodup
  placed : document.references.Perm document.blockIds
  filled : document.blocks ≠ []

def Anchored (pages : List (EditorPage ℚ)) : Prop := ∃ column, columnAt pages (0, 0, 0) = some column

structure Sound (origin : List (EditorPage ℚ)) (document : EditorDocument ℚ) : Prop where
  arranged : Arranged document
  within : ∀ page ∈ document.pages, ∀ row ∈ page.rows, row.Within
  extended : List.Forall₂ EditorPage.Extends origin document.pages

theorem EditorPage.Extends.trans {first second third : EditorPage ℚ} (before : first.Extends second)
    (after : second.Extends third) :
    first.Extends third := by
  obtain ⟨added, shapes, single⟩ := before
  obtain ⟨more, shapes', single'⟩ := after
  refine ⟨added ++ more, by rw [shapes', shapes, List.append_assoc], ?_⟩
  intro shape member
  rcases List.mem_append.mp member with old | new
  · exact single shape old
  · exact single' shape new

theorem forall_extends_trans {first second third : List (EditorPage ℚ)}
    (before : List.Forall₂ EditorPage.Extends first second)
    (after : List.Forall₂ EditorPage.Extends second third) : List.Forall₂ EditorPage.Extends first third := by
  induction before generalizing third with
  | nil => exact after
  | cons head _ ih =>
    cases after with
    | cons next rest => exact .cons (head.trans next) (ih rest)

theorem Sound.steady {origin : List (EditorPage ℚ)} {document document' : EditorDocument ℚ}
    (sound : Sound origin document) (steady : Steady document.pages document'.pages)
    (arranged : Arranged document') : Sound origin document' :=
  ⟨arranged, steady.within sound.within, forall_extends_trans sound.extended steady.extended⟩

theorem Anchored.extended {origin pages : List (EditorPage ℚ)} (anchored : Anchored origin)
    (extended : List.Forall₂ EditorPage.Extends origin pages) : Anchored pages := by
  obtain ⟨column, found⟩ := anchored
  obtain ⟨page, hPage, found⟩ := Option.bind_eq_some_iff.mp found
  obtain ⟨row, hRow, hColumn⟩ := Option.bind_eq_some_iff.mp found
  cases extended with
  | nil => cases hPage
  | @cons _ page' _ _ head _ =>
    cases hPage
    obtain ⟨added, shapes, _⟩ := head
    cases hRows : page.rows with
    | nil =>
      rw [hRows] at hRow
      cases hRow
    | cons first rest =>
      rw [hRows] at hRow shapes
      cases hRow
      cases hRows' : page'.rows with
      | nil =>
        rw [hRows'] at shapes
        cases shapes
      | cons first' rest' =>
        rw [hRows'] at shapes
        have same : first'.columns.length = row.columns.length := congrArg (·.2.1) (List.cons.inj shapes).1
        have bound := (List.getElem?_eq_some_iff.mp hColumn).1
        have filled : 0 < first'.columns.length := by omega
        refine ⟨first'.columns[0], ?_⟩
        simp only [columnAt, List.getElem?_cons_zero, Option.bind_eq_bind, Option.bind_some, hRows']
        exact List.getElem?_eq_getElem filled

section Operations

variable {document document' : EditorDocument ℚ}

theorem arranged_of_count (unique : document.blockIds.Nodup)
    (count : ∀ x, document.references.count x = document.blockIds.count x) (filled : document.blocks ≠ []) :
    Arranged document :=
  ⟨unique, List.perm_iff_count.mpr count, filled⟩

theorem Arranged.moved (arranged : Arranged document) (ids : document'.blockIds = document.blockIds)
    (count : ∀ x, document'.references.count x = document.references.count x) : Arranged document' := by
  refine arranged_of_count (ids ▸ arranged.unique) ?_ ?_
  · intro x
    rw [count, ids, arranged.placed.count_eq]
  · intro empty
    have nothing : document.blockIds = [] := by rw [← ids, EditorDocument.blockIds, empty, List.map_nil]
    exact arranged.filled (List.map_eq_nil_iff.mp nothing)

theorem rows_count {pages pages' : List (EditorPage ℚ)}
    (each : List.Forall₂ (fun page page' => List.Forall₂ (fun row row' =>
      ∀ x, (row'.columns.flatMap (·.sectionIds)).count x = (row.columns.flatMap (·.sectionIds)).count x)
      page.rows page'.rows) pages pages') (x : Str) :
    ((columnsOf pages').flatMap (·.sectionIds)).count x = ((columnsOf pages).flatMap (·.sectionIds)).count
        x := by
  rw [references_pages, references_pages]
  refine count_forall ?_ each x
  intro page page' rows x
  exact count_forall (fun kept x => kept x) rows x

theorem move_sound {origin : List (EditorPage ℚ)} (sound : Sound origin document) (blockId : Str)
    (direction : Direction) :
    Sound origin (document.move blockId direction) := by
  rw [EditorDocument.move]
  split
  · rename_i pages done
    refine sound.steady (steady_of_rows
      (modifyFirstRow_rows RowSteady.refl (fun moved => (moveInRow_moved moved).steady) done)) ?_
    exact sound.arranged.moved rfl
      (rows_count (modifyFirstRow_rows (fun _ _ => rfl) (fun moved => (moveInRow_moved moved).count) done))
  · exact sound

theorem resizeColumn_sound {origin : List (EditorPage ℚ)} (sound : Sound origin document) (columnId : Str)
    (width : ℚ) :
    Sound origin (document.resizeColumn columnId width) := by
  rw [EditorDocument.resizeColumn]
  split
  · rename_i pages done
    refine sound.steady
      (steady_of_rows (modifyFirstRow_rows RowSteady.refl (fun resized =>
        (resizeInRow_resized resized).steady) done)) ?_
    exact sound.arranged.moved rfl
      (rows_count (modifyFirstRow_rows (fun _ _ => rfl) (fun resized => (resizeInRow_resized resized).count)
        done))
  · exact sound

theorem moveToColumn_sound {origin : List (EditorPage ℚ)} (sound : Sound origin document)
    (blockId columnId : Str) :
    Sound origin (document.moveToColumn blockId columnId) := by
  rw [EditorDocument.moveToColumn]
  split
  · rename_i source start target goal atSource atTarget
    split
    · exact sound
    rename_i apart
    have inSource := List.mem_filter.mp (List.mem_of_getLast? atSource)
    have isSource := mem_cells.mp inSource.1
    have isTarget := mem_cells.mp (List.mem_of_find?_eq_some atTarget)
    have still : columnAt (modifyColumn document.pages source (·.remove blockId)) target = some goal :=
      (columnAt_modifyColumn (Ne.symm apart) _).trans isTarget
    refine ⟨?_, ?_, ?_⟩
    · refine sound.arranged.moved rfl fun x => ?_
      have taken := count_modifyColumn isSource (·.remove blockId) x
      have given := count_modifyColumn still (·.push blockId) x
      have pushed : (goal.push blockId).sectionIds.count x = goal.sectionIds.count x + if blockId == x then
          1 else 0 := by
        simp only [EditorColumn.push, EditorColumn.setSectionIds, List.count_append, List.count_singleton]
      simp only [EditorDocument.references]
      by_cases same : blockId = x
      · subst same
        have gone : (start.remove blockId).sectionIds.count blockId = 0 := by
          rw [List.count_eq_zero]
          simp [EditorColumn.remove, EditorColumn.setSectionIds]
        have there : 1 ≤ start.sectionIds.count blockId :=
          List.one_le_count_iff.mpr (List.contains_iff_mem.mp inSource.2)
        have once : document.references.count blockId ≤ 1 := by
          rw [sound.arranged.placed.count_eq]
          exact List.nodup_iff_count_le_one.mp sound.arranged.unique blockId
        simp only [beq_self_eq_true, if_true] at pushed
        simp only [EditorDocument.references] at once
        omega
      · have kept : (start.remove blockId).sectionIds.count x = start.sectionIds.count x := by
          refine List.count_filter ?_
          exact decide_eq_true (Ne.symm same)
        simp only [beq_iff_eq, same, if_false] at pushed
        omega
    · refine (modifyColumn_steady (fun column => setSectionIds_widths column _) _ _).within ?_
      exact (modifyColumn_steady (fun column => setSectionIds_widths column _) _ _).within sound.within
    · refine forall_extends_trans ?_
        (modifyColumn_steady (fun column => setSectionIds_widths column _) _ _).extended
      exact forall_extends_trans sound.extended
        (modifyColumn_steady (fun column => setSectionIds_widths column _) _ _).extended
  · exact sound

theorem addBlock_sound {origin : List (EditorPage ℚ)} (sound : Sound origin document)
    (anchored : Anchored origin) (type : BlockType) {now : Nat}
    (fresh : EditorDocument.newBlockId now ∉ document.blockIds) :
    Sound origin (document.addBlock type now) := by
  refine sound.steady (modifyColumn_steady (fun column => setSectionIds_widths column _) _ _) ?_
  obtain ⟨column, found⟩ := anchored.extended sound.extended
  have ids : (document.addBlock type now).blockIds = document.blockIds ++ [EditorDocument.newBlockId now] :=
    List.map_append
  refine arranged_of_count ?_ ?_ (by simp [EditorDocument.addBlock])
  · rw [ids]
    exact List.Nodup.append sound.arranged.unique (List.nodup_singleton _) (List.disjoint_singleton.mpr fresh)
  · intro x
    have given := count_modifyColumn found (·.push (EditorDocument.newBlockId now)) x
    have before := sound.arranged.placed.count_eq x
    rw [ids, List.count_append]
    simp only [EditorColumn.push, EditorColumn.setSectionIds, List.count_append, EditorDocument.references,
      EditorDocument.addBlock] at given before ⊢
    omega

theorem addRow_sound {origin : List (EditorPage ℚ)} (sound : Sound origin document) (now later : Nat) :
    Sound origin (document.addRow now later) := by
  let grow (page : EditorPage ℚ) : EditorPage ℚ :=
    { page with rows := page.rows ++ [EditorDocument.newRow now later] }
  have grown : ∀ page : EditorPage ℚ, page.Extends (grow page) := by
    intro page
    refine ⟨[(EditorDocument.newRow now later : EditorRow ℚ).shape], List.map_append, ?_⟩
    intro shape single
    rw [List.mem_singleton.mp single]
    simp [EditorRow.shape, EditorDocument.newRow]
  have empty : ∀ (page : EditorPage ℚ) x, (pageReferences (grow page)).count x =
      (pageReferences page).count x := by
    intro page x
    rw [pageReferences, List.flatMap_append]
    simp [EditorDocument.newRow, pageReferences]
  refine sound.steady ⟨modify_forall EditorPage.Extends.refl grown document.pages 0, ?_⟩ ?_
  · intro within page' member row inside
    have each : List.Forall₂ (fun page page' => ∀ row ∈ page'.rows, row ∈ page.rows ∨
      row = EditorDocument.newRow now later)
        document.pages (document.pages.modify 0 grow) := by
      refine modify_forall (fun _ _ inside => .inl inside) ?_ document.pages 0
      intro page row inside
      exact (List.mem_append.mp inside).imp_right List.mem_singleton.mp
    obtain ⟨page, pageMember, rows⟩ := forall_mem_right each member
    rcases rows row inside with old | rfl
    · exact within page pageMember row old
    · intro column single
      rw [List.mem_singleton.mp single]
      exact ⟨le_rfl, le_rfl⟩
  · refine sound.arranged.moved rfl fun x => ?_
    have each : List.Forall₂ (fun page page' => ∀ x, (pageReferences page').count x =
      (pageReferences page).count x)
        document.pages (document.pages.modify 0 grow) := modify_forall (fun _ _ => rfl) empty document.pages 0
    simp only [EditorDocument.references, references_pages]
    exact count_forall (fun kept x => kept x) each x

theorem columnsOf_mapColumns (f : EditorColumn ℚ → EditorColumn ℚ) (pages : List (EditorPage ℚ)) :
    columnsOf (mapColumns f pages) = (columnsOf pages).map f := by
  simp only [columnsOf, mapColumns, List.flatMap_map, List.map_flatMap]

theorem remove_sound {origin : List (EditorPage ℚ)} (sound : Sound origin document) (blockId : Str)
    (several : 1 < document.blocks.length) : Sound origin (document.remove blockId) := by
  refine sound.steady (mapColumns_steady (fun column => setSectionIds_widths column _) _) ?_
  have ids : (document.remove blockId).blockIds = document.blockIds.filter (· ≠ blockId) := by
    simp only [EditorDocument.blockIds, EditorDocument.remove, List.filter_map]
    rfl
  have references : (document.remove blockId).references = document.references.filter (· ≠ blockId) := by
    simp only [EditorDocument.references, EditorDocument.remove, columnsOf_mapColumns, List.flatMap_map,
      List.filter_flatMap]
    rfl
  refine ⟨?_, ?_, ?_⟩
  · rw [ids]
    exact sound.arranged.unique.filter _
  · rw [ids, references]
    exact sound.arranged.placed.filter _
  · intro empty
    have nothing : document.blockIds.filter (· ≠ blockId) = [] :=
      by rw [← ids, EditorDocument.blockIds, empty, List.map_nil]
    have all : ∀ id ∈ document.blockIds, id = blockId := by simpa using List.filter_eq_nil_iff.mp nothing
    have few := List.nodup_iff_count_le_one.mp sound.arranged.unique blockId
    rw [List.count_eq_length.mpr fun id member => (all id member).symm, EditorDocument.blockIds,
      List.length_map] at few
    omega

theorem insertAfter_count {blockId new : Str} {column : EditorColumn ℚ} (distinct : column.sectionIds.Nodup)
    (x : Str) :
    (EditorDocument.insertAfter blockId new column).sectionIds.count x =
      column.sectionIds.count x + if new = x then column.sectionIds.count blockId else 0 := by
  rw [EditorDocument.insertAfter]
  split
  · rename_i index here
    obtain ⟨bound, same, _⟩ := List.idxOf?_eq_some_iff.mp here
    have inside : blockId ∈ column.sectionIds := same ▸ List.getElem_mem bound
    have inserted : (column.sectionIds.insertIdx (index + 1) new).Perm (new :: column.sectionIds) :=
      List.perm_insertIdx _ _ (by omega)
    rw [EditorColumn.setSectionIds, inserted.count_eq, List.count_cons,
      List.count_eq_one_of_mem distinct inside]
    simp only [beq_iff_eq]
  · rename_i absent
    rw [List.count_eq_zero.mpr (List.idxOf?_eq_none_iff.mp absent)]
    simp

theorem duplicate_sound {origin : List (EditorPage ℚ)} (sound : Sound origin document)
    {selected : ResumeBlock} (member : selected ∈ document.blocks) {now : Nat}
    (fresh : EditorDocument.copyId now ∉ document.blockIds) :
    Sound origin (document.duplicate selected now) := by
  refine sound.steady (mapColumns_steady (insertAfter_widths _ _) _) ?_
  have ids : (document.duplicate selected now).blockIds = document.blockIds ++ [EditorDocument.copyId now] :=
    List.map_append
  have distinct : ∀ column ∈ columnsOf document.pages, column.sectionIds.Nodup :=
    (List.nodup_flatMap.mp (sound.arranged.placed.nodup_iff.mpr sound.arranged.unique)).1
  have once : document.references.count selected.id = 1 := by
    rw [sound.arranged.placed.count_eq]
    exact List.count_eq_one_of_mem sound.arranged.unique (List.mem_map_of_mem member)
  refine arranged_of_count ?_ ?_ (by simp [EditorDocument.duplicate])
  · rw [ids]
    exact List.Nodup.append sound.arranged.unique (List.nodup_singleton _) (List.disjoint_singleton.mpr fresh)
  · intro x
    have before := sound.arranged.placed.count_eq x
    rw [ids, List.count_append, ← before]
    simp only [EditorDocument.references, EditorDocument.duplicate, columnsOf_mapColumns,
      List.flatMap_map] at once ⊢
    by_cases same : EditorDocument.copyId now = x
    · subst same
      have each : ∀ column ∈ columnsOf document.pages,
          (EditorDocument.insertAfter selected.id (EditorDocument.copyId now) column).sectionIds.count
            (EditorDocument.copyId now) =
            column.sectionIds.count (EditorDocument.copyId now) + column.sectionIds.count selected.id := by
        intro column inside
        rw [insertAfter_count (distinct column inside), if_pos rfl]
      rw [count_flatMap_add each, once, List.count_singleton_self]
    · have each : ∀ column ∈ columnsOf document.pages,
          (List.count x ∘ fun column =>
            (EditorDocument.insertAfter selected.id (EditorDocument.copyId now) column).sectionIds) column =
            (List.count x ∘ fun column => column.sectionIds) column := by
        intro column inside
        rw [Function.comp_apply, insertAfter_count (distinct column inside), if_neg same, Nat.add_zero,
          Function.comp_apply]
      rw [List.count_flatMap, List.count_flatMap, List.map_congr_left each, List.count_singleton]
      simp [same]

theorem editBlock_sound {origin : List (EditorPage ℚ)} (sound : Sound origin document)
    (selectedId : Option Str) (patch : Patch) :
    Sound origin (document.editBlock selectedId patch) := by
  refine sound.steady (Steady.refl _) (sound.arranged.moved ?_ fun _ => rfl)
  simp only [EditorDocument.blockIds, EditorDocument.editBlock, List.map_map]
  apply List.map_congr_left
  intro block _
  simp only [Function.comp_apply]
  split <;> rfl

theorem applyStyle_sound {origin : List (EditorPage ℚ)} (sound : Sound origin document) (input : StyleInput) :
    Sound origin (document.applyStyle input) := by
  cases input <;> exact ⟨⟨sound.arranged.unique, sound.arranged.placed, sound.arranged.filled⟩, sound.within,
    sound.extended⟩

end Operations

section Runs

variable {origin : List (EditorPage ℚ)} {draft : Draft ℚ}

structure Held (origin : List (EditorPage ℚ)) (draft : Draft ℚ) : Prop where
  shown : draft.document ≠ none
  sound : ∀ document ∈ draft.timeline, Sound origin document

def unusedId (draft : Draft ℚ) : Operation ℚ → Bool
  | .addBlock _ now => draft.document.all fun document =>
      !document.blockIds.contains (EditorDocument.newBlockId now)
  | .duplicateSelected now => draft.document.all fun document =>
      !document.blockIds.contains (EditorDocument.copyId now)
  | _ => true

theorem Held.current (held : Held origin draft) {document : EditorDocument ℚ}
    (shown : draft.document = some document) :
    Sound origin document := by
  refine held.sound document ?_
  rw [EditorState.timeline, shown]
  exact List.mem_append_right _ List.mem_cons_self

theorem updateDocument_held (held : Held origin draft) (approved : Bool)
    {change : EditorDocument ℚ → EditorDocument ℚ}
    (kept : ∀ document, draft.document = some document → Sound origin document →
      Sound origin (change document)) :
    Held origin (updateDocument approved draft change) := by
  rw [updateDocument]
  split
  · exact held
  · obtain ⟨document, shown⟩ := Option.ne_none_iff_exists'.mp held.shown
    refine ⟨?_, ?_⟩
    · rw [EditorState.update, shown]
      exact Option.some_ne_none _
    intro other member
    have inside := (EditorState.update_timeline shown change).subset member
    rcases List.mem_append.mp inside with old | new
    · refine held.sound other ?_
      rw [EditorState.timeline, shown]
      rcases List.mem_append.mp old with earlier | current
      · exact List.mem_append_left _ earlier
      · exact List.mem_append_right _ (List.mem_append_left _ current)
    · rw [List.mem_singleton.mp new]
      exact kept document shown (held.current shown)

theorem undoChange_held (held : Held origin draft) : Held origin draft.undoChange := by
  obtain ⟨document, shown⟩ := Option.ne_none_iff_exists'.mp held.shown
  by_cases nothing : draft.undo = []
  · have same : draft.undoChange = draft := by
      rw [EditorState.undoChange, nothing]
      rfl
    rw [same]
    exact held
  · obtain ⟨previous, now, _, _, timeline⟩ := EditorState.undoChange_spec shown nothing
    exact ⟨now ▸ Option.some_ne_none _, fun other member => held.sound other (timeline.subset member)⟩

theorem redoChange_held (held : Held origin draft) : Held origin draft.redoChange := by
  obtain ⟨document, shown⟩ := Option.ne_none_iff_exists'.mp held.shown
  by_cases nothing : draft.redo = []
  · have same : draft.redoChange = draft := by
      rw [EditorState.redoChange, nothing]
    rw [same]
    exact held
  · obtain ⟨next, rest, _, now, _, _, timeline⟩ := EditorState.redoChange_spec shown nothing
    exact ⟨now ▸ Option.some_ne_none _, fun other member => held.sound other (timeline.subset member)⟩

theorem select_held (held : Held origin draft) (id : Option Str) : Held origin (draft.select id) :=
  ⟨held.shown, held.sound⟩

theorem selectedBlock_mem {document : EditorDocument ℚ} {selected : ResumeBlock}
    (shown : draft.document = some document) (found : selectedBlock draft = some selected) :
    selected ∈ document.blocks := by
  rw [selectedBlock, shown] at found
  exact List.mem_of_find?_eq_some found

theorem operate_held (anchored : Anchored origin) (held : Held origin draft) (approved : Bool)
    {operation : Operation ℚ} (unused : unusedId draft operation = true) :
    Held origin (operate approved draft operation) := by
  have fresh : ∀ {document id}, draft.document = some document →
      (draft.document.all fun document => !document.blockIds.contains id) = true →
          id ∉ document.blockIds := by
    intro document id shown unused
    rw [shown, Option.all_some, Bool.not_eq_true', ← Bool.not_eq_true, List.contains_iff_mem] at unused
    exact unused
  cases operation with
  | move blockId direction =>
      exact updateDocument_held held approved fun _ _ sound => move_sound sound blockId direction
  | moveToColumn blockId columnId =>
    exact updateDocument_held held approved fun _ _ sound => moveToColumn_sound sound blockId columnId
  | resizeColumn columnId width =>
    exact updateDocument_held held approved fun _ _ sound => resizeColumn_sound sound columnId width
  | addBlock type now =>
    exact updateDocument_held held approved fun _ shown sound =>
      addBlock_sound sound anchored type (fresh shown unused)
  | addRow now later => exact updateDocument_held held approved fun _ _ sound => addRow_sound sound now later
  | duplicateSelected now =>
    simp only [operate, duplicateSelected]
    split
    · rename_i selected found
      exact updateDocument_held held approved fun _ shown sound =>
        duplicate_sound sound (selectedBlock_mem shown found) (fresh shown unused)
    · exact held
  | removeSelected =>
    simp only [operate, removeSelected]
    split
    · rename_i document selectedId shown _
      split
      · exact held
      · rename_i possible
        refine select_held (updateDocument_held held approved fun other same sound => ?_) none
        cases shown.symm.trans same
        exact remove_sound sound selectedId (by omega)
    · exact held
  | editBlock patch => exact updateDocument_held held approved fun _ _ sound => editBlock_sound sound _ patch
  | editContent key value =>
      exact updateDocument_held held approved fun _ _ sound => editBlock_sound sound _ _
  | style input => exact updateDocument_held held approved fun _ _ sound => applyStyle_sound sound input
  | undo =>
    simp only [operate]
    split
    · exact held
    · exact undoChange_held held
  | redo =>
    simp only [operate]
    split
    · exact held
    · exact redoChange_held held
  | select id => exact select_held held id

end Runs

theorem exact_references (document : ResumeDocument) : (exact document).references = document.references := by
  simp only [EditorDocument.references, columnsOf, exact, exactPage, exactRow, exactColumn,
    ResumeDocument.references, ResumePage.columns, List.flatMap_map, List.flatMap_assoc]

theorem exact_sound {rt : Runtime} {document : ResumeDocument} (valid : document.Valid rt) :
    Sound (exact document).pages (exact document) := by
  have passes := valid.checks
  simp only [Passes, ResumeDocument.checks, counted, List.forall_mem_cons, decide_eq_true_eq,
    Bool.and_eq_true, List.all_eq_true, List.contains_iff_mem] at passes
  obtain ⟨_, blocks, ids, references, ⟨known, used⟩, _⟩ := passes
  refine ⟨⟨ids, ?_, ?_⟩, ?_, List.forall₂_same.mpr fun page _ => .refl page⟩
  · rw [exact_references]
    exact (List.perm_ext_iff_of_nodup references ids).mpr fun id => ⟨known id, used id⟩
  · intro empty
    have nothing : document.blocks = [] := empty
    rw [nothing] at blocks
    exact absurd blocks.1 (by decide)
  · intro page member row inside column inner
    obtain ⟨page, pageMember, rfl⟩ := List.mem_map.mp member
    obtain ⟨row, rowMember, rfl⟩ := List.mem_map.mp inside
    obtain ⟨column, columnMember, rfl⟩ := List.mem_map.mp inner
    have checks := ((valid.pages page pageMember).rows row rowMember).columns column columnMember
    simp only [Passes, ResumeColumn.checks, List.forall_mem_cons, decide_eq_true_eq] at checks
    exact checks.2.2.2.2.2.1

theorem filled_of_counted {α : Type} {low high : Nat} {items : List α} {name : Str}
    (counts : (counted low high items name).1 = true) (given : 0 < low) :
    ∃ first, items[0]? = some first := by
  have bounds : low ≤ items.length ∧ items.length ≤ high := of_decide_eq_true counts
  have filled : 0 < items.length := by omega
  exact ⟨items[0], List.getElem?_eq_getElem filled⟩

theorem exact_anchored {rt : Runtime} {document : ResumeDocument} (valid : document.Valid rt) :
    Anchored (exact document).pages := by
  obtain ⟨page, atPage⟩ := filled_of_counted (valid.checks _ List.mem_cons_self) Nat.one_pos
  have pageValid := valid.pages page (List.mem_of_getElem? atPage)
  obtain ⟨row, atRow⟩ :=
    filled_of_counted (pageValid.checks _ (List.mem_cons_of_mem _ List.mem_cons_self)) Nat.one_pos
  have rowValid := pageValid.rows row (List.mem_of_getElem? atRow)
  obtain ⟨column, atColumn⟩ :=
    filled_of_counted (rowValid.checks _ (List.mem_cons_of_mem _ List.mem_cons_self)) Nat.one_pos
  refine ⟨exactColumn column, ?_⟩
  simp only [columnAt, exact, exactPage, exactRow, List.getElem?_map, atPage, atRow, atColumn,
    Option.map_some, Option.bind_eq_bind, Option.bind_some]

/-- Whatever is edited, undone and redone in an accepted document, the layout has every block once and the
    widths stay. -/
theorem editing_keeps_layout {rt : Runtime} {document : ResumeDocument} (accepted : Accepted rt document)
    (approved : Bool) (before : Draft ℚ) (revisionId : Option Nat) {draft : Draft ℚ}
    (run : Machine.Reaches (fun draft operation => some (operate approved draft operation)) unusedId
      (before.setDocument (exact document) revisionId) draft) :
    ∃ edited, draft.document = some edited ∧ Sound (exact document).pages edited := by
  obtain ⟨payload, keyed, parsed⟩ := accepted
  have valid := (validateDocument_sound keyed parsed).1
  have start : Held (exact document).pages (before.setDocument (exact document) revisionId) := by
    refine ⟨Option.some_ne_none _, ?_⟩
    intro other member
    cases List.mem_singleton.mp member
    exact exact_sound valid
  have kept : ∀ {draft operation draft'}, Held (exact document).pages draft →
    unusedId draft operation = true →
      some (operate approved draft operation) = some draft' → Held (exact document).pages draft' := by
    intro draft operation draft' held unused step
    cases step
    exact operate_held (exact_anchored valid) held approved unused
  have held := run.invariant kept start
  obtain ⟨edited, shown⟩ := Option.ne_none_iff_exists'.mp held.shown
  exact ⟨edited, shown, held.current shown⟩

theorem editing_keeps_layout_onePager :
    ∃ draft : Draft ℚ, draft.undo.length = 3 ∧
      ∃ edited, draft.document = some edited ∧ Sound (exact (onePager "Engineer".toList)).pages edited := by
  let opened : Draft ℚ := EditorState.initial.setDocument (exact (onePager "Engineer".toList)) (some 1)
  let edits : List (Operation ℚ) :=
    [.addBlock .customText 1, .select (some "custom-1".toList), .move "custom-1".toList .up,
    .duplicateSelected 2, .undo, .redo]
  have performed : (Machine.perform (fun draft operation => some (operate false draft operation)) unusedId
    opened edits).any
      (fun draft => draft.undo.length == 3) = true := by decide
  obtain ⟨draft, run, edited⟩ := Machine.reaches_of_performed performed
  exact ⟨draft, beq_iff_eq.mp edited, editing_keeps_layout onePager_accepted false EditorState.initial
    (some 1) run⟩

end ManifestCV.Editor
