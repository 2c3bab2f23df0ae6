import ManifestCV.Foundation.Sizes

namespace ManifestCV.Foundation.Pdf

/-- The byte tables of a file that holds these objects under the numbers 1, 2, …: where the cross-reference
    table starts, what its header and the trailer announce, and what its entries and the lengths of the
    streams say. -/
structure ExactTables (file : Bytes) (objects : List Indirect) (start root : Nat) (entries : List Bytes) :
    Prop where
  written : file = file.take start ++ ascii "xref\n0 " ++ line (decimal entries.length) ++ entries.flatten ++
    ascii "trailer\n" ++
    line (Object.dict (trailerDict entries.length root)).print ++ ascii "startxref\n" ++ encode
      (decimal start) ++ ascii "\n%%EOF\n"
  counted : entries.length = objects.length + 1
  width : ∀ entry ∈ entries, entry.length = 20
  placed : ∀ k object, objects[k]? = some object → ∃ offset rest,
    entries[k + 1]? = some (line (entryLine offset)) ∧ file.drop offset = block (k + 1) object.body ++ rest
  streams : ∀ dict data, .stream dict data ∈ objects → dict.lookup "Length".toList = some (.int data.length)

theorem entry_length {offset : Nat} (small : offset < 10 ^ 10) : (line (entryLine offset)).length = 20 := by
  rw [line_length (entryLine_plain offset), entryLine, List.length_append, pad10_length small]
  rfl

theorem writeFile_tables {objects : List Indirect} {root : Nat} (sound : ∀ object ∈ objects, object.Sound)
    (small : (writeFile (objects.map Indirect.body) root).length < 10 ^ 10) :
    ∃ start entries, ExactTables (writeFile (objects.map Indirect.body) root) objects start root entries := by
  have lengths := layout_length 1 (ascii "%PDF-1.4\n") (objects.map Indirect.body)
  have offsets := @layout_offsets_le (objects.map Indirect.body) 1 (ascii "%PDF-1.4\n")
  have blocks := fun k object member => layout_block 1 (ascii "%PDF-1.4\n") (objects.map Indirect.body) k
    (Indirect.body object) member
  unfold writeFile at small ⊢
  generalize layout 1 (ascii "%PDF-1.4\n") (objects.map Indirect.body) =
    laid at lengths offsets blocks small ⊢
  have counted : (laid.2.map fun offset => line (entryLine offset)).length = objects.length := by
    rw [List.length_map, lengths, List.length_map]
  refine ⟨laid.1.length, line freeLine :: laid.2.map fun offset => line (entryLine offset),
    ?_, ?_, ?_, ?_, ?_⟩
  · simp only [List.append_assoc, List.take_left, List.length_cons, counted, List.length_map,
      List.flatten_cons, List.flatMap_def]
  · rw [List.length_cons, counted]
  · refine List.forall_mem_cons.mpr ⟨rfl, fun entry member => ?_⟩
    obtain ⟨offset, inside, rfl⟩ := List.mem_map.mp member
    have before := offsets offset inside
    simp only [List.length_append] at small
    exact entry_length (by omega)
  · intro k object member
    obtain ⟨before, after, same, offset⟩ :=
      blocks k object (by rw [List.getElem?_map, member, Option.map_some])
    refine ⟨before.length, ?_⟩
    simp only [List.getElem?_cons_succ, List.getElem?_map, offset, Option.map_some, same, List.append_assoc,
      List.drop_left, Nat.add_comm 1 k]
    exact ⟨_, trivial, rfl⟩
  · intro dict data member
    obtain ⟨_, length, found, rfl⟩ := sound _ member
    exact found

end ManifestCV.Foundation.Pdf
