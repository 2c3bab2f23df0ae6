import ManifestCV.Render.Placement
import ManifestCV.Render.Preview
import ManifestCV.Render.StreamSize

namespace ManifestCV.Render

open Foundation Document Pdf

section Bodies

variable (document : ResumeDocument)

theorem reference_length {number : Nat} (small : number < 10 ^ 5) : (reference number).length ≤ 9 := by
  have digits := @decimal_length_le _ 5 (by decide) small
  have ending : " 0 R".toList.length = 4 := rfl
  rw [reference, List.length_append, ending]
  omega

theorem fontName_length : (fontName document).length ≤ 11 ∧ (fontResource document).length ≤ 10 := by
  unfold fontResource fontName
  cases document.style.fontFamily <;> decide

theorem streamBody_length {stream : Bytes} (small : stream.length < 10 ^ 8) :
    (Indirect.stream (streamEntries stream) stream).body.length ≤ stream.length + 40 := by
  have digits := @decimal_length_le _ 8 (by decide) small
  have texts : (encode "<< /Length ".toList).length = 11 ∧ (encode " >>\nstream\n".toList).length = 11 ∧
      (ascii "\nendstream").length = 10 := by decide
  rw [← streamObject_body, streamObject]
  simp only [encode_append, List.length_append, encode_length_plain (decimal_plain _)]
  omega

theorem pageBody_length {pagesId fontId contentId : Nat} (pages : pagesId < 10 ^ 5) (font : fontId < 10 ^ 5)
    (content : contentId < 10 ^ 5) :
    (Indirect.value (.dict (pageEntries document pagesId fontId contentId))).body.length ≤ 130 := by
  have sound : (Indirect.value (.dict (pageEntries document pagesId fontId contentId))).Sound :=
    pageObjects_sound document pagesId fontId contentId [[]] _ (by simp [pageObjects])
  have toPages := reference_length pages
  have toFont := reference_length font
  have toContent := reference_length content
  have name := (fontName_length document).2
  have box : (decimalInt (pageSize document).1).length = 3 ∧ (decimalInt (pageSize document).2).length =
      3 := by
    unfold pageSize
    split <;> decide
  obtain ⟨opening, boxed, fonts, contents, closing⟩ : "<< /Type /Page /Parent ".toList.length = 23 ∧
    " /MediaBox [0 0 ".toList.length = 16 ∧
      "] /Resources << /Font << /".toList.length = 26 ∧ " >> >> /Contents ".toList.length = 17 ∧
      " >>".toList.length = 3 := by decide
  rw [Indirect.body, encode_length_plain (print_plain _ sound), pageEntries_print]
  unfold pageText
  simp only [List.length_append, List.length_cons, opening, boxed, fonts, contents, closing]
  omega

theorem fontBody_length : (Indirect.value (.dict (fontEntries document))).body.length ≤ 56 := by
  have sound : (Indirect.value (.dict (fontEntries document))).Sound :=
    pdfObjects_sound 0 document [] _ (by simp [pdfObjects, pageObjects])
  have name := (fontName_length document).1
  obtain ⟨opening, closing⟩ : "<< /Type /Font /Subtype /Type1 /BaseFont /".toList.length = 42 ∧
      " >>".toList.length = 3 := by
    decide
  rw [Indirect.body, encode_length_plain (print_plain _ sound), fontEntries_print]
  unfold fontText
  simp only [List.length_append, opening, closing]
  omega

theorem pagesBody_length {kids : List Nat} (small : ∀ kid ∈ kids, kid < 10 ^ 5) (few : kids.length < 10 ^ 5) :
    (Indirect.value (.dict (pagesEntries kids))).body.length ≤ 40 + 10 * kids.length := by
  have regular : (Object.dict (pagesEntries kids)).Regular :=
    ⟨key_regular "Type" (by decide), key_regular "Pages" (by decide), key_regular "Kids" (by decide),
      regularItems_refs _, key_regular "Count" (by decide), trivial, trivial⟩
  have digits := @decimal_length_le _ 5 (by decide) few
  have listed : (joinWith [' '] (kids.map reference)).length ≤ 10 * kids.length := by
    refine le_trans (joinWith_length_le _ _) ?_
    rw [List.map_map]
    refine le_trans (List.sum_le_card_nsmul _ 10 ?_) (by simp [Nat.mul_comm])
    intro size member
    obtain ⟨kid, inside, rfl⟩ := List.mem_map.mp member
    have one := reference_length (small kid inside)
    exact show (reference kid).length + 1 ≤ 10 by omega
  obtain ⟨opening, counted, closing⟩ : "<< /Type /Pages /Kids [".toList.length = 23 ∧
      "] /Count ".toList.length = 9 ∧ " >>".toList.length = 3 := by
    decide
  rw [Indirect.body, encode_length_plain (print_plain _ regular), pagesEntries_print]
  unfold pagesText
  simp only [List.length_append, opening, counted, closing]
  omega

theorem catalogBody_length {pagesId : Nat} (small : pagesId < 10 ^ 5) :
    (Indirect.value (.dict (catalogEntries pagesId))).body.length ≤ 37 := by
  have regular : (Object.dict (catalogEntries pagesId)).Regular :=
    ⟨key_regular "Type" (by decide), key_regular "Catalog" (by decide), key_regular "Pages" (by decide),
      trivial, trivial⟩
  have toPages := reference_length small
  obtain ⟨opening, closing⟩ : "<< /Type /Catalog /Pages ".toList.length = 25 ∧ " >>".toList.length = 3 := by
    decide
  rw [Indirect.body, encode_length_plain (print_plain _ regular), catalogEntries_print]
  unfold catalogText
  simp only [List.length_append, opening, closing]
  omega

theorem pageObjects_sum {pagesId fontId : Nat} (pages : pagesId < 10 ^ 5) (font : fontId < 10 ^ 5)
    (contentId : Nat) (streams : List Bytes) (contents : contentId + 2 * streams.length ≤ 10 ^ 5)
    (small : ∀ stream ∈ streams, stream.length < 10 ^ 8) :
    ((pageObjects document pagesId fontId contentId streams).map fun object => object.body.length + 40).sum ≤
      (streams.map fun stream => stream.length + 250).sum := by
  induction streams generalizing contentId with
  | nil => exact Nat.le_refl _
  | cons stream streams ih =>
    rw [List.length_cons] at contents
    have content := streamBody_length (small stream List.mem_cons_self)
    have page := @pageBody_length document _ _ contentId pages font (by omega)
    have rest := ih (contentId + 2) (by omega) fun other inside => small other (List.mem_cons_of_mem _ inside)
    rw [pageObjects, List.map_cons, List.map_cons, List.sum_cons, List.sum_cons, List.map_cons, List.sum_cons]
    omega

theorem file_length_le {streams : List Bytes} (few : streams.length < 10 ^ 4)
    (small : ∀ stream ∈ streams, stream.length < 10 ^ 8)
    (short : (streams.map fun stream => stream.length + 260).sum < 10 ^ 8) :
    (writeFile ((pdfObjects 1 document streams).map Indirect.body) (catalogNumber 1 streams)).length ≤
      400 + (streams.map fun stream => stream.length + 260).sum := by
  have objects := pdfObjects_length 1 document streams
  have kids : ((List.range streams.length).map fun i => 2 * i + 2 + 1).length = streams.length := by simp
  have onPages := @pageObjects_sum document (2 * streams.length + 2 + 1) (2 * streams.length + 1 + 1)
    (by omega) (by omega) (1 + 1) streams (by omega) small
  have font := fontBody_length document
  have pages := @pagesBody_length ((List.range streams.length).map fun i => 2 * i + 2 + 1) (by
    intro kid member
    obtain ⟨i, inside, rfl⟩ := List.mem_map.mp member
    have bound := List.mem_range.mp inside
    omega) (by omega)
  have catalog := @catalogBody_length (2 * streams.length + 2 + 1) (by omega)
  have grown := sum_map_const_add (fun stream : Bytes => stream.length + 250) 10 streams
  have sizes : ((pdfObjects 1 document streams).map fun object => object.body.length + 40).sum ≤
      280 + (streams.map fun stream => stream.length + 260).sum := by
    rw [pdfObjects, List.map_append, List.sum_append]
    simp only [List.map_cons, List.map_nil, List.sum_cons, List.sum_nil]
    rw [kids] at pages
    simp only [Nat.add_assoc, Nat.reduceAdd] at grown
    omega
  have lighter : ((pdfObjects 1 document streams).map fun object => object.body.length + 20).sum ≤
      ((pdfObjects 1 document streams).map fun object => object.body.length + 40).sum :=
    List.sum_le_sum fun _ _ => by omega
  have written := @writeFile_length_le ((pdfObjects 1 document streams).map Indirect.body)
    (catalogNumber 1 streams)
    (by rw [List.length_map]; omega) (by unfold catalogNumber; omega)
      (by rw [List.map_map]; exact lt_of_le_of_lt lighter (by omega))
  rw [List.map_map] at written
  exact le_trans written (by
    change 120 + ((pdfObjects 1 document streams).map fun object => object.body.length + 40).sum ≤ _
    omega)

theorem file_length_ge (streams : List Bytes) :
    (streams.map List.length).sum ≤
    (writeFile ((pdfObjects 1 document streams).map Indirect.body) (catalogNumber 1 streams)).length := by
  have onPages : ∀ (pagesId fontId contentId : Nat), (streams.map List.length).sum ≤
      ((pageObjects document pagesId fontId contentId streams).map fun object => object.body.length).sum := by
    intro pagesId fontId contentId
    induction streams generalizing contentId with
    | nil => exact Nat.le_refl _
    | cons stream streams ih =>
      have rest := ih (contentId + 2)
      have body : stream.length ≤ (Indirect.stream (streamEntries stream) stream).body.length := by
        rw [Indirect.body, List.length_append, List.length_append]
        omega
      rw [pageObjects, List.map_cons, List.map_cons, List.sum_cons, List.sum_cons, List.map_cons,
        List.sum_cons]
      omega
  refine le_trans ?_ (writeFile_length_ge _)
  rw [List.map_map, pdfObjects, List.map_append, List.sum_append]
  exact le_trans (onPages _ _ _) (Nat.le_add_right _ _)

end Bodies

end ManifestCV.Render
