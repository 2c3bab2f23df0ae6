import ManifestCV.Foundation.PdfFile
import ManifestCV.Render.Provenance

namespace ManifestCV.Render

open Foundation Document Pdf

structure Assembly where
  objects : List Bytes
  pageIds : List Nat
  contentIds : List Nat

def streamObject (stream : Bytes) : Bytes :=
  encode ("<< /Length ".toList ++ decimal stream.length ++ " >>\nstream\n".toList) ++ stream ++
    ascii "\nendstream"

def Assembly.addStream (a : Assembly) (stream : Bytes) : Assembly :=
  let contentIds := a.contentIds ++ [a.objects.length + 1]
  let objects := a.objects ++ [streamObject stream]
  let pageIds := a.pageIds ++ [objects.length + 1]
  { objects := objects ++ [[]], pageIds, contentIds }

def reference (number : Nat) : Str := decimal number ++ " 0 R".toList

def fontText (document : ResumeDocument) : Str :=
  "<< /Type /Font /Subtype /Type1 /BaseFont /".toList ++ fontName document ++ " >>".toList

def pageText (document : ResumeDocument) (pagesId fontId contentId : Nat) : Str :=
  "<< /Type /Page /Parent ".toList ++ reference pagesId ++ " /MediaBox [0 0 ".toList ++
    decimalInt (pageSize document).1 ++ ' ' :: decimalInt (pageSize document).2 ++
      "] /Resources << /Font << /".toList ++
    fontResource document ++ ' ' :: reference fontId ++ " >> >> /Contents ".toList ++ reference contentId ++
      " >>".toList

def pagesText (pageIds : List Nat) : Str :=
  "<< /Type /Pages /Kids [".toList ++ joinWith [' '] (pageIds.map reference) ++ "] /Count ".toList ++
    decimal pageIds.length ++ " >>".toList

def catalogText (pagesId : Nat) : Str :=
  "<< /Type /Catalog /Pages ".toList ++ reference pagesId ++ " >>".toList

/-- The finished `objects`, whose entry 0 stands for the free object, and `catalog_id`. -/
def renderObjects (document : ResumeDocument) (streams : List Bytes) : List Bytes × Nat :=
  let a := streams.foldl Assembly.addStream ⟨[[]], [], []⟩
  let fontId := a.objects.length + 1
  let objects := a.objects ++ [encode (fontText document)]
  let pagesId := objects.length + 1
  let catalogId := objects.length + 2
  let objects := objects ++ [[], []]
  let objects := (a.pageIds.zip a.contentIds).foldl (fun objects ids =>
    objects.set (ids.1 - 1) (encode (pageText document pagesId fontId ids.2))) objects
  let objects := objects.set (pagesId - 1) (encode (pagesText a.pageIds))
  (objects.set (catalogId - 1) (encode (catalogText pagesId)), catalogId)

def emitObject (state : Bytes × List Nat) (item : Bytes × Nat) : Bytes × List Nat :=
  (state.1 ++ (encode (decimal item.2 ++ " 0 obj\n".toList) ++ item.1 ++ ascii "\nendobj\n"),
    state.2 ++ [state.1.length])

def serialize (objects : List Bytes) (catalogId : Nat) : Bytes :=
  let (output, offsets) := (objects.tail.zipIdx 1).foldl emitObject (ascii "%PDF-1.4\n", [0])
  let xref := output.length
  output ++ encode ("xref\n0 ".toList ++ decimal objects.length ++ "\n0000000000 65535 f \n".toList) ++
    offsets.tail.flatMap (fun offset => encode (pad10 offset ++ " 00000 n \n".toList)) ++
    encode ("trailer\n<< /Size ".toList ++ decimal objects.length ++ " /Root ".toList ++
      reference catalogId ++
      " >>\nstartxref\n".toList ++ decimal xref ++ "\n%%EOF\n".toList)

def renderDocumentPdf (rt : Runtime) (document : ResumeDocument) : Option Bytes :=
  (pageStreams rt document).map fun streams =>
    let (objects, catalogId) := renderObjects document streams
    serialize objects catalogId

theorem emitObject_layout (bodies : List Bytes) (number : Nat) (output : Bytes) (offsets : List Nat) :
    (bodies.zipIdx number).foldl emitObject (output, offsets) =
      ((layout number output bodies).1, offsets ++ (layout number output bodies).2) := by
  induction bodies generalizing number output offsets with
  | nil => simp [layout]
  | cons body bodies ih =>
    have step : emitObject (output, offsets) (body, number) = (output ++ block number body,
        offsets ++ [output.length]) := by
      simp [emitObject, block, ascii]
    rw [List.zipIdx_cons, List.foldl_cons, step, ih]
    simp [layout]

theorem sizeLine_text (size : Nat) :
    encode ("xref\n0 ".toList ++ decimal size ++ "\n0000000000 65535 f \n".toList) =
      ascii "xref\n0 " ++ line (decimal size) ++ line freeLine := by
  have free : encode "\n0000000000 65535 f \n".toList = [10] ++ line freeLine := by decide
  rw [encode_append, encode_append, free]
  simp only [line, ascii, List.append_assoc]

theorem trailer_text (size root start : Nat) :
    encode ("trailer\n<< /Size ".toList ++ decimal size ++ " /Root ".toList ++ reference root ++
      " >>\nstartxref\n".toList ++ decimal start ++ "\n%%EOF\n".toList) =
      ascii "trailer\n" ++ line (Object.dict (trailerDict size root)).print ++ ascii "startxref\n" ++
        encode (decimal start) ++ ascii "\n%%EOF\n" := by
  have dict : (Object.dict (trailerDict size root)).print =
      "<< /Size ".toList ++ decimal size ++ " /Root ".toList ++ reference root ++ " >>".toList := by
    simp [Object.print, Object.printEntries, trailerDict, reference]
  have opening : encode "trailer\n<< /Size ".toList = ascii "trailer\n" ++ encode "<< /Size ".toList :=
    by decide
  have closing : encode " >>\nstartxref\n".toList = encode " >>".toList ++ [10] ++ ascii "startxref\n" :=
    by decide
  have ending : encode "\n%%EOF\n".toList = ascii "\n%%EOF\n" := rfl
  simp only [dict, line, encode_append, opening, closing, ending, List.append_assoc]

theorem serialize_writeFile (bodies : List Bytes) (catalogId : Nat) :
    serialize ([] :: bodies) catalogId = writeFile bodies catalogId := by
  have entry : ∀ offset, encode (pad10 offset ++ " 00000 n \n".toList) = line (entryLine offset) := by
    intro offset
    have ending : encode " 00000 n \n".toList = encode " 00000 n ".toList ++ [10] := by decide
    rw [encode_append, ending, line, entryLine, encode_append, List.append_assoc]
  simp only [serialize, List.tail_cons, emitObject_layout, List.cons_append, List.nil_append,
    entry, List.length_cons, sizeLine_text, trailer_text, writeFile]
  simp only [List.append_assoc]

def key (s : String) : Str := s.toList

def streamEntries (stream : Bytes) : Entries := [(key "Length", .int stream.length)]

def fontEntries (document : ResumeDocument) : Entries :=
  [(key "Type", .name (key "Font")), (key "Subtype", .name (key "Type1")),
    (key "BaseFont", .name (fontName document))]

def resources (document : ResumeDocument) (fontId : Nat) : Entries :=
  [(key "Font", .dict [(fontResource document, .ref fontId)])]

def mediaBox (document : ResumeDocument) : List Object :=
  [.int 0, .int 0, .int (pageSize document).1.toNat, .int (pageSize document).2.toNat]

def pageEntries (document : ResumeDocument) (pagesId fontId contentId : Nat) : Entries :=
  [(key "Type", .name (key "Page")), (key "Parent", .ref pagesId),
    (key "MediaBox", .array (mediaBox document)), (key "Resources", .dict (resources document fontId)),
    (key "Contents", .ref contentId)]

def pagesEntries (pageIds : List Nat) : Entries :=
  [(key "Type", .name (key "Pages")), (key "Kids", .array (pageIds.map .ref)),
    (key "Count", .int pageIds.length)]

def catalogEntries (pagesId : Nat) : Entries :=
  [(key "Type", .name (key "Catalog")), (key "Pages", .ref pagesId)]

def pageObjects (document : ResumeDocument) (pagesId fontId contentId : Nat) : List Bytes → List Indirect
  | [] => []
  | stream :: streams =>
    .stream (streamEntries stream) stream :: .value (.dict (pageEntries document pagesId fontId contentId)) ::
      pageObjects document pagesId fontId (contentId + 2) streams

/-- The objects of a document's file when every number a reference gives is `shift` above the object's own. -/
def pdfObjects (shift : Nat) (document : ResumeDocument) (streams : List Bytes) : List Indirect :=
  let n := streams.length
  pageObjects document (2 * n + 2 + shift) (2 * n + 1 + shift) (1 + shift) streams ++
    [.value (.dict (fontEntries document)),
      .value (.dict (pagesEntries ((List.range n).map fun i => 2 * i + 2 + shift))),
      .value (.dict (catalogEntries (2 * n + 2 + shift)))]

def catalogNumber (shift : Nat) (streams : List Bytes) : Nat := 2 * streams.length + 3 + shift

theorem streamObject_body (stream : Bytes) :
    streamObject stream = (Indirect.stream (streamEntries stream) stream).body := by
  have opening : (Object.dict (streamEntries stream)).print = "<< /Length ".toList ++ decimal stream.length ++
      " >>".toList := by
    simp [Object.print, Object.printEntries, streamEntries, key]
  have closing : encode " >>\nstream\n".toList = encode " >>".toList ++ ascii "\nstream\n" := by decide
  simp only [streamObject, Indirect.body, opening, closing, encode_append, List.append_assoc]

theorem fontEntries_print (document : ResumeDocument) :
    (Object.dict (fontEntries document)).print = fontText document := by
  unfold fontText
  simp only [Object.print, Object.printEntries, fontEntries, key]
  simp

theorem pageEntries_print (document : ResumeDocument) (pagesId fontId contentId : Nat) :
    (Object.dict (pageEntries document pagesId fontId contentId)).print =
    pageText document pagesId fontId contentId := by
  have width : decimalInt (pageSize document).1 = decimal (pageSize document).1.toNat := by
    unfold pageSize
    split <;> rfl
  have height : decimalInt (pageSize document).2 = decimal (pageSize document).2.toNat := by
    unfold pageSize
    split <;> rfl
  have zero : decimal 0 = ['0'] := by decide
  unfold pageText
  simp only [Object.print, Object.printEntries, Object.printItems, joinWith, pageEntries,
    resources, mediaBox, key, reference, width, height, zero]
  simp

theorem pagesEntries_print (pageIds : List Nat) :
    (Object.dict (pagesEntries pageIds)).print = pagesText pageIds := by
  have kids : Object.printItems (pageIds.map .ref) = pageIds.map reference := by
    induction pageIds with
    | nil => rfl
    | cons id ids ih =>
      rw [List.map_cons, Object.printItems, ih]
      rfl
  unfold pagesText
  simp only [Object.print, Object.printEntries, pagesEntries, key, kids]
  simp

theorem catalogEntries_print (pagesId : Nat) :
    (Object.dict (catalogEntries pagesId)).print = catalogText pagesId := by
  unfold catalogText
  simp only [Object.print, Object.printEntries, catalogEntries, key, reference]
  simp

theorem addStream_all (streams objects : List Bytes) (pageIds contentIds : List Nat) :
    streams.foldl Assembly.addStream ⟨objects, pageIds, contentIds⟩ =
      ⟨objects ++ streams.flatMap (fun stream => [streamObject stream, []]),
        pageIds ++ (List.range streams.length).map (fun i => objects.length + 2 * i + 2),
        contentIds ++ (List.range streams.length).map (fun i => objects.length + 2 * i + 1)⟩ := by
  induction streams generalizing objects pageIds contentIds with
  | nil => simp
  | cons stream streams ih =>
    rw [List.foldl_cons, Assembly.addStream, ih, List.length_cons, List.range_succ_eq_map]
    simp only [List.append_assoc, List.cons_append, List.nil_append, List.flatMap_cons, List.map_cons,
      List.map_map, List.length_append, List.length_cons, List.length_nil, Assembly.mk.injEq,
      List.append_cancel_left_eq, List.cons.injEq]
    refine ⟨trivial, ⟨trivial, ?_⟩, ⟨trivial, ?_⟩⟩
    · apply List.map_congr_left
      intro i _
      simp only [Function.comp_apply]
      omega
    · apply List.map_congr_left
      intro i _
      simp only [Function.comp_apply]
      omega

theorem fillPages_set (document : ResumeDocument) (pagesId fontId : Nat) (streams before after : List Bytes) :
    ((List.range streams.length).map fun i => (before.length + 2 * i + 2, before.length + 2 * i + 1)).foldl
        (fun objects ids => objects.set (ids.1 - 1) (encode (pageText document pagesId fontId ids.2)))
        (before ++ streams.flatMap (fun stream => [streamObject stream, []]) ++ after) =
      before ++ (pageObjects document pagesId fontId (before.length + 1) streams).map Indirect.body ++
          after := by
  induction streams generalizing before with
  | nil => simp [pageObjects]
  | cons stream streams ih =>
    have rest := ih (before ++ [streamObject stream,
      encode (pageText document pagesId fontId (before.length + 1))])
    rw [List.length_cons, List.range_succ_eq_map, List.map_cons, List.foldl_cons]
    have first : (before ++ (stream :: streams).flatMap (fun stream => [streamObject stream, []]) ++
      after).set
        (before.length + 2 * 0 + 2 - 1)
          (encode (pageText document pagesId fontId (before.length + 2 * 0 + 1))) =
        (before ++ [streamObject stream, encode (pageText document pagesId fontId (before.length + 1))]) ++
          streams.flatMap (fun stream => [streamObject stream, []]) ++ after := by
      simp
    have ids : ((List.range streams.length).map Nat.succ).map
          (fun i => (before.length + 2 * i + 2, before.length + 2 * i + 1)) =
        (List.range streams.length).map fun i =>
          ((before ++ [streamObject stream,
            encode (pageText document pagesId fontId (before.length + 1))]).length + 2 * i + 2,
            (before ++ [streamObject stream,
            encode (pageText document pagesId fontId (before.length + 1))]).length + 2 * i + 1) := by
      rw [List.map_map]
      apply List.map_congr_left
      intro i _
      simp only [Function.comp_apply, List.length_append, List.length_cons, List.length_nil, Prod.mk.injEq]
      omega
    rw [first, ids, rest]
    simp [pageObjects, streamObject_body, pageEntries_print, Indirect.body]

theorem pageObjects_length (document : ResumeDocument) (pagesId fontId contentId : Nat)
    (streams : List Bytes) :
    (pageObjects document pagesId fontId contentId streams).length = 2 * streams.length := by
  induction streams generalizing contentId with
  | nil => rfl
  | cons stream streams ih =>
    rw [pageObjects, List.length_cons, List.length_cons, ih, List.length_cons]
    omega

theorem renderObjects_eq (document : ResumeDocument) (streams : List Bytes) :
    renderObjects document streams = ([] :: (pdfObjects 1 document streams).map Indirect.body,
      catalogNumber 1 streams) := by
  have lengths : (streams.flatMap fun stream => [streamObject stream, []]).length = 2 * streams.length := by
    induction streams with
    | nil => rfl
    | cons stream streams ih =>
      rw [List.flatMap_cons, List.length_append, ih]
      simp only [List.length_cons, List.length_nil]
      omega
  have pages := fillPages_set document (2 * streams.length + 3) (2 * streams.length + 2) streams [[]]
    [encode (fontText document), [], []]
  have bodies := pageObjects_length document (2 * streams.length + 3) (2 * streams.length + 2) 2 streams
  unfold renderObjects
  rw [addStream_all]
  simp only [List.nil_append, List.zip_map', List.length_append, List.length_cons, List.length_nil,
    lengths, Nat.zero_add, List.append_assoc, List.cons_append, Nat.add_sub_cancel] at pages ⊢
  have kids : ((List.range streams.length).map fun i => 1 + 2 * i + 2) =
      (List.range streams.length).map fun i => 2 * i + 2 + 1 := by
    apply List.map_congr_left
    intro i _
    omega
  have before : 2 * streams.length =
    ((pageObjects document (2 * streams.length + 3) (2 * streams.length + 2) 2
      streams).map Indirect.body).length := by
    rw [List.length_map, bodies]
  have setPages : ∀ (objects : List Bytes) (page catalog : Bytes), objects.length = 2 * streams.length →
      ((([] : Bytes) :: (objects ++ [encode (fontText document), [], []])).set
        (2 * streams.length + 2) page).set
        (2 * streams.length + 3) catalog =
            [] :: (objects ++ [encode (fontText document), page, catalog]) := by
    intro objects page catalog length
    rw [← length]
    simp
  have patched := setPages _ (encode (pagesText ((List.range streams.length).map fun i => 2 * i + 2 + 1)))
    (encode (catalogText (2 * streams.length + 3))) before.symm
  rw [pages, kids]
  refine Prod.ext (patched.trans ?_) rfl
  simp [pdfObjects, Indirect.body, fontEntries_print, pagesEntries_print, catalogEntries_print]

theorem renderDocumentPdf_writeFile {rt : Runtime} {document : ResumeDocument} {streams : List Bytes}
    (rendered : pageStreams rt document = some streams) :
    renderDocumentPdf rt document =
      some (writeFile ((pdfObjects 1 document streams).map Indirect.body) (catalogNumber 1 streams)) := by
  rw [renderDocumentPdf, rendered, Option.map_some]
  dsimp only
  rw [renderObjects_eq]
  exact congrArg some (serialize_writeFile _ _)

theorem fontName_regular (document : ResumeDocument) :
    RegularName (fontName document) ∧ RegularName (fontResource document) := by
  unfold fontResource fontName
  cases document.style.fontFamily <;> decide

theorem regularItems_refs (ids : List Nat) : RegularItems (ids.map .ref) := by
  induction ids with
  | nil => trivial
  | cons id ids ih => exact ⟨trivial, ih⟩

theorem key_regular :
    ∀ name ∈ ["Type", "Font", "Subtype", "Type1", "BaseFont", "Page", "Parent", "MediaBox", "Resources",
    "Contents", "Pages", "Kids", "Count", "Catalog", "Length"], RegularName (key name) := by
  decide

theorem pageObjects_sound (document : ResumeDocument) (pagesId fontId contentId : Nat)
    (streams : List Bytes) :
    ∀ object ∈ pageObjects document pagesId fontId contentId streams, object.Sound := by
  induction streams generalizing contentId with
  | nil => exact fun _ member => nomatch member
  | cons stream streams ih =>
    intro object member
    rcases List.mem_cons.mp member with rfl | member
    · refine ⟨⟨key_regular "Length" (by decide), trivial, trivial⟩, stream.length, ?_, rfl⟩
      simp [streamEntries, key]
    · rcases List.mem_cons.mp member with rfl | member
      · exact ⟨key_regular "Type" (by decide), key_regular "Page" (by decide),
          key_regular "Parent" (by decide), trivial,
          key_regular "MediaBox" (by decide), ⟨trivial, trivial, trivial, trivial, trivial⟩,
          key_regular "Resources" (by decide),
          ⟨key_regular "Font" (by decide), ⟨(fontName_regular document).2, trivial, trivial⟩, trivial⟩,
          key_regular "Contents" (by decide), trivial, trivial⟩
      · exact ih _ object member

theorem pdfObjects_sound (shift : Nat) (document : ResumeDocument) (streams : List Bytes) :
    ∀ object ∈ pdfObjects shift document streams, object.Sound := by
  intro object member
  rcases List.mem_append.mp member with member | member
  · exact pageObjects_sound _ _ _ _ _ object member
  · simp only [List.mem_cons, List.not_mem_nil, or_false] at member
    rcases member with rfl | rfl | rfl
    · exact ⟨key_regular "Type" (by decide), key_regular "Font" (by decide),
        key_regular "Subtype" (by decide),
        key_regular "Type1" (by decide), key_regular "BaseFont" (by decide), (fontName_regular document).1,
          trivial⟩
    · exact ⟨key_regular "Type" (by decide), key_regular "Pages" (by decide), key_regular "Kids" (by decide),
        regularItems_refs _, key_regular "Count" (by decide), trivial, trivial⟩
    · exact ⟨key_regular "Type" (by decide), key_regular "Catalog" (by decide),
        key_regular "Pages" (by decide), trivial,
        trivial⟩

theorem pdfObjects_length (shift : Nat) (document : ResumeDocument) (streams : List Bytes) :
    (pdfObjects shift document streams).length = 2 * streams.length + 3 := by
  rw [pdfObjects, List.length_append, pageObjects_length]
  rfl

end ManifestCV.Render
