import ManifestCV.Render.PdfDocument

namespace ManifestCV.Render

open Foundation Document Pdf

mutual
def refs : Object → List Nat
  | .ref number => [number]
  | .array items => itemRefs items
  | .dict entries => entryRefs entries
  | _ => []

def itemRefs : List Object → List Nat
  | [] => []
  | item :: items => refs item ++ itemRefs items

def entryRefs : List (Str × Object) → List Nat
  | [] => []
  | (_, value) :: entries => refs value ++ entryRefs entries
end

def indirectRefs : Indirect → List Nat
  | .value o => refs o
  | .stream entries _ => entryRefs entries

def fontUnder (page : Entries) (name : Str) : Option Object := do
  let resources ← page.lookup (key "Resources")
  let fonts ← resources.entries.lookup (key "Font")
  fonts.entries.lookup name

def selectedFont (stream : Bytes) : Str :=
  ((latin1 (splitLine (splitLine stream).2).1).drop 1).takeWhile (· ≠ ' ')

def HasType (entries : Entries) (type : String) : Prop :=
  entries.lookup (key "Type") = some (.name (key type))

structure Numbering where
  root : Nat
  pages : Nat
  font : Nat
  kids : List Nat
  contents : List Nat

structure Numbering.Leads (m : Numbering) (streams : List Bytes) (file : Bytes) : Prop where
  root : Pdf.root file = some m.root
  catalog : ∃ entries, lookup file m.root = some (.value (.dict entries)) ∧ HasType entries "Catalog" ∧
    entries.lookup (key "Pages") = some (.ref m.pages)
  pages : ∃ entries, lookup file m.pages = some (.value (.dict entries)) ∧ HasType entries "Pages" ∧
    entries.lookup (key "Kids") = some (.array (m.kids.map .ref)) ∧
    entries.lookup (key "Count") = some (.int streams.length)
  kids : m.kids.length = streams.length
  page : ∀ (i : Nat) stream, streams[i]? = some stream → ∃ (kid content : Nat) (entries own : Entries),
    m.kids[i]? = some kid ∧ m.contents[i]? = some content ∧
    lookup file kid = some (.value (.dict entries)) ∧ HasType entries "Page" ∧
    entries.lookup (key "Parent") = some (.ref m.pages) ∧ entries.lookup (key "Contents") =
      some (.ref content) ∧
    lookup file content = some (.stream own stream) ∧ fontUnder entries (selectedFont stream) =
      some (.ref m.font)
  font : ∃ entries, lookup file m.font = some (.value (.dict entries)) ∧ HasType entries "Font"
  defined : ∀ number object, lookup file number = some object →
    ∀ other ∈ indirectRefs object, (lookup file other).isSome = true

def WellFormedGraph (streams : List Bytes) (file : Bytes) : Prop := ∃ m : Numbering, m.Leads streams file

/-- The file with every reference `shift` above the number of its object. -/
def shiftedFile (shift : Nat) (document : ResumeDocument) (streams : List Bytes) : Bytes :=
  writeFile ((pdfObjects shift document streams).map Indirect.body) (catalogNumber shift streams)

theorem lookup_shiftedFile (shift : Nat) (document : ResumeDocument) (streams : List Bytes) (number : Nat) :
    lookup (shiftedFile shift document streams) number =
      if number = 0 then none else (pdfObjects shift document streams)[number - 1]? :=
  lookup_writeFile _ _ _ (pdfObjects_sound shift document streams)

theorem shifted_malformed {shift : Nat} (positive : 0 < shift) (document : ResumeDocument)
    (streams : List Bytes) :
    ¬ WellFormedGraph streams (shiftedFile shift document streams) := by
  rintro ⟨m, leads⟩
  have named : m.root = catalogNumber shift streams := by
    have read := leads.root
    rw [shiftedFile, root_writeFile] at read
    exact (Option.some.inj read).symm
  obtain ⟨entries, found, _⟩ := leads.catalog
  have beyond : (pdfObjects shift document streams)[catalogNumber shift streams - 1]? = none := by
    rw [List.getElem?_eq_none_iff, pdfObjects_length, catalogNumber]
    omega
  rw [named, lookup_shiftedFile, beyond] at found
  simp at found

theorem pageObjects_stream (document : ResumeDocument) (pagesId fontId contentId : Nat) (streams : List Bytes)
    (i : Nat) (stream : Bytes) (here : streams[i]? = some stream) :
    (pageObjects document pagesId fontId contentId streams)[2 * i]? =
    some (.stream (streamEntries stream) stream) ∧
      (pageObjects document pagesId fontId contentId streams)[2 * i + 1]? =
        some (.value (.dict (pageEntries document pagesId fontId (contentId + 2 * i)))) := by
  induction streams generalizing contentId i with
  | nil => cases here
  | cons first streams ih =>
    cases i with
    | zero =>
      obtain rfl : first = stream := by simpa using here
      exact ⟨rfl, rfl⟩
    | succ i =>
      have rest := ih (contentId + 2) i (by simpa using here)
      have even : 2 * (i + 1) = 2 * i + 1 + 1 := by omega
      have shifted : contentId + 2 * (i + 1) = contentId + 2 + 2 * i := by omega
      rw [pageObjects, shifted, even]
      simpa using rest

theorem pdfObjects_page (shift : Nat) (document : ResumeDocument) {streams : List Bytes} {i : Nat}
    {stream : Bytes} (here : streams[i]? = some stream) :
    lookup (shiftedFile shift document streams) (2 * i + 1) = some (.stream (streamEntries stream) stream) ∧
      lookup (shiftedFile shift document streams) (2 * i + 2) = some (.value (.dict (pageEntries document
        (2 * streams.length + 2 + shift) (2 * streams.length + 1 + shift) (1 + shift + 2 * i)))) := by
  have bound : i < streams.length := (List.getElem?_eq_some_iff.mp here).1
  obtain ⟨content, page⟩ := pageObjects_stream document (2 * streams.length + 2 + shift)
    (2 * streams.length + 1 + shift)
    (1 + shift) streams i stream here
  have length := pageObjects_length document (2 * streams.length + 2 + shift) (2 * streams.length + 1 + shift)
    (1 + shift)
    streams
  rw [lookup_shiftedFile, lookup_shiftedFile, if_neg (by omega), if_neg (by omega), pdfObjects]
  constructor
  · rw [List.getElem?_append_left (by omega)]
    exact content
  · rw [List.getElem?_append_left (by omega)]
    exact page

theorem pdfObjects_rest (shift : Nat) (document : ResumeDocument) (streams : List Bytes) :
    lookup (shiftedFile shift document streams) (2 * streams.length + 1) =
      some (.value (.dict (fontEntries document))) ∧
      lookup (shiftedFile shift document streams) (2 * streams.length + 2) = some (.value (.dict
        (pagesEntries ((List.range streams.length).map fun i => 2 * i + 2 + shift)))) ∧
      lookup (shiftedFile shift document streams) (2 * streams.length + 3) =
        some (.value (.dict (catalogEntries (2 * streams.length + 2 + shift)))) := by
  have length := pageObjects_length document (2 * streams.length + 2 + shift) (2 * streams.length + 1 + shift)
    (1 + shift)
    streams
  have after : ∀ k, lookup (shiftedFile shift document streams) (2 * streams.length + 1 + k) =
      [Indirect.value (.dict (fontEntries document)),
        .value (.dict (pagesEntries ((List.range streams.length).map fun i => 2 * i + 2 + shift))),
        .value (.dict (catalogEntries (2 * streams.length + 2 + shift)))][k]? := by
    intro k
    rw [lookup_shiftedFile, if_neg (by omega), pdfObjects, List.getElem?_append_right (by omega), length]
    congr 1
    omega
  exact ⟨after 0, after 1, after 2⟩

theorem fontUnder_page (document : ResumeDocument) (pagesId fontId contentId : Nat) :
    fontUnder (pageEntries document pagesId fontId contentId) (fontResource document) =
      some (.ref fontId) := by
  simp [fontUnder, pageEntries, resources, key, Object.entries, List.lookup_cons]

theorem itemRefs_refs (ids : List Nat) : itemRefs (ids.map .ref) = ids := by
  induction ids with
  | nil => rfl
  | cons id ids ih => rw [List.map_cons, itemRefs, ih]; rfl

/-- The objects of the file by their numbers: content and page of each stream, then font, pages and
    catalog. -/
theorem lookup_cases {shift number : Nat} {document : ResumeDocument} {streams : List Bytes}
    {object : Indirect} (found : lookup (shiftedFile shift document streams) number = some object) :
    (∃ stream, object = .stream (streamEntries stream) stream) ∨
    (∃ i < streams.length, object = .value (.dict (pageEntries document (2 * streams.length + 2 + shift)
      (2 * streams.length + 1 + shift) (1 + shift + 2 * i)))) ∨
    object = .value (.dict (fontEntries document)) ∨
    object = .value (.dict (pagesEntries ((List.range streams.length).map fun i => 2 * i + 2 + shift))) ∨
    object = .value (.dict (catalogEntries (2 * streams.length + 2 + shift))) := by
  obtain ⟨font, pages, catalog⟩ := pdfObjects_rest shift document streams
  have bounds : 0 < number ∧ number ≤ 2 * streams.length + 3 := by
    have read := found
    rw [lookup_shiftedFile] at read
    split at read
    · cases read
    · have bound := (List.getElem?_eq_some_iff.mp read).1
      rw [pdfObjects_length] at bound
      omega
  have parts : (∃ i < streams.length, number = 2 * i + 1) ∨ (∃ i < streams.length, number = 2 * i + 2) ∨
      number = 2 * streams.length + 1 ∨ number = 2 * streams.length + 2 ∨
          number = 2 * streams.length + 3 := by
    by_cases small : number ≤ 2 * streams.length
    · rcases Nat.even_or_odd' number with ⟨half, even | odd⟩
      · exact .inr (.inl ⟨half - 1, by omega, by omega⟩)
      · exact .inl ⟨half, by omega, odd⟩
    · omega
  rcases parts with ⟨i, bound, rfl⟩ | ⟨i, bound, rfl⟩ | rfl | rfl | rfl
  · rw [(pdfObjects_page shift document (List.getElem?_eq_getElem bound)).1] at found
    exact .inl ⟨_, (Option.some.inj found).symm⟩
  · rw [(pdfObjects_page shift document (List.getElem?_eq_getElem bound)).2] at found
    exact .inr (.inl ⟨i, bound, (Option.some.inj found).symm⟩)
  · rw [font] at found
    exact .inr (.inr (.inl (Option.some.inj found).symm))
  · rw [pages] at found
    exact .inr (.inr (.inr (.inl (Option.some.inj found).symm)))
  · rw [catalog] at found
    exact .inr (.inr (.inr (.inr (Option.some.inj found).symm)))

theorem unshifted_defined (document : ResumeDocument) (streams : List Bytes) (number : Nat)
    (object : Indirect) (found : lookup (shiftedFile 0 document streams) number = some object) :
    ∀ other ∈ indirectRefs object, (lookup (shiftedFile 0 document streams) other).isSome = true := by
  have within : ∀ other, 0 < other → other ≤ 2 * streams.length + 3 →
      (lookup (shiftedFile 0 document streams) other).isSome = true := by
    intro other positive bound
    rw [lookup_shiftedFile, if_neg (by omega), List.getElem?_eq_getElem (by rw [pdfObjects_length]; omega)]
    rfl
  intro other member
  rcases lookup_cases found with ⟨stream, rfl⟩ | ⟨i, bound, rfl⟩ | rfl | rfl | rfl
  · cases member
  · have named : other = 2 * streams.length + 2 ∨ other = 2 * streams.length + 1 ∨ other = 1 + 2 * i := by
      simpa [indirectRefs, refs, entryRefs, itemRefs, pageEntries, mediaBox, resources] using member
    apply within <;> omega
  · cases member
  · simp only [indirectRefs, refs, entryRefs, itemRefs_refs, pagesEntries, List.nil_append,
      List.append_nil] at member
    obtain ⟨i, inside, rfl⟩ := List.mem_map.mp member
    have bound := List.mem_range.mp inside
    apply within <;> omega
  · have pages : other = 2 * streams.length + 2 := by
      simpa [indirectRefs, refs, entryRefs, catalogEntries] using member
    apply within <;> omega

/-- Without the shift every reference finds its object: the graph is the intended one. -/
theorem unshifted_wellFormed (document : ResumeDocument) (streams : List Bytes)
    (selected : ∀ stream ∈ streams, selectedFont stream = fontResource document) :
    WellFormedGraph streams (shiftedFile 0 document streams) := by
  obtain ⟨font, pages, catalog⟩ := pdfObjects_rest 0 document streams
  refine ⟨⟨2 * streams.length + 3, 2 * streams.length + 2, 2 * streams.length + 1,
    (List.range streams.length).map fun i => 2 * i + 2, (List.range streams.length).map fun i => 2 * i + 1⟩,
      ?_⟩
  constructor
  case root => exact root_writeFile _ _
  case catalog =>
    exact ⟨_, catalog, by simp [HasType, catalogEntries, key],
      by simp [catalogEntries, key, List.lookup_cons]⟩
  case pages =>
    refine ⟨_, pages, by simp [HasType, pagesEntries, key], by simp [pagesEntries, key, List.lookup_cons], ?_⟩
    simp [pagesEntries, key, List.lookup_cons]
  case kids => simp
  case page =>
    intro i stream here
    have bound : i < streams.length := (List.getElem?_eq_some_iff.mp here).1
    obtain ⟨content, page⟩ := pdfObjects_page 0 document here
    refine ⟨2 * i + 2, 2 * i + 1, _, _, by simp [bound], by simp [bound], page,
      by simp [HasType, pageEntries, key],
      by simp [pageEntries, key, List.lookup_cons], ?_, content, ?_⟩
    · simp [pageEntries, key, List.lookup_cons, Nat.add_comm 1]
    · rw [selected stream (List.mem_of_getElem? here)]
      exact fontUnder_page document _ _ _
  case font => exact ⟨_, font, by simp [HasType, fontEntries, key]⟩
  case defined => exact unshifted_defined document streams

theorem fixed_plain (places : Nat) (x : Double) : Plain (fixed places x) := by
  refine Plain.append (Plain.append (decimal_plain _) ?_) (decimal_plain _)
  intro c member
  rcases List.mem_cons.mp member with rfl | member
  · decide
  · rw [(List.mem_replicate.mp member).2]
    decide

theorem general_sublist (x : Double) : List.Sublist (general x) (fixed (if x.val < 10 then 5 else 4) x) := by
  rw [← List.reverse_sublist, general, List.reverse_reverse]
  exact (List.dropWhile_sublist _).trans (List.dropWhile_sublist _)

theorem general_plain (x : Double) : Plain (general x) :=
  fun c member => fixed_plain _ x c ((general_sublist x).subset member)

theorem selectedFont_pageStream (document : ResumeDocument) (rows : List (PageRow Double)) :
    selectedFont (pageStream document rows) = fontResource document := by
  obtain ⟨rest, text⟩ : ∃ rest, joinWith ['\n'] (pageCommands document rows) = "BT".toList ++ '\n' ::
      (('/' :: fontResource document ++ ' ' :: general document.style.fontSize.toDouble ++ " Tf".toList) ++
          '\n' :: rest) := by
    have last : ∃ command more, (pageDraws document id rows).flatMap (drawCommands document) ++
      ["ET".toList] =
        command :: more := by
      cases (pageDraws document id rows).flatMap (drawCommands document) with
      | nil => exact ⟨_, _, rfl⟩
      | cons command more => exact ⟨_, _, rfl⟩
    obtain ⟨command, more, shape⟩ := last
    refine ⟨joinWith ['\n'] (command :: more), ?_⟩
    rw [pageCommands, List.cons_append, List.cons_append, shape]
    simp [joinWith]
  have regular := (fontName_regular document).2
  have plain : Plain ('/' :: fontResource document ++ ' ' :: general document.style.fontSize.toDouble ++
      " Tf".toList) := by
    refine Plain.append (Plain.append (s := ['/']) (by decide) (Plain.append (regular_plain regular) ?_))
      (by decide)
    exact Plain.append (s := [' ']) (by decide) (general_plain _)
  have lines : pageStream document rows = line "BT".toList ++
      (line ('/' :: fontResource document ++ ' ' :: general document.style.fontSize.toDouble ++
          " Tf".toList) ++ encode rest) := by
    have newline : ∀ s : Str, encode ('\n' :: s) = [10] ++ encode s := fun s => encode_cons '\n' s
    rw [pageStream, text]
    simp only [encode_append, newline, line, List.append_assoc]
  rw [selectedFont, lines, splitLine_line (by decide), splitLine_line plain, latin1_encode plain]
  have name : ∀ c ∈ fontResource document, decide (c ≠ ' ') = true := by
    intro c member
    have plainName := (regular c member).1
    rw [decide_eq_true_iff]
    rintro rfl
    exact absurd plainName (by decide)
  simp only [List.cons_append, List.append_assoc, List.drop_succ_cons, List.drop_zero]
  rw [List.takeWhile_append_of_pos name]
  simp

/-- The renderer's file is the one whose references are all one too high; with references one lower the same
    objects would be well formed. -/
theorem render_shifted {rt : Runtime} {document : ResumeDocument} (accepted : Accepted rt document) :
    ∃ streams, pageStreams rt document = some streams ∧
      renderDocumentPdf rt document = some (shiftedFile 1 document streams) ∧
      WellFormedGraph streams (shiftedFile 0 document streams) := by
  obtain ⟨payload, keyed, parsed⟩ := accepted
  have streams := pageStreams_accepted (validateDocument_sound keyed parsed).1
  refine ⟨_, streams, renderDocumentPdf_writeFile streams, unshifted_wellFormed document _ ?_⟩
  intro stream member
  obtain ⟨page, _, rfl⟩ := List.mem_map.mp member
  exact selectedFont_pageStream document _

/-- No rendered file is well formed. -/
theorem render_malformed (rt : Runtime) (document : ResumeDocument) (accepted : Accepted rt document) :
    ∃ streams file, pageStreams rt document = some streams ∧ renderDocumentPdf rt document = some file ∧
      ¬ WellFormedGraph streams file := by
  obtain ⟨streams, drawn, written, _⟩ := render_shifted accepted
  exact ⟨streams, _, drawn, written, shifted_malformed (by omega) document streams⟩

theorem render_malformed_onePager :
    ∃ streams file, pageStreams plainRuntime (onePager "Engineer".toList) = some streams ∧
      renderDocumentPdf plainRuntime (onePager "Engineer".toList) = some file ∧
        ¬ WellFormedGraph streams file :=
  render_malformed plainRuntime _ onePager_accepted

theorem onePager_not_wellFormed :
    ¬ ∀ document, Accepted plainRuntime document → ∀ streams file, pageStreams plainRuntime document =
      some streams →
      renderDocumentPdf plainRuntime document = some file → WellFormedGraph streams file := by
  intro all
  obtain ⟨streams, drawn, written, _⟩ := render_shifted onePager_accepted
  exact shifted_malformed (by omega) _ _ (all _ onePager_accepted _ _ drawn written)

end ManifestCV.Render
