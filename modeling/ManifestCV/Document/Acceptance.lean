import ManifestCV.Document.Coverage

namespace ManifestCV.Document

open Foundation

def contentStrings (type : Str) (lines : List Str) : List Str :=
  joinWith ['\n'] lines :: if bulletTypes.contains type then lines else []

def hasMarker (rt : Runtime) (text : Str) : Bool := executableMarkers.any (occursIn · (rt.lower text))

def uriHost (rest : Str) : Str :=
  if "//".toList.isPrefixOf rest then (rest.drop 2).takeWhile fun c => c ≠ '/' && c ≠ '?' && c ≠ '#' else []

structure IsUri (text scheme rest : Str) : Prop where
  shape : text = scheme ++ ':' :: rest
  first : scheme.head?.any Char.isAlpha = true
  letters : scheme.all isSchemeChar = true
  unspaced : ∀ c ∈ text, isSpace c = false

/-- A URI with another scheme than http, https and mailto, or one of http or https without a host. The code
    lowers the scheme twice. -/
def IsBadUri (rt : Runtime) (text : Str) : Prop :=
  ∃ scheme rest, IsUri text scheme rest ∧ (rt.lower (rt.lower scheme) ∉ allowedUrlSchemes ∨
    rt.lower (rt.lower scheme) ≠ "mailto".toList ∧ uriHost rest = [])

/-- A URI with a host that `urlsplit` takes. -/
def IsReadableUri (rt : Runtime) (text : Str) : Prop :=
  ∃ scheme rest, IsUri text scheme rest ∧ rt.netlocError (uriHost rest) = none

/-- `urlparse` finds mailto, or http or https with a host. -/
def IsLink (rt : Runtime) (text : Str) : Prop :=
  ∃ scheme netloc, urlparse rt text = .ok (scheme, netloc) ∧ rt.lower scheme ∈ allowedUrlSchemes ∧
    (rt.lower scheme = "mailto".toList ∨ netloc ≠ [])

/-- The content is too large, has too many items, an executable marker or a bad URI. -/
def IsExempt (rt : Runtime) (type : Str) (lines : List Str) : Prop :=
  maxText < ((Json.obj (sectionContent type lines)).repr rt.floats rt.isPrintable).length ∨
    (bulletTypes.contains type = true ∧ maxItems < lines.length) ∨
    ∃ text ∈ contentStrings type lines, hasMarker rt text = true ∨ IsBadUri rt text

def Exempt (rt : Runtime) (markdown : Str) (document : ResumeDocument) : Prop :=
  ∃ block ∈ document.blocks, IsExempt rt (blockType.text block.type) (blockSection rt markdown block)

def StartsAsUri (rt : Runtime) (text : Str) : Prop :=
  matchesUrlPattern text = true → IsReadableUri rt text ∨ IsLink rt text

section Texts

variable {rt : Runtime}

theorem validateText_ok {text : Str} : validateText rt text = .ok () ↔
    hasMarker rt text = false ∧ (matchesUrlPattern text = true → IsLink rt text) := by
  unfold validateText hasMarker
  dsimp only
  split
  · rename_i marked
    simp [marked]
  · rename_i unmarked
    rw [Bool.not_eq_true] at unmarked
    simp only [unmarked, true_and]
    split
    · rename_i shaped
      unfold IsLink
      cases urlparse rt text with
      | error message => simp [shaped]
      | ok parts =>
        obtain ⟨scheme, netloc⟩ := parts
        dsimp only
        split
        · rename_i refused
          simp only [Bool.or_eq_true, Bool.not_eq_true', Bool.and_eq_true, decide_eq_true_eq,
            List.isEmpty_iff] at refused
          constructor
          · intro impossible
            cases impossible
          · intro linked
            obtain ⟨_, _, same, allowed, hosted⟩ := linked shaped
            cases same
            rcases refused with unknown | ⟨other, empty⟩
            · rw [List.contains_iff_mem.mpr allowed] at unknown
              cases unknown
            · rcases hosted with mailto | nonempty
              · exact absurd mailto other
              · exact absurd empty nonempty
        · rename_i passed
          simp only [Bool.or_eq_true, Bool.not_eq_true', Bool.and_eq_true, decide_eq_true_eq,
            List.isEmpty_iff, not_or, not_and, Bool.not_eq_false, List.contains_iff_mem] at passed
          simp only [true_iff]
          intro _
          refine ⟨scheme, netloc, rfl, passed.1, ?_⟩
          by_cases mailto : rt.lower scheme = "mailto".toList
          · exact .inl mailto
          · exact .inr (passed.2 mailto)
    · rename_i plain
      simp [plain]

theorem alpha_ranges {c : Char} (letter : c.isAlpha = true) :
    65 ≤ c.toNat ∧ c.toNat ≤ 90 ∨ 97 ≤ c.toNat ∧ c.toNat ≤ 122 := by
  have ranges : (decide ('A'.val ≤ c.val ∧ c.val ≤ 'Z'.val) || decide ('a'.val ≤ c.val) &&
    decide (c.val ≤ 'z'.val)) =
      true := letter
  simp only [Bool.or_eq_true, Bool.and_eq_true, decide_eq_true_eq, UInt32.le_iff_toNat_le] at ranges
  exact ranges

theorem alpha_high {c : Char} (letter : c.isAlpha = true) : ¬c.toNat ≤ 0x20 := by
  have ranges := alpha_ranges letter
  omega

theorem urlparse_uri {text scheme rest : Str} (uri : IsUri text scheme rest) : urlparse rt text =
    match rt.netlocError (uriHost rest) with
    | some message => .error message
    | none => .ok (rt.lower scheme, uriHost rest) := by
  obtain ⟨shape, first, letters, unspaced⟩ := uri
  have head : (text.dropWhile fun c => c.toNat ≤ 0x20) = text := by
    rw [shape]
    cases scheme with
    | nil => cases first
    | cons c scheme =>
      have letter : c.isAlpha = true := first
      have high : ¬c.toNat ≤ 0x20 := alpha_high letter
      rw [List.cons_append, List.dropWhile_cons_of_neg (by simpa using high)]
  have kept : (text.filter fun c => c ≠ '\t' && c ≠ '\r' && c ≠ '\n') = text := by
    rw [List.filter_eq_self]
    intro c member
    have other := unspaced c member
    have apart : ∀ space ∈ ['\t', '\r', '\n'], c ≠ space := by
      rintro space inside rfl
      have spaces : ∀ space ∈ ['\t', '\r', '\n'], isSpace space = true :=
        List.all_iff_forall_prop.mp (by decide)
      rw [spaces _ inside] at other
      cases other
    simp only [List.forall_mem_cons] at apart
    simp [apart.1, apart.2.1, apart.2.2.1]
  have plain : ∀ c ∈ scheme, decide (c ≠ ':') = true := by
    intro c member
    have letter := List.all_eq_true.mp letters c member
    refine decide_eq_true ?_
    rintro rfl
    exact absurd letter (by decide)
  have before : text.takeWhile (· ≠ ':') = scheme := by
    rw [shape, List.takeWhile_append_of_pos plain, List.takeWhile_cons_of_neg (by decide), List.append_nil]
  have after : text.dropWhile (· ≠ ':') = ':' :: rest := by
    rw [shape, List.dropWhile_append_of_pos plain, List.dropWhile_cons_of_neg (by decide)]
  have dropped : text.drop (scheme.length + 1) = rest := by
    rw [shape, ← List.drop_drop, List.drop_left]
    rfl
  unfold urlparse
  dsimp only
  rw [head, kept, before, after, dropped, first, letters]
  simp only [ne_eq, reduceCtorEq, not_false_eq_true, decide_true, Bool.and_self, if_true]
  rfl

theorem readable_link {text : Str} (readable : IsReadableUri rt text) (good : ¬IsBadUri rt text) :
    IsLink rt text := by
  obtain ⟨scheme, rest, uri, host⟩ := readable
  have parsed := @urlparse_uri rt _ _ _ uri
  rw [host] at parsed
  have fine := not_or.mp fun bad => good ⟨scheme, rest, uri, bad⟩
  refine ⟨_, _, parsed, not_not.mp fine.1, ?_⟩
  by_cases mailto : rt.lower (rt.lower scheme) = "mailto".toList
  · exact .inl mailto
  · exact .inr fun empty => fine.2 ⟨mailto, empty⟩

theorem startsAsUri_valid {text : Str} (unmarked : hasMarker rt text = false) (good : ¬IsBadUri rt text) :
    validateText rt text = .ok () ↔ StartsAsUri rt text := by
  rw [validateText_ok]
  constructor
  · exact fun valid shaped => .inr (valid.2 shaped)
  · intro starts
    refine ⟨unmarked, fun shaped => ?_⟩
    rcases starts shaped with readable | linked
    · exact readable_link readable good
    · exact linked

theorem sectionFits_iff {type : Str} {lines : List Str} : sectionFits rt type lines = true ↔
    ((Json.obj (sectionContent type lines)).repr rt.floats rt.isPrintable).length ≤ maxText ∧
      (bulletTypes.contains type = true → lines.length ≤ maxItems) ∧
      ∀ text ∈ contentStrings type lines, validateText rt text = .ok () := by
  unfold sectionFits contentStrings
  simp only [Bool.and_eq_true, decide_eq_true_eq, isAllowed_iff, Bool.or_eq_true, Bool.not_eq_true',
    List.all_eq_true, List.forall_mem_cons]
  cases bulletTypes.contains type with
  | true => simp [and_assoc, and_left_comm]
  | false => simp

/-- The content of a block that is not exempt is accepted exactly when each string that starts like a URL is
    one. -/
theorem sectionFits_unless {type : Str} {lines : List Str} (ordinary : ¬IsExempt rt type lines) :
    sectionFits rt type lines = true ↔ ∀ text ∈ contentStrings type lines, StartsAsUri rt text := by
  obtain ⟨small, ordinary⟩ := not_or.mp ordinary
  obtain ⟨few, ordinary⟩ := not_or.mp ordinary
  have texts : ∀ text ∈ contentStrings type lines, hasMarker rt text = false ∧ ¬IsBadUri rt text := by
    intro text member
    obtain ⟨unmarked, good⟩ := not_or.mp fun bad => ordinary ⟨text, member, bad⟩
    exact ⟨by simpa using unmarked, good⟩
  rw [sectionFits_iff]
  constructor
  · rintro ⟨_, _, valid⟩ text member
    exact (startsAsUri_valid (texts text member).1 (texts text member).2).mp (valid text member)
  · intro starts
    have items : bulletTypes.contains type = true → lines.length ≤ maxItems :=
      fun bulleted => Nat.not_lt.mp fun many => few ⟨bulleted, many⟩
    refine ⟨Nat.not_lt.mp small, items, fun text member => ?_⟩
    exact (startsAsUri_valid (texts text member).1 (texts text member).2).mpr (starts text member)

end Texts

section Documents

variable {rt : Runtime}

theorem fits_of_accepted {fields : Dict} {type : Str} {lines : List Str} {block : ResumeBlock}
    (accepted : validateBlock rt
      (.obj (dictInsert fields "content".toList (.obj (sectionContent type lines)))) = .ok block) :
    sectionFits rt type lines = true := by
  unfold validateBlock at accepted
  obtain ⟨inner, known, accepted⟩ := bind_ok.mp accepted
  obtain ⟨id, _, accepted⟩ := bind_ok.mp accepted
  obtain ⟨kind, _, accepted⟩ := bind_ok.mp accepted
  obtain ⟨title, _, accepted⟩ := bind_ok.mp accepted
  obtain ⟨visible, _, accepted⟩ := bind_ok.mp accepted
  obtain ⟨content, hContent, accepted⟩ := bind_ok.mp accepted
  obtain ⟨style, _, accepted⟩ := bind_ok.mp accepted
  obtain ⟨sourceIds, _, accepted⟩ := bind_ok.mp accepted
  obtain ⟨passes, rfl⟩ := passing_ok.mp accepted
  have object := Json.obj.inj (modelFields_ok.mp known).1
  have found : inner.lookup "content".toList = some (.obj (sectionContent type lines)) := by
    rw [← object, lookup_dictInsert, if_pos rfl]
  have same : content = sectionContent type lines := by
    rcases optional_ok.mp hContent with ⟨value, there, parsed⟩ | ⟨missing, _⟩
    · rw [found] at there
      cases there
      exact (Except.ok.inj parsed).symm
    · rw [found] at missing
      cases missing
  simp only [Passes, ResumeBlock.checks, List.forall_mem_cons, valueCheck_passes, same] at passes
  exact contentIsBounded_section.mp passes.2.2.2.2.1

theorem fits_of_allAccepted {sections : Sections} {items filled : List Json}
    {blocks others : List ResumeBlock} (parsed : traverse (validateBlock rt) items = .ok blocks)
    (done : items.mapM (fillBlock rt sections) = some filled)
    (accepted : traverse (validateBlock rt) filled = .ok others) : ∀ block ∈ blocks,
      sectionFits rt (blockType.text block.type)
        (sectionFor rt sections block.title (blockType.text block.type)) = true := by
  rw [traverse_ok] at parsed
  induction parsed generalizing filled others with
  | nil => exact fun _ member => nomatch member
  | @cons value block _ _ head _ ih =>
    obtain ⟨fields, _, first⟩ := @fillBlock_parsed rt sections _ _ head
    rw [List.mapM_cons, first] at done
    obtain ⟨_, known, done⟩ := Option.bind_eq_some_iff.mp done
    cases known
    obtain ⟨rest, tail, same⟩ := Option.bind_eq_some_iff.mp done
    cases same
    rw [traverse_ok] at accepted
    cases accepted with
    | cons firstAccepted restAccepted =>
      exact List.forall_mem_cons.mpr ⟨fits_of_accepted firstAccepted, ih tail (traverse_ok.mpr restAccepted)⟩

/-- A document filled with a generated text is accepted exactly when every block's section fits. -/
theorem structuredDocument_fits {markdown : Str} {payload : Json} {document : ResumeDocument}
    (keyed : payload.WellKeyed) (accepted : validateDocument rt payload = .ok document) :
    ∃ written, structuredDocument rt markdown payload = some written ∧
      ((∃ filled, validateDocument rt written = .ok filled) ↔ generatedFits rt markdown document = true) := by
  cases payload with
  | obj fields =>
    obtain ⟨existing, found, parsed⟩ := blocks_found accepted
    obtain ⟨blocks, filled, _⟩ := @markdownToBlocks_texts rt markdown _ _ parsed
    have written : structuredDocument rt markdown (.obj fields) =
        some (.obj (dictInsert fields "blocks".toList (.arr blocks))) := by
      simp only [structuredDocument, found, filled, Option.map_some]
    refine ⟨_, written, ?_⟩
    constructor
    · rintro ⟨again, acceptedAgain⟩
      have stored : (dictInsert fields "blocks".toList (.arr blocks)).lookup "blocks".toList =
          some (.arr blocks) := by
        rw [lookup_dictInsert, if_pos rfl]
      exact List.all_eq_true.mpr (fits_of_allAccepted parsed filled (blocks_parsed acceptedAgain stored))
    · intro fits
      obtain ⟨other, done, _, acceptedAgain⟩ := structuredDocument_accepted keyed accepted fits
      rw [written] at done
      cases done
      exact ⟨_, acceptedAgain⟩
  | _ => cases accepted

end Documents

/-- A generated document is accepted, or too large, marked or with a bad URI, exactly when every string that
    starts like a URL really is one. -/
theorem generated_accepted (rt : Runtime) (markdown : Str) (payload : Json) (document : ResumeDocument)
    (keyed : payload.WellKeyed) (accepted : validateDocument rt payload = .ok document) :
    ∃ written, structuredDocument rt markdown payload = some written ∧
      (Exempt rt markdown document ∨ (∃ filled, validateDocument rt written = .ok filled) ↔
        Exempt rt markdown document ∨ ∀ block ∈ document.blocks,
          ∀ text ∈ contentStrings (blockType.text block.type) (blockSection rt markdown block),
            StartsAsUri rt text) := by
  obtain ⟨written, done, fits⟩ := @structuredDocument_fits rt markdown payload document keyed accepted
  refine ⟨written, done, or_congr_right' fun ordinary => ?_⟩
  rw [fits, generatedFits, List.all_eq_true]
  refine forall_congr' fun block => forall_congr' fun member => ?_
  exact sectionFits_unless fun exempt => ordinary ⟨block, member, exempt⟩

theorem generated_accepted_onePager : ∃ written,
    structuredDocument plainRuntime "- Builds looms".toList (modelDump (onePager "Engineer".toList)) =
      some written ∧
      (Exempt plainRuntime "- Builds looms".toList (onePager "Engineer".toList) ∨
          (∃ filled, validateDocument plainRuntime written = .ok filled) ↔
        Exempt plainRuntime "- Builds looms".toList (onePager "Engineer".toList) ∨
          ∀ block ∈ (onePager "Engineer".toList).blocks,
          ∀ text ∈ contentStrings (blockType.text block.type)
            (blockSection plainRuntime "- Builds looms".toList block),
            StartsAsUri plainRuntime text) :=
  generated_accepted plainRuntime _ _ _ (modelDump_wellKeyed (onePager_wellKeyed _)) onePager_reloads

/-- A line of prose with a colon is refused as a URL. -/
theorem prose_refused : Accepted plainRuntime (onePager "Engineer".toList) ∧
    ¬Exempt plainRuntime "Note: I build looms".toList (onePager "Engineer".toList) ∧ ∃ written,
      structuredDocument plainRuntime "Note: I build looms".toList (modelDump (onePager "Engineer".toList)) =
        some written ∧
        ∀ filled, validateDocument plainRuntime written ≠ .ok filled := by
  refine ⟨onePager_accepted, ?_, ?_⟩
  · rintro ⟨block, member, exempt⟩
    rw [List.mem_singleton.mp member] at exempt
    rcases exempt with large | ⟨bulleted, _⟩ | ⟨text, inside, bad⟩
    · exact absurd large (by decide)
    · exact absurd bulleted (by decide)
    · have only : text = "Note: I build looms".toList := List.mem_singleton.mp inside
      rw [only] at bad
      rcases bad with marked | ⟨scheme, rest, uri, _⟩
      · exact absurd marked (by decide)
      · have blank : isSpace ' ' = true := by decide
        rw [uri.unspaced ' ' (by decide)] at blank
        cases blank
  · obtain ⟨written, done, fits⟩ := @structuredDocument_fits plainRuntime "Note: I build looms".toList _ _
      (modelDump_wellKeyed (onePager_wellKeyed "Engineer".toList)) onePager_reloads
    refine ⟨written, done, fun filled accepted => ?_⟩
    have refused : generatedFits plainRuntime "Note: I build looms".toList (onePager "Engineer".toList) =
      false := by decide
    rw [fits.mp ⟨filled, accepted⟩] at refused
    cases refused

end ManifestCV.Document
