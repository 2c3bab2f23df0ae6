import ManifestCV.Document.Acceptance
import ManifestCV.Document.Headings

namespace ManifestCV.Document

open Foundation

inductive Leaf (text : Str) : Json → Prop where
  | str : Leaf text (.str text)
  | item {items : List Json} {item : Json} (member : item ∈ items) (inside : Leaf text item) : Leaf text
      (.arr items)
  | field {fields : Dict} {field : Str × Json} (member : field ∈ fields) (inside : Leaf text field.2) :
      Leaf text (.obj fields)

def browserUrl (text : Str) : Str :=
  (text.dropWhile fun c => c.toNat ≤ 0x20).filter fun c => c ≠ '\t' && c ≠ '\r' && c ≠ '\n'

def beforeColon (url : Str) : Str := url.takeWhile (· ≠ ':')

def hasScheme (url : Str) : Bool :=
  (url.dropWhile (· ≠ ':') ≠ []) && ((beforeColon url).head?.any Char.isAlpha) &&
    (beforeColon url).all isSchemeChar

def schemeOf (url : Str) : Option (Str × Str) :=
  if hasScheme url then some ((beforeColon url).map Char.toLower, url.drop ((beforeColon url).length + 1))
    else none

def hostname (netloc : Str) : Str :=
  let info := (netloc.reverse.takeWhile (· ≠ '@')).reverse
  if info.contains '[' then ((info.dropWhile (· ≠ '[')).drop 1).takeWhile (· ≠ ']') else
    info.takeWhile (· ≠ ':')

/-- What the filter is there for: no executable marker in any letter case, and no link but mailto, and http
    and https with a host. -/
structure Harmless (text : Str) : Prop where
  inert : ∀ part, part <:+: text → part.map Char.toLower ∉ executableMarkers
  link : ∀ scheme rest, schemeOf (browserUrl text) = some (scheme, rest) →
    scheme ∈ allowedUrlSchemes ∧ (scheme ≠ "mailto".toList → hostname (uriHost rest) ≠ [])

/-- Cleaning the string changes what stands before its colon: there is a control character or a space in
    front, or a tab or line break before the colon. -/
def Disguised (text : Str) : Prop := beforeColon text ≠ beforeColon (browserUrl text)

/-- A disguised link is one of the allowed kinds all the same, and a network location names a host. -/
structure Undisguised (text : Str) : Prop where
  plain : Disguised text → ∀ scheme rest, schemeOf (browserUrl text) = some (scheme, rest) →
    scheme ∈ allowedUrlSchemes ∧ (scheme ≠ "mailto".toList → uriHost rest ≠ [])
  hosted : ∀ scheme rest, schemeOf (browserUrl text) = some (scheme, rest) → scheme ≠ "mailto".toList →
    uriHost rest ≠ [] → hostname (uriHost rest) ≠ []

structure LowersAscii (rt : Runtime) : Prop where
  whole : ∀ text : Str, (∀ c ∈ text, c.toNat < 128) → rt.lower text = text.map Char.toLower
  part : ∀ before text after : Str, (∀ c ∈ text, c.toNat < 128) →
    text.map Char.toLower <:+: rt.lower (before ++ text ++ after)

section Leaves

variable {rt : Runtime}

theorem leaf_valid {value : Json} {text : Str} (leaf : Leaf text value) {depth : Nat}
    (accepted : validateContent rt depth value = .ok ()) : validateText rt text = .ok () := by
  induction leaf generalizing depth with
  | str =>
    rw [validateContent] at accepted
    split at accepted
    · cases accepted
    · exact accepted
  | item member _ ih =>
    rw [validateContent] at accepted
    split at accepted
    · cases accepted
    · split at accepted
      · cases accepted
      · exact ih ((validateItems_ok rt _ _).mp accepted _ member)
  | field member _ ih =>
    rw [validateContent] at accepted
    split at accepted
    · cases accepted
    · split at accepted
      · cases accepted
      · exact ih ((validateFields_ok rt _ _).mp accepted _ member)

theorem ascii_of_lower {c : Char} (low : c.toLower.toNat < 128) : c.toNat < 128 := by
  unfold Char.toLower at low
  split at low
  · rename_i upper
    have last := UInt32.le_iff_toNat_le.mp upper.2
    have number : c.toNat = c.val.toNat := rfl
    have upperZ : 'Z'.val.toNat = 90 := rfl
    omega
  · exact low

theorem toLower_ascii {c : Char} (ascii : c.toNat < 128) :
    c.toLower.toNat < 128 ∧ c.toLower.toLower = c.toLower := by
  have table : ∀ n : Fin 128, (Char.ofNat n).toLower.toNat < 128 ∧ (Char.ofNat n).toLower.toLower =
    (Char.ofNat n).toLower := by decide
  have both := table ⟨c.toNat, ascii⟩
  rwa [Char.ofNat_toNat] at both

theorem inert_of_unmarked (lowers : LowersAscii rt) {text : Str} (unmarked : hasMarker rt text = false) :
    ∀ part, part <:+: text → part.map Char.toLower ∉ executableMarkers := by
  intro part inside marker
  have letters : ∀ marker ∈ executableMarkers, ∀ c ∈ marker, c.toNat < 128 := by
    have checked : (executableMarkers.all fun marker => marker.all fun c => decide (c.toNat < 128)) = true :=
      by decide
    intro marker member c inside
    exact of_decide_eq_true (List.all_eq_true.mp (List.all_eq_true.mp checked marker member) c inside)
  have ascii : ∀ c ∈ part, c.toNat < 128 := by
    intro c member
    exact ascii_of_lower (letters _ marker _ (List.mem_map_of_mem member))
  obtain ⟨before, after, rfl⟩ := inside
  have found := lowers.part before part after ascii
  rw [hasMarker, List.any_eq_false] at unmarked
  exact unmarked _ marker (occursIn_iff.mpr found)

end Leaves

section Links

variable {rt : Runtime}

theorem hasScheme_iff {url : Str} : hasScheme url = true ↔
    ':' ∈ url ∧ (beforeColon url).head?.any Char.isAlpha = true ∧ ∀ c ∈ beforeColon url,
      isSchemeChar c = true := by
  have colon : url.dropWhile (· ≠ ':') ≠ [] ↔ ':' ∈ url := by
    rw [ne_eq, List.dropWhile_eq_nil_iff]
    simp
  rw [hasScheme, Bool.and_eq_true, Bool.and_eq_true, decide_eq_true_eq, colon, List.all_eq_true, and_assoc]

theorem schemeChar_ascii {c : Char} (letter : isSchemeChar c = true) : c.toNat < 128 := by
  have number : c.toNat = c.val.toNat := rfl
  have nine : '9'.val.toNat = 57 := rfl
  simp only [isSchemeChar, Char.isAlphanum, Char.isDigit, Bool.or_eq_true, Bool.and_eq_true,
    decide_eq_true_eq, ge_iff_le, UInt32.le_iff_toNat_le] at letter
  rcases letter with (((alpha | digit) | rfl) | rfl) | rfl
  · have ranges := alpha_ranges alpha
    omega
  · omega
  · decide
  · decide
  · decide

theorem urlparse_scheme (lowers : LowersAscii rt) {text scheme netloc : Str}
    (parsed : urlparse rt text = .ok (scheme, netloc)) :
    match schemeOf (browserUrl text) with
    | some (found, rest) => rt.lower scheme = found ∧ netloc = uriHost rest
    | none => scheme = [] := by
  have cleaned : ((text.dropWhile fun c => c.toNat ≤ 0x20).filter fun c => c ≠ '\t' && c ≠ '\r' && c ≠ '\n') =
    browserUrl text := rfl
  unfold urlparse at parsed
  dsimp only at parsed
  rw [cleaned] at parsed
  generalize browserUrl text = url at parsed ⊢
  have head : url.takeWhile (· ≠ ':') = beforeColon url := rfl
  have shape : ((url.dropWhile (· ≠ ':') ≠ []) && ((beforeColon url).head?.any Char.isAlpha) &&
    (beforeColon url).all isSchemeChar) =
    hasScheme url := rfl
  rw [head, shape] at parsed
  unfold schemeOf
  cases shaped : hasScheme url with
  | true =>
    simp only [shaped, if_true] at parsed ⊢
    split at parsed
    · cases parsed
    · cases parsed
      have letters : ∀ c ∈ beforeColon url, c.toNat < 128 := fun c member =>
        schemeChar_ascii ((hasScheme_iff.mp shaped).2.2 c member)
      have lowered : ∀ c ∈ (beforeColon url).map Char.toLower, c.toNat < 128 := by
        intro c member
        obtain ⟨letter, inside, rfl⟩ := List.mem_map.mp member
        exact (toLower_ascii (letters letter inside)).1
      refine ⟨?_, rfl⟩
      rw [lowers.whole _ letters, lowers.whole _ lowered, List.map_map]
      apply List.map_congr_left
      intro c member
      exact (toLower_ascii (letters c member)).2
  | false =>
    simp only [shaped, Bool.false_eq_true, if_false] at parsed ⊢
    split at parsed
    · cases parsed
    · cases parsed
      rfl

theorem pattern_of_plain {text scheme rest : Str} (begins : schemeOf (browserUrl text) = some (scheme, rest))
    (plain : ¬ Disguised text) : matchesUrlPattern text = true := by
  have shaped : hasScheme (browserUrl text) = true := by
    unfold schemeOf at begins
    split at begins
    · assumption
    · cases begins
  obtain ⟨colon, first, letters⟩ := hasScheme_iff.mp shaped
  have inside : ':' ∈ text := (List.dropWhile_sublist _).subset (List.mem_filter.mp colon).1
  obtain ⟨before, after, shape, absent⟩ := List.eq_append_cons_of_mem inside
  have head : beforeColon text = before := by
    have apart : ∀ c ∈ before, decide (c ≠ ':') = true := fun c member => decide_eq_true fun same =>
      absent (same ▸ member)
    rw [beforeColon, shape, List.takeWhile_append_of_pos apart, List.takeWhile_cons_of_neg (by decide),
      List.append_nil]
  rw [Disguised, not_not, head] at plain
  rw [← plain] at first letters
  rw [shape]
  cases before with
  | nil => cases first
  | cons c before =>
    have letter : c.isAlpha = true := first
    have urlChars : ∀ d ∈ before, isUrlChar d = true := by
      intro d member
      have known := letters d (List.mem_cons_of_mem _ member)
      simp only [isSchemeChar, Char.isAlphanum, Bool.or_eq_true, decide_eq_true_eq] at known
      simp only [isUrlChar, isUrlLetter, Bool.or_eq_true, decide_eq_true_eq]
      tauto
    have stops : (before ++ ':' :: after).dropWhile isUrlChar = ':' :: after := by
      rw [List.dropWhile_append_of_pos urlChars, List.dropWhile_cons_of_neg (by decide)]
    simp only [matchesUrlPattern, List.cons_append, stops, List.head?_cons, isUrlLetter, letter,
      Bool.true_or, decide_true, Bool.and_self]

end Links

/-- Accepted content is harmless in every string inside it just where no string is a disguised link of another
    kind and no network location lacks its host. -/
theorem link_filter_iff {rt : Runtime} (lowers : LowersAscii rt) {value : Json}
    (accepted : validateContent rt 0 value = .ok ()) :
    (∀ text, Leaf text value → Harmless text) ↔ ∀ text, Leaf text value → Undisguised text := by
  constructor
  · intro harmless text leaf
    have link := (harmless text leaf).link
    refine ⟨fun _ scheme rest begins => ⟨(link scheme rest begins).1, fun other empty => ?_⟩,
        fun scheme rest begins other _ =>
      (link scheme rest begins).2 other⟩
    apply (link scheme rest begins).2 other
    rw [empty]
    rfl
  · intro undisguised text leaf
    obtain ⟨unmarked, linked⟩ := validateText_ok.mp (leaf_valid leaf accepted)
    refine ⟨inert_of_unmarked lowers unmarked, ?_⟩
    intro scheme rest begins
    have allowed : scheme ∈ allowedUrlSchemes ∧ (scheme ≠ "mailto".toList → uriHost rest ≠ []) := by
      by_cases disguised : Disguised text
      · exact (undisguised text leaf).plain disguised scheme rest begins
      · obtain ⟨found, netloc, parsed, member, hosted⟩ := linked (pattern_of_plain begins disguised)
        have same := urlparse_scheme lowers parsed
        rw [begins] at same
        obtain ⟨rfl, rfl⟩ := same
        exact ⟨member, fun other => hosted.resolve_left other⟩
    refine ⟨allowed.1, fun other => ?_⟩
    exact (undisguised text leaf).hosted scheme rest begins other (allowed.2 other)

theorem plainRuntime_lowers : LowersAscii plainRuntime := by
  constructor
  · intro text _
    rfl
  · intro before text after _
    exact ⟨before.map Char.toLower, after.map Char.toLower, by simp [plainRuntime]⟩

def linked (url : Str) : Json := .obj [("url".toList, .str url)]

theorem leaf_linked {url text : Str} (leaf : Leaf text (linked url)) : text = url := by
  cases leaf with
  | field member inside =>
    rw [List.mem_singleton.mp member] at inside
    cases inside
    rfl

theorem link_filter_iff_https :
    validateContent plainRuntime 0 (linked "https://example.com".toList) = .ok () ∧
    ∀ text, Leaf text (linked "https://example.com".toList) → Harmless text := by
  have accepted : validateContent plainRuntime 0 (linked "https://example.com".toList) = .ok () := by decide
  apply And.intro accepted
  apply (link_filter_iff plainRuntime_lowers accepted).mpr
  intro text leaf
  rw [leaf_linked leaf]
  have plain : beforeColon "https://example.com".toList =
    beforeColon (browserUrl "https://example.com".toList) := by decide
  have begins : schemeOf (browserUrl "https://example.com".toList) =
    some ("https".toList, "//example.com".toList) := by decide
  constructor
  · intro disguised
    exact absurd plain disguised
  · intro scheme rest found _ _
    rw [begins] at found
    cases found
    decide

/-- With a space in front, the pattern does not see the scheme that a browser follows. -/
theorem spaced_javascript_link : ¬ ∀ rt, LowersAscii rt → ∀ value, validateContent rt 0 value = .ok () →
    ∀ text, Leaf text value → Harmless text := by
  intro claim
  have harmless := claim plainRuntime plainRuntime_lowers (linked " javascript:alert(1)".toList) (by decide)
    " javascript:alert(1)".toList (.field List.mem_cons_self .str)
  have begins : schemeOf (browserUrl " javascript:alert(1)".toList) =
    some ("javascript".toList, "alert(1)".toList) := by decide
  exact absurd (harmless.link _ _ begins).1 (by decide)

end ManifestCV.Document
