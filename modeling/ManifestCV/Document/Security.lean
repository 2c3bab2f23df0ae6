import ManifestCV.Foundation.Repr

namespace ManifestCV.Document

open Foundation

/-- What the code takes from its libraries: the text of floats, the Unicode tables behind `str.lower`
    and `str.isprintable`, `textwrap.wrap`, the ValueError `urlsplit` raises for a host,
    and the conversions pydantic makes to `bool` and `float` in lax mode. -/
structure Runtime where
  floats : FloatText
  lower : Str → Str
  isPrintable : Char → Bool
  wrap : Str → Nat → List Str
  netlocError : Str → Option Str
  laxBool : Json → Option Bool
  laxFloat : Json → Option Double
  laxBool_bool : ∀ b, laxBool (.bool b) = some b
  laxFloat_float : ∀ x, laxFloat (.float x) = some x
  laxBool_scalar : ∀ j b, laxBool j = some b → j.isScalar = true
  laxFloat_scalar : ∀ j x, laxFloat j = some x → j.isScalar = true

def maxDepth : Nat := 8

def maxItems : Nat := 200

def executableMarkers : List Str :=
  ["<script".toList, "data:text/html".toList, "onerror=".toList, "onload=".toList]

def allowedUrlSchemes : List Str := ["http".toList, "https".toList, "mailto".toList]

/-- `[a-z]` under `re.IGNORECASE`, which also matches four letters outside ASCII. -/
def isUrlLetter (c : Char) : Bool :=
  c.isAlpha || c = '\u0130' || c = '\u0131' || c = '\u017f' || c = '\u212a'

def isUrlChar (c : Char) : Bool := isUrlLetter c || c.isDigit || c = '+' || c = '.' || c = '-'

def matchesUrlPattern (s : Str) : Bool :=
  match s with
  | c :: rest => isUrlLetter c && (rest.dropWhile isUrlChar).head? = some ':'
  | [] => false

def isSchemeChar (c : Char) : Bool := c.isAlphanum || c = '+' || c = '-' || c = '.'

/-- The scheme and host of `urlparse`. -/
def urlparse (rt : Runtime) (value : Str) : Except Str (Str × Str) :=
  let url := (value.dropWhile fun c => c.toNat ≤ 0x20).filter fun c => c ≠ '\t' && c ≠ '\r' && c ≠ '\n'
  let head := url.takeWhile (· ≠ ':')
  let hasScheme := (url.dropWhile (· ≠ ':') ≠ []) && (head.head?.any Char.isAlpha) && head.all isSchemeChar
  let scheme := if hasScheme then rt.lower head else []
  let rest := if hasScheme then url.drop (head.length + 1) else url
  let netloc := if "//".toList.isPrefixOf rest then
      (rest.drop 2).takeWhile fun c => c ≠ '/' && c ≠ '?' && c ≠ '#'
    else []
  match rt.netlocError netloc with
  | some message => .error message
  | none => .ok (scheme, netloc)

/-- The string case of `validate_content`; the error is the ValueError's text. -/
def validateText (rt : Runtime) (value : Str) : Except Str Unit :=
  let lowered := rt.lower value
  if executableMarkers.any (occursIn · lowered) then .error "unsupported executable content".toList
  else if matchesUrlPattern value then
    match urlparse rt value with
    | .error message => .error message
    | .ok (scheme, netloc) =>
      let scheme := rt.lower scheme
      if !allowedUrlSchemes.contains scheme || (scheme ≠ "mailto".toList && netloc.isEmpty) then
        .error "unsupported URL".toList
      else .ok ()
  else .ok ()

mutual
def validateContent (rt : Runtime) (depth : Nat) (value : Json) : Except Str Unit :=
  if maxDepth < depth then .error "content is too deeply nested".toList
  else
    match value with
    | .str text => validateText rt text
    | .obj fields =>
      if maxItems < fields.length then .error "content has too many fields".toList
      else validateFields rt (depth + 1) fields
    | .arr items =>
      if maxItems < items.length then .error "content has too many items".toList
      else validateItems rt (depth + 1) items
    | _ => .ok ()

def validateItems (rt : Runtime) (depth : Nat) : List Json → Except Str Unit
  | [] => .ok ()
  | item :: items =>
    match validateContent rt depth item with
    | .error message => .error message
    | .ok () => validateItems rt depth items

def validateFields (rt : Runtime) (depth : Nat) : List (Str × Json) → Except Str Unit
  | [] => .ok ()
  | (_, value) :: fields =>
    match validateContent rt depth value with
    | .error message => .error message
    | .ok () => validateFields rt depth fields
end

theorem validateItems_ok (rt : Runtime) (depth : Nat) (items : List Json) :
    validateItems rt depth items = .ok () ↔ ∀ item ∈ items, validateContent rt depth item = .ok () := by
  induction items with
  | nil => simp [validateItems]
  | cons item items ih =>
    rw [validateItems]
    cases first : validateContent rt depth item with
    | error message => simp [first]
    | ok => simp [first, ih]

theorem validateFields_ok (rt : Runtime) (depth : Nat) (fields : Dict) :
    validateFields rt depth fields = .ok () ↔ ∀ field ∈ fields, validateContent rt depth field.2 =
      .ok () := by
  induction fields with
  | nil => simp [validateFields]
  | cons field fields ih =>
    rw [validateFields]
    cases first : validateContent rt depth field.2 with
    | error message => simp [first]
    | ok => simp [first, ih]

mutual
theorem validateContent_normalize (rt : Runtime) : ∀ (value : Json) (depth : Nat),
    validateContent rt depth value = .ok () → validateContent rt depth value.normalize = .ok ()
  | .null, _, accepted => accepted
  | .bool _, _, accepted => accepted
  | .int _, _, accepted => accepted
  | .float _, _, accepted => accepted
  | .str _, _, accepted => accepted
  | .arr items, depth, accepted => by
    simp only [Json.normalize, validateContent, Json.normalizeItems_eq, List.length_map] at accepted ⊢
    split at accepted
    · cases accepted
    · rename_i shallow
      split at accepted
      · cases accepted
      · rename_i few
        rw [if_neg shallow, if_neg few, validateItems_ok]
        intro item member
        obtain ⟨original, inside, rfl⟩ := List.mem_map.mp member
        exact validateItems_normalize rt items (depth + 1) accepted original inside
  | .obj fields, depth, accepted => by
    simp only [Json.normalize, validateContent, sortKeys_length, Json.normalizeFields_eq,
      List.length_map] at accepted ⊢
    split at accepted
    · cases accepted
    · rename_i shallow
      split at accepted
      · cases accepted
      · rename_i few
        rw [if_neg shallow, if_neg few, validateFields_ok]
        intro field member
        obtain ⟨original, inside, rfl⟩ := List.mem_map.mp (mem_sortKeys.mp member)
        exact validateFields_normalize rt fields (depth + 1) accepted original inside

theorem validateItems_normalize (rt : Runtime) : ∀ (items : List Json) (depth : Nat),
    validateItems rt depth items = .ok () →
    ∀ item ∈ items, validateContent rt depth item.normalize = .ok ()
  | [], _, _ => fun _ member => nomatch member
  | item :: items, depth, accepted => by
    rw [validateItems_ok] at accepted
    intro other member
    rcases List.mem_cons.mp member with same | member
    · rw [same]
      exact validateContent_normalize rt item depth (accepted item List.mem_cons_self)
    · refine validateItems_normalize rt items depth ?_ other member
      exact (validateItems_ok _ _ _).mpr fun item inside => accepted item (List.mem_cons_of_mem _ inside)

theorem validateFields_normalize (rt : Runtime) : ∀ (fields : Dict) (depth : Nat),
    validateFields rt depth fields = .ok () →
    ∀ field ∈ fields, validateContent rt depth field.2.normalize = .ok ()
  | [], _, _ => fun _ member => nomatch member
  | (key, value) :: fields, depth, accepted => by
    rw [validateFields_ok] at accepted
    intro other member
    rcases List.mem_cons.mp member with same | member
    · rw [same]
      exact validateContent_normalize rt value depth (accepted (key, value) List.mem_cons_self)
    · refine validateFields_normalize rt fields depth ?_ other member
      exact (validateFields_ok _ _ _).mpr fun field inside => accepted field (List.mem_cons_of_mem _ inside)
end

end ManifestCV.Document
