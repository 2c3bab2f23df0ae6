import ManifestCV.Foundation.JsonText

namespace ManifestCV.Foundation

def hexDigits (width n : Nat) : Str :=
  match width with
  | 0 => []
  | width + 1 => hexDigits width (n / 16) ++ [hexDigit n]

def reprChar (isPrintable : Char → Bool) (mark c : Char) : Str :=
  if c = mark ∨ c = '\\' then ['\\', c]
  else if c = '\n' then ['\\', 'n']
  else if c = '\r' then ['\\', 'r']
  else if c = '\t' then ['\\', 't']
  else if 0x20 ≤ c.toNat ∧ c.toNat < 0x7f then [c]
  else if 0x7f < c.toNat ∧ isPrintable c then [c]
  else if c.toNat < 0x100 then '\\' :: 'x' :: hexDigits 2 c.toNat
  else if c.toNat < 0x10000 then '\\' :: 'u' :: hexDigits 4 c.toNat
  else '\\' :: 'U' :: hexDigits 8 c.toNat

def reprStr (isPrintable : Char → Bool) (s : Str) : Str :=
  let mark := if s.contains '\'' && !s.contains '"' then '"' else '\''
  mark :: s.flatMap (reprChar isPrintable mark) ++ [mark]

namespace Json

mutual
/-- `repr` of a value of `json.loads`; `isPrintable` is `str.isprintable` beyond ASCII. -/
def repr (floats : FloatText) (isPrintable : Char → Bool) : Json → Str
  | .null => "None".toList
  | .bool true => "True".toList
  | .bool false => "False".toList
  | .int value => decimalInt value
  | .float value => floats.repr value
  | .str value => reprStr isPrintable value
  | .arr items => '[' :: joinWith ", ".toList (reprItems floats isPrintable items) ++ [']']
  | .obj fields => '{' :: joinWith ", ".toList (reprFields floats isPrintable fields) ++ ['}']

def reprItems (floats : FloatText) (isPrintable : Char → Bool) : List Json → List Str
  | [] => []
  | item :: items => repr floats isPrintable item :: reprItems floats isPrintable items

def reprFields (floats : FloatText) (isPrintable : Char → Bool) : List (Str × Json) → List Str
  | [] => []
  | (key, value) :: fields =>
    (reprStr isPrintable key ++ ": ".toList ++ repr floats isPrintable value) :: reprFields floats
      isPrintable fields
end

def toStr (floats : FloatText) (isPrintable : Char → Bool) : Json → Str
  | .str value => value
  | value => value.repr floats isPrintable

end Json

theorem joinWith_length (sep : Str) (texts : List Str) :
    (joinWith sep texts).length = (texts.map List.length).sum + (texts.length - 1) * sep.length := by
  induction texts with
  | nil => simp [joinWith]
  | cons text texts ih =>
    cases texts with
    | nil => simp [joinWith]
    | cons second rest =>
      have unfolded : joinWith sep (text :: second :: rest) = text ++ sep ++ joinWith sep (second :: rest) :=
        rfl
      rw [unfolded, List.length_append, List.length_append, ih]
      simp only [List.map_cons, List.sum_cons, List.length_cons, Nat.add_sub_cancel, Nat.succ_mul]
      omega

theorem joinWith_length_perm (sep : Str) {texts other : List Str} (perm : texts.Perm other) :
    (joinWith sep texts).length = (joinWith sep other).length := by
  rw [joinWith_length, joinWith_length, perm.length_eq, (perm.map List.length).sum_eq]

namespace Json

theorem reprItems_eq (floats : FloatText) (isPrintable : Char → Bool) (items : List Json) :
    reprItems floats isPrintable items = items.map (repr floats isPrintable) := by
  induction items with
  | nil => rfl
  | cons item items ih => simp [reprItems, ih]

theorem reprFields_eq (floats : FloatText) (isPrintable : Char → Bool) (fields : Dict) :
    reprFields floats isPrintable fields = fields.map fun field =>
      reprStr isPrintable field.1 ++ ": ".toList ++ repr floats isPrintable field.2 := by
  induction fields with
  | nil => rfl
  | cons field fields ih => simp [reprFields, ih]

mutual
theorem length_repr_normalize (floats : FloatText) (isPrintable : Char → Bool) : ∀ j : Json,
    (j.normalize.repr floats isPrintable).length = (j.repr floats isPrintable).length
  | .null => rfl
  | .bool _ => rfl
  | .int _ => rfl
  | .float _ => rfl
  | .str _ => rfl
  | .arr items => by
    have same := length_reprItems_normalize floats isPrintable items
    simp only [normalize, repr, List.length_append, List.length_cons, joinWith_length, same]
    have lengths := congrArg List.length same
    simp only [List.length_map] at lengths
    rw [lengths]
  | .obj fields => by
    have same := length_reprFields_normalize floats isPrintable fields
    have perm : (reprFields floats isPrintable (sortKeys (normalizeFields fields))).Perm
        (reprFields floats isPrintable (normalizeFields fields)) := by
      rw [reprFields_eq, reprFields_eq]
      exact (sortKeys_perm _).map _
    have lengths := congrArg List.length same
    simp only [List.length_map] at lengths
    simp only [normalize, repr, List.length_append, List.length_cons, joinWith_length_perm _ perm,
      joinWith_length, same, lengths]

theorem length_reprItems_normalize (floats : FloatText) (isPrintable : Char → Bool) : ∀ items : List Json,
    (reprItems floats isPrintable (normalizeItems items)).map List.length =
      (reprItems floats isPrintable items).map List.length
  | [] => rfl
  | item :: items => by
    simp only [normalizeItems, reprItems, List.map_cons, length_repr_normalize floats isPrintable item,
      length_reprItems_normalize floats isPrintable items]

theorem length_reprFields_normalize (floats : FloatText) (isPrintable : Char → Bool) : ∀ fields : Dict,
    (reprFields floats isPrintable (normalizeFields fields)).map List.length =
      (reprFields floats isPrintable fields).map List.length
  | [] => rfl
  | (key, value) :: fields => by
    simp only [normalizeFields, reprFields, List.map_cons, List.length_append,
      length_repr_normalize floats isPrintable value, length_reprFields_normalize floats isPrintable fields]
end

end Json

end ManifestCV.Foundation
