import Mathlib.Data.List.TakeWhile
import ManifestCV.Foundation.JsonText

namespace ManifestCV.Foundation

theorem hexValue_hexDigit (n : Nat) : hexValue (hexDigit n) = some (n % 16) := by
  have bound : n % 16 < 16 := Nat.mod_lt _ (by omega)
  unfold hexDigit
  generalize n % 16 = d at bound
  interval_cases d <;> rfl

theorem readHex4_hex4 {n : Nat} (bound : n < 65536) (rest : Str) :
    readHex4 (hex4 n ++ rest) = some (n, rest) := by
  have value : 4096 * (n / 4096 % 16) + 256 * (n / 256 % 16) + 16 * (n / 16 % 16) + n % 16 = n := by omega
  simp [hex4, readHex4, hexValue_hexDigit, value]

theorem scalar_toNat (c : Char) : scalar c.toNat = some c := by
  have valid : c.toNat.isValidChar := c.valid
  simp [scalar, valid]

theorem readUnicode_basic {c : Char} (basic : c.toNat < 0x10000) (rest : Str) :
    readUnicode (hex4 c.toNat ++ rest) = some (c, rest) := by
  have valid : c.toNat < 0xd800 ∨ 0xdfff < c.toNat ∧ c.toNat < 0x110000 := c.valid
  have notHigh : isHighSurrogate c.toNat = false := by
    simp only [isHighSurrogate, Bool.and_eq_false_iff, decide_eq_false_iff_not]
    omega
  simp [readUnicode, readHex4_hex4 basic, notHigh, scalar_toNat]

theorem readUnicode_surrogates {high low : Nat} (isHigh : isHighSurrogate high = true)
    (isLow : isLowSurrogate low = true) (rest : Str) :
    readUnicode (hex4 high ++ (unicodeEscape low ++ rest)) =
      (scalar (0x10000 + (high - 0xd800) * 0x400 + (low - 0xdc00))).map fun c => (c, rest) := by
  have highBound : high < 65536 := by
    simp only [isHighSurrogate, Bool.and_eq_true, decide_eq_true_eq] at isHigh
    omega
  have lowBound : low < 65536 := by
    simp only [isLowSurrogate, Bool.and_eq_true, decide_eq_true_eq] at isLow
    omega
  simp only [readUnicode, readHex4_hex4 highBound, Option.bind_eq_bind, Option.bind_some, isHigh, ↓reduceIte,
    unicodeEscape, List.cons_append, readHex4_hex4 lowBound, isLow]
  cases scalar (0x10000 + (high - 0xd800) * 0x400 + (low - 0xdc00)) <;> rfl

theorem surrogates_join (n : Nat) (low : 0x10000 ≤ n) (high : n < 0x110000) :
    isHighSurrogate (0xd800 + (n - 0x10000) / 0x400) = true ∧
      isLowSurrogate (0xdc00 + (n - 0x10000) % 0x400) = true ∧
      0x10000 + (0xd800 + (n - 0x10000) / 0x400 - 0xd800) * 0x400 +
        (0xdc00 + (n - 0x10000) % 0x400 - 0xdc00) = n := by
  simp only [isHighSurrogate, isLowSurrogate, Bool.and_eq_true, decide_eq_true_eq]
  omega

theorem readUnicode_pair {c : Char} (astral : 0x10000 ≤ c.toNat) (rest : Str) :
    readUnicode (hex4 (0xd800 + (c.toNat - 0x10000) / 0x400) ++
      (unicodeEscape (0xdc00 + (c.toNat - 0x10000) % 0x400) ++ rest)) = some (c, rest) := by
  have valid : c.toNat < 0xd800 ∨ 0xdfff < c.toNat ∧ c.toNat < 0x110000 := c.valid
  obtain ⟨high, low, joined⟩ := surrogates_join c.toNat astral (by omega)
  rw [readUnicode_surrogates high low, joined, scalar_toNat]
  rfl

theorem readString_escapeChar (fuel : Nat) (c : Char) (rest : Str) :
    readString (fuel + 1) (escapeChar c ++ rest) =
      (readString fuel rest).map fun read => (c :: read.1, read.2) := by
  have other : ∀ text rest, readUnicode (text ++ rest) = some (c, rest) →
      readString (fuel + 1) ('\\' :: 'u' :: (text ++ rest)) =
        (readString fuel rest).map fun read => (c :: read.1, read.2) := by
    intro text rest read
    simp only [readString, Char.reduceEq, ↓reduceIte, read, Option.bind_eq_bind, Option.bind_some]
    cases readString fuel rest <;> rfl
  have simple : ∀ escape, escape ≠ 'u' → simpleEscape escape = some c →
      readString (fuel + 1) ('\\' :: escape :: rest) =
        (readString fuel rest).map fun read => (c :: read.1, read.2) := by
    intro escape notUnicode known
    simp only [readString, Char.reduceEq, ↓reduceIte, known, Option.bind_eq_bind,
      Option.bind_some]
    cases readString fuel rest <;> rfl
  unfold escapeChar
  split
  · subst c; exact simple '"' (by decide) rfl
  split
  · subst c; exact simple '\\' (by decide) rfl
  split
  · subst c; exact simple 'n' (by decide) rfl
  split
  · subst c; exact simple 'r' (by decide) rfl
  split
  · subst c; exact simple 't' (by decide) rfl
  split
  · subst c; exact simple 'f' (by decide) rfl
  split
  · subst c; exact simple 'b' (by decide) rfl
  rename_i notQuote notBackslash _ _ _ _ _
  split
  · rename_i printable
    have notControl : ¬ c.toNat < 0x20 := by omega
    simp only [List.cons_append, List.nil_append, readString, notQuote, notBackslash, notControl, ↓reduceIte]
    cases readString fuel rest <;> rfl
  split
  · rename_i basic
    exact other (hex4 c.toNat) rest (readUnicode_basic basic rest)
  · rename_i astral
    have first : ∀ n, unicodeEscape n = '\\' :: 'u' :: hex4 n := fun _ => rfl
    rw [List.append_assoc, first (0xd800 + _), List.cons_append, List.cons_append]
    simp only [readString, Char.reduceEq, ↓reduceIte, readUnicode_pair (Nat.le_of_not_lt astral),
      Option.bind_eq_bind, Option.bind_some]
    cases readString fuel rest <;> rfl

theorem readString_escaped (s rest : Str) (fuel : Nat) (enough : s.length < fuel) :
    readString fuel (s.flatMap escapeChar ++ '"' :: rest) = some (s, rest) := by
  induction s generalizing fuel with
  | nil =>
    obtain ⟨fuel, rfl⟩ := Nat.exists_eq_succ_of_ne_zero (Nat.ne_of_gt enough)
    simp [readString]
  | cons c s ih =>
    obtain ⟨fuel, rfl⟩ :=
      Nat.exists_eq_succ_of_ne_zero (Nat.ne_of_gt (Nat.lt_of_le_of_lt (Nat.zero_le _) enough))
    simp only [List.length_cons] at enough
    rw [List.flatMap_cons, List.append_assoc, Nat.succ_eq_add_one, readString_escapeChar, ih fuel (by omega)]
    rfl

theorem length_le_escaped (s : Str) : s.length ≤ (s.flatMap escapeChar).length := by
  induction s with
  | nil => simp
  | cons c s ih =>
    have one : 1 ≤ (escapeChar c).length := by
      unfold escapeChar unicodeEscape
      repeat' split
      all_goals simp
    rw [List.flatMap_cons, List.length_append, List.length_cons]
    omega

theorem readString_quoted (s rest : Str) :
    readString ((s.flatMap escapeChar ++ '"' :: rest).length + 1) (s.flatMap escapeChar ++ '"' :: rest) =
      some (s, rest) := by
  have long := length_le_escaped s
  apply readString_escaped
  simp only [List.length_append, List.length_cons]
  omega

def EndsNumber (rest : Str) : Prop := ∀ c, rest.head? = some c → isNumberChar c = false

theorem endsNumber_cons {c : Char} {rest : Str} (stop : isNumberChar c = false) : EndsNumber (c :: rest) := by
  intro d head
  cases head
  exact stop

theorem takeWhile_token {token rest : Str} (chars : ∀ c ∈ token, isNumberChar c = true)
    (stop : EndsNumber rest) :
    (token ++ rest).takeWhile isNumberChar = token ∧ (token ++ rest).dropWhile isNumberChar = rest := by
  induction token with
  | nil =>
    cases rest with
    | nil => simp
    | cons c rest =>
      have no := stop c rfl
      simp [no]
  | cons c token ih =>
    have yes := chars c List.mem_cons_self
    obtain ⟨taken, dropped⟩ := ih fun d member => chars d (List.mem_cons_of_mem _ member)
    simp [yes, taken, dropped]

theorem decimal_digits (n : Nat) : ∀ c ∈ decimal n, c.isDigit = true :=
  fun _ member => Nat.isDigit_of_mem_toDigits (by omega) (by omega) member

theorem decimal_ne_nil (n : Nat) : decimal n ≠ [] := Nat.toDigits_ne_nil

theorem decimal_of_ten_le {n : Nat} (large : 10 ≤ n) :
    decimal n = decimal (n / 10) ++ [Nat.digitChar (n % 10)] := by
  have split : Nat.toDigits 10 (n / 10) ++ Nat.toDigits 10 (n % 10) = Nat.toDigits 10
      (10 * (n / 10) + n % 10) :=
    Nat.toDigits_append_toDigits (by omega) (by omega) (by omega)
  have whole : 10 * (n / 10) + n % 10 = n := by omega
  rw [whole, Nat.toDigits_of_lt_base (Nat.mod_lt _ (by omega))] at split
  exact split.symm

theorem decimal_head (n : Nat) (positive : 0 < n) : (decimal n).head? ≠ some '0' := by
  induction n using Nat.strong_induction_on with
  | _ n ih =>
    by_cases small : n < 10
    · rw [decimal, Nat.toDigits_of_lt_base small]
      interval_cases n <;> decide
    · rw [decimal_of_ten_le (Nat.le_of_not_lt small), List.head?_append]
      have smaller := ih (n / 10) (by omega) (by omega)
      cases head : (decimal (n / 10)).head? with
      | none => exact absurd (List.head?_eq_none_iff.mp head) (decimal_ne_nil _)
      | some c => simpa [head] using smaller

theorem isIntDigits_decimal (n : Nat) : isIntDigits (decimal n) = true := by
  by_cases zero : n = 0
  · subst n; decide
  · have digits : (decimal n).all Char.isDigit = true := List.all_eq_true.mpr (decimal_digits n)
    have head := decimal_head n (Nat.pos_of_ne_zero zero)
    simp [isIntDigits, digits, head, decimal_ne_nil]

theorem readInt_decimalInt (n : Int) : isIntToken (decimalInt n) = true ∧ readInt (decimalInt n) = n := by
  have plain : ∀ m : Nat, isIntToken (decimal m) = true ∧ readInt (decimal m) = m := by
    intro m
    have value : Nat.ofDigitChars 10 (decimal m) 0 = m := Nat.ofDigitChars_ten_toDigits
    have digits := isIntDigits_decimal m
    cases text : decimal m with
    | nil => exact absurd text (decimal_ne_nil m)
    | cons c rest =>
      have digit : c.isDigit = true := decimal_digits m c (by rw [text]; exact List.mem_cons_self)
      have notSign : c ≠ '-' := by rintro rfl; exact absurd digit (by decide)
      rw [text] at value digits
      constructor
      · simpa [isIntToken, notSign] using digits
      · simpa [readInt, notSign] using value
  cases n with
  | ofNat m => exact plain m
  | negSucc m =>
    have value : Nat.ofDigitChars 10 (decimal (m + 1)) 0 = m + 1 := Nat.ofDigitChars_ten_toDigits
    refine ⟨by simpa [decimalInt, isIntToken] using isIntDigits_decimal (m + 1), ?_⟩
    simp only [decimalInt, readInt, value]
    omega

theorem digit_isNumberChar {c : Char} (digit : c.isDigit = true) : isNumberChar c = true := by
  simp [isNumberChar, digit]

theorem decimalInt_chars (n : Int) : ∀ c ∈ decimalInt n, isNumberChar c = true := by
  cases n with
  | ofNat m => exact fun c member => digit_isNumberChar (decimal_digits m c member)
  | negSucc m =>
    intro c member
    rcases List.mem_cons.mp member with rfl | member
    · decide
    · exact digit_isNumberChar (decimal_digits (m + 1) c member)

theorem readNumber_int (floats : FloatText) (n : Int) {rest : Str} (stop : EndsNumber rest) :
    readNumber floats (decimalInt n ++ rest) = some (.int n, rest) := by
  obtain ⟨taken, dropped⟩ := takeWhile_token (decimalInt_chars n) stop
  obtain ⟨token, value⟩ := readInt_decimalInt n
  simp [readNumber, taken, dropped, token, value]

theorem isIntDigits_chars {token : Str} (digits : isIntDigits token = true) :
    ∀ c ∈ token, c.isDigit = true := by
  simp only [isIntDigits, Bool.or_eq_true, decide_eq_true_eq, Bool.and_eq_true, List.all_eq_true] at digits
  rcases digits with rfl | digits
  · exact List.all_iff_forall_prop.mp (by decide)
  · exact digits.1.2

theorem isFloatToken_not_int {token : Str} (float : isFloatToken token = true) :
    isIntToken token = false := by
  by_contra int
  rw [Bool.not_eq_false] at int
  have plain : ∀ c ∈ token, (c ≠ '.' && c ≠ 'e' && c ≠ 'E') = true := by
    have digit : ∀ c : Char, c.isDigit = true → (c ≠ '.' && c ≠ 'e' && c ≠ 'E') = true := by
      intro c digit
      simp only [Bool.and_eq_true, decide_eq_true_eq]
      refine ⟨⟨?_, ?_⟩, ?_⟩ <;> rintro rfl <;> exact absurd digit (by decide)
    unfold isIntToken at int
    split at int
    · intro c member
      rcases List.mem_cons.mp member with rfl | member
      · decide
      · exact digit c (isIntDigits_chars int c member)
    · exact fun c member => digit c (isIntDigits_chars int c member)
  have nothing : token.dropWhile (fun c => c ≠ '.' && c ≠ 'e' && c ≠ 'E') = [] :=
    List.dropWhile_eq_nil_iff.mpr plain
  simp only [isFloatToken, nothing] at float
  simp at float

theorem readNumber_float (floats : FloatText) (x : Double) {rest : Str} (stop : EndsNumber rest) :
    readNumber floats (floats.repr x ++ rest) = some (.float x, rest) := by
  obtain ⟨taken, dropped⟩ := takeWhile_token (floats.repr_chars x) stop
  have float := floats.repr_token x
  simp [readNumber, taken, dropped, float, isFloatToken_not_int float, floats.parse_repr]

theorem foldl_dictInsert (fields dict : Dict) (distinct : ((dict ++ fields).map Prod.fst).Nodup) :
    fields.foldl (fun dict field => dictInsert dict field.1 field.2) dict = dict ++ fields := by
  induction fields generalizing dict with
  | nil => simp
  | cons field fields ih =>
    obtain ⟨key, value⟩ := field
    have absent : dict.any (·.1 = key) = false := by
      simp only [List.map_append, List.map_cons, List.nodup_append, List.mem_map, List.mem_cons] at distinct
      simp only [List.any_eq_false, decide_eq_true_eq]
      intro other member same
      exact distinct.2.2 other.1 ⟨other, member, rfl⟩ key (Or.inl rfl) same
    have appended : dictInsert dict key value = dict ++ [(key, value)] := by simp [dictInsert, absent]
    rw [List.foldl_cons, appended, ih]
    · simp
    · simpa using distinct

theorem dictOf_distinct {fields : Dict} (distinct : (fields.map Prod.fst).Nodup) :
    dictOf fields = fields := by
  simpa [dictOf] using foldl_dictInsert fields [] (by simpa using distinct)

theorem numberChar_not_markup {c : Char} (number : isNumberChar c = true) :
    isJsonSpace c = false ∧ c ≠ '"' ∧ c ≠ '[' ∧ c ≠ ']' ∧ c ≠ '{' ∧ c ≠ '}' ∧ c ≠ 'n' ∧
      c ≠ 't' ∧ c ≠ 'f' := by
  refine ⟨?_, ?_, ?_, ?_, ?_, ?_, ?_, ?_, ?_⟩
  · by_contra space
    simp only [isJsonSpace, Bool.not_eq_false, Bool.or_eq_true, decide_eq_true_eq] at space
    rcases space with ((rfl | rfl) | rfl) | rfl <;> exact absurd number (by decide)
  all_goals rintro rfl; exact absurd number (by decide)

theorem repr_cons (floats : FloatText) (x : Double) : ∃ c rest, floats.repr x = c :: rest := by
  cases text : floats.repr x with
  | nil =>
    have token := floats.repr_token x
    rw [text] at token
    exact absurd token (by decide)
  | cons c rest => exact ⟨c, rest, rfl⟩

theorem decimalInt_cons (n : Int) : ∃ c rest, decimalInt n = c :: rest := by
  cases n with
  | ofNat m =>
    cases text : decimal m with
    | nil => exact absurd text (decimal_ne_nil m)
    | cons c rest => exact ⟨c, rest, text⟩
  | negSucc m => exact ⟨'-', _, rfl⟩

namespace Json

/-- A written value starts with a character that neither white space nor a closing bracket is. -/
theorem write_cons (floats : FloatText) (j : Json) :
    ∃ c rest, j.write floats = c :: rest ∧ isJsonSpace c = false ∧ c ≠ ']' := by
  cases j with
  | null => exact ⟨'n', _, rfl, by decide, by decide⟩
  | bool value => cases value <;> exact ⟨_, _, rfl, by decide, by decide⟩
  | int value =>
    obtain ⟨c, rest, text⟩ := decimalInt_cons value
    have plain := numberChar_not_markup (decimalInt_chars value c (by rw [text]; exact List.mem_cons_self))
    exact ⟨c, rest, by rw [write, text], plain.1, plain.2.2.2.1⟩
  | float value =>
    obtain ⟨c, rest, text⟩ := repr_cons floats value
    have plain := numberChar_not_markup (floats.repr_chars value c (by rw [text]; exact List.mem_cons_self))
    exact ⟨c, rest, by rw [write, text], plain.1, plain.2.2.2.1⟩
  | str value => exact ⟨'"', _, rfl, by decide, by decide⟩
  | arr items => exact ⟨'[', _, rfl, by decide, by decide⟩
  | obj fields => exact ⟨'{', _, rfl, by decide, by decide⟩

end Json

theorem skipSpace_cons {c : Char} (rest : Str) (plain : isJsonSpace c = false) :
    skipSpace (c :: rest) = c :: rest := by
  simp [skipSpace, plain]

theorem skipSpace_write (floats : FloatText) (j : Json) (rest : Str) :
    skipSpace (j.write floats ++ rest) = j.write floats ++ rest := by
  obtain ⟨c, text, written, plain, _⟩ := j.write_cons floats
  rw [written, List.cons_append, skipSpace_cons _ plain]

theorem readValue_number (floats : FloatText) (fuel : Nat) {c : Char} (rest : Str)
    (number : isNumberChar c = true) :
    readValue floats (fuel + 1) (c :: rest) = readNumber floats (c :: rest) := by
  obtain ⟨space, quote, open1, _, open2, _, n, t, f⟩ := numberChar_not_markup number
  simp only [readValue, skipSpace_cons _ space, quote, open1, open2, n, t, f, ↓reduceIte]

theorem length_write_pos (floats : FloatText) (j : Json) : 0 < (j.write floats).length := by
  obtain ⟨c, text, written, _⟩ := j.write_cons floats
  rw [written]
  exact Nat.succ_pos _

/-- What follows an item of a written array or object: a comma or the closing bracket. -/
theorem tail_ends (texts : List Str) (close : Char) (rest : Str) (stop : isNumberChar close = false) :
    EndsNumber (texts.flatMap ([','] ++ ·) ++ close :: rest) := by
  cases texts with
  | nil => exact endsNumber_cons stop
  | cons text texts => exact endsNumber_cons (by decide)

mutual
/-- Reading inverts writing, whatever stands after the value, once the fuel covers its length. -/
theorem readValue_write (floats : FloatText) : ∀ (j : Json) (fuel : Nat) (rest : Str), j.WellKeyed →
    (j.write floats).length ≤ fuel → EndsNumber rest →
    readValue floats fuel (j.write floats ++ rest) = some (j, rest)
  | j, 0, _, _, enough, _ => absurd enough (Nat.not_le.mpr (length_write_pos floats j))
  | .null, fuel + 1, rest, _, _, _ => by
    simp [Json.write, readValue, skipSpace, isJsonSpace, readKeyword]
  | .bool true, fuel + 1, rest, _, _, _ => by
    simp [Json.write, readValue, skipSpace, isJsonSpace, readKeyword]
  | .bool false, fuel + 1, rest, _, _, _ => by
    simp [Json.write, readValue, skipSpace, isJsonSpace, readKeyword]
  | .int value, fuel + 1, rest, _, _, stop => by
    obtain ⟨c, text, shape⟩ := decimalInt_cons value
    have number := decimalInt_chars value c (by rw [shape]; exact List.mem_cons_self)
    have read := readNumber_int floats value stop
    rw [shape] at read
    rw [Json.write, shape, List.cons_append, readValue_number floats fuel _ number]
    exact read
  | .float value, fuel + 1, rest, _, _, stop => by
    obtain ⟨c, text, shape⟩ := repr_cons floats value
    have number := floats.repr_chars value c (by rw [shape]; exact List.mem_cons_self)
    have read := readNumber_float floats value stop
    rw [shape] at read
    rw [Json.write, shape, List.cons_append, readValue_number floats fuel _ number]
    exact read
  | .str value, fuel + 1, rest, _, _, _ => by
    have plain : isJsonSpace '"' = false := by decide
    simp only [Json.write, quote, List.cons_append, List.append_assoc, List.nil_append, readValue,
      skipSpace_cons _ plain, ↓reduceIte, readString_quoted, Option.map_some]
  | .arr [], fuel + 1, rest, _, _, _ => by
    simp [Json.write, Json.writeItems, joinWith, readValue, skipSpace, isJsonSpace]
  | .arr (item :: items), fuel + 1, rest, keyed, enough, _ => by
    simp only [Json.WellKeyed, Json.WellKeyedItems] at keyed
    simp only [Json.write, Json.writeItems, joinWith_cons, List.length_cons, List.length_append,
      List.length_nil] at enough
    have plain : isJsonSpace '[' = false := by decide
    have first := readValue_write floats item fuel
      ((Json.writeItems floats items).flatMap ([','] ++ ·) ++ ']' :: rest) keyed.1 (by omega)
      (tail_ends _ _ _ (by decide))
    have others := readItems_write floats items fuel rest keyed.2 (by omega)
    obtain ⟨c, text, written, _, notClosed⟩ := item.write_cons floats
    have opened : (item.write floats ++ ((Json.writeItems floats items).flatMap ([','] ++ ·) ++
      ']' :: rest)).head? ≠
        some ']' := by simp [written, notClosed]
    simp only [Json.write, Json.writeItems, joinWith_cons, List.cons_append, List.append_assoc,
      List.nil_append, readValue, skipSpace_cons _ plain, Char.reduceEq, ↓reduceIte, skipSpace_write]
    simp only [List.cons_append, List.nil_append] at first others opened
    simp only [opened, ↓reduceIte, first, others, Option.bind_eq_bind, Option.bind_some]
  | .obj [], fuel + 1, rest, _, _, _ => by
    simp [Json.write, Json.writeFields, joinWith, readValue, skipSpace, isJsonSpace]
  | .obj (field :: fields), fuel + 1, rest, keyed, enough, _ => by
    obtain ⟨key, value⟩ := field
    simp only [Json.WellKeyed, Json.WellKeyedFields] at keyed
    simp only [Json.write, Json.writeFields, joinWith_cons, List.length_cons, List.length_append,
      List.length_nil] at enough
    have plain : isJsonSpace '{' = false := by decide
    have plainQuote : isJsonSpace '"' = false := by decide
    have first := readField_write floats key value fuel
      ((Json.writeFields floats fields).flatMap ([','] ++ ·) ++ '}' :: rest) keyed.2.1
      (by simp only [List.length_append, List.length_cons]; omega) (tail_ends _ _ _ (by decide))
    have others := readFields_write floats fields fuel rest keyed.2.2 (by omega)
    simp only [Json.write, Json.writeFields, joinWith_cons, List.cons_append, List.append_assoc,
      List.nil_append, quote, readValue, skipSpace_cons _ plain, skipSpace_cons _ plainQuote,
      Char.reduceEq, ↓reduceIte, List.head?_cons, Option.some.injEq]
    simp only [quote, List.cons_append, List.append_assoc, List.nil_append] at first others
    simp only [first, others, Option.bind_eq_bind, Option.bind_some, dictOf_distinct keyed.1]

theorem readItems_write (floats : FloatText) : ∀ (items : List Json) (fuel : Nat) (rest : Str),
    Json.WellKeyedItems items → ((Json.writeItems floats items).flatMap ([','] ++ ·)).length + 1 ≤ fuel →
    readItems floats fuel ((Json.writeItems floats items).flatMap ([','] ++ ·) ++ ']' :: rest) =
      some (items, rest)
  | _, 0, _, _, enough => absurd enough (by omega)
  | [], fuel + 1, rest, _, _ => by
    simp [Json.writeItems, readItems, skipSpace, isJsonSpace]
  | item :: items, fuel + 1, rest, keyed, enough => by
    simp only [Json.WellKeyedItems] at keyed
    simp only [Json.writeItems, List.flatMap_cons, List.length_append, List.length_cons,
      List.length_nil] at enough
    have plain : isJsonSpace ',' = false := by decide
    have first := readValue_write floats item fuel
      ((Json.writeItems floats items).flatMap ([','] ++ ·) ++ ']' :: rest) keyed.1 (by omega)
      (tail_ends _ _ _ (by decide))
    have others := readItems_write floats items fuel rest keyed.2 (by omega)
    simp only [List.cons_append, List.nil_append] at first others
    simp only [Json.writeItems, List.flatMap_cons, List.cons_append, List.append_assoc,
      List.nil_append, readItems, skipSpace_cons _ plain, first, others, Option.bind_eq_bind,
      Option.bind_some]

theorem readField_write (floats : FloatText) : ∀ (key : Str) (value : Json) (fuel : Nat) (rest : Str),
    value.WellKeyed → (quote key ++ ':' :: value.write floats).length ≤ fuel → EndsNumber rest →
    readField floats fuel (quote key ++ ':' :: value.write floats ++ rest) = some ((key, value), rest)
  | _, _, 0, _, _, enough, _ => by simp [quote] at enough
  | key, value, fuel + 1, rest, keyed, enough, stop => by
    simp only [quote, List.length_append, List.length_cons, List.length_nil] at enough
    have plain : isJsonSpace ':' = false := by decide
    have read := readValue_write floats value fuel rest keyed (by omega) stop
    simp only [quote, List.cons_append, List.append_assoc, List.nil_append, readField, readString_quoted,
      Option.bind_eq_bind, Option.bind_some, skipSpace_cons _ plain, read]

theorem readFields_write (floats : FloatText) : ∀ (fields : Dict) (fuel : Nat) (rest : Str),
    Json.WellKeyedFields fields → ((Json.writeFields floats fields).flatMap ([','] ++ ·)).length + 1 ≤ fuel →
    readFields floats fuel ((Json.writeFields floats fields).flatMap ([','] ++ ·) ++ '}' :: rest) =
      some (fields, rest)
  | _, 0, _, _, enough => absurd enough (by omega)
  | [], fuel + 1, rest, _, _ => by
    simp [Json.writeFields, readFields, skipSpace, isJsonSpace]
  | (key, value) :: fields, fuel + 1, rest, keyed, enough => by
    simp only [Json.WellKeyedFields] at keyed
    simp only [Json.writeFields, List.flatMap_cons, List.length_append, List.length_cons,
      List.length_nil] at enough
    have plain : isJsonSpace ',' = false := by decide
    have plainQuote : isJsonSpace '"' = false := by decide
    have first := readField_write floats key value fuel
      ((Json.writeFields floats fields).flatMap ([','] ++ ·) ++ '}' :: rest) keyed.1
      (by simp only [List.length_append, List.length_cons]; omega) (tail_ends _ _ _ (by decide))
    have others := readFields_write floats fields fuel rest keyed.2 (by omega)
    simp only [quote, List.cons_append, List.append_assoc, List.nil_append] at first others
    simp only [Json.writeFields, List.flatMap_cons, List.cons_append, List.append_assoc,
      List.nil_append, quote, readFields, skipSpace_cons _ plain, skipSpace_cons _ plainQuote, first, others,
      Option.bind_eq_bind, Option.bind_some]
end

/-- `json.loads(json.dumps(value, sort_keys=True))` is the value with its keys in order. -/
theorem loads_dumps (floats : FloatText) {j : Json} (keyed : j.WellKeyed) :
    loads floats (dumps floats j) = some j.normalize := by
  have read := readValue_write floats j.normalize ((dumps floats j).length + 1) []
    (j.normalize_wellKeyed keyed)
    (Nat.le_succ _) (by intro c head; cases head)
  rw [List.append_nil] at read
  have written : readValue floats ((dumps floats j).length + 1) (dumps floats j) = some (j.normalize, []) :=
    read
  simp [loads, written, skipSpace]

end ManifestCV.Foundation
