import ManifestCV.Foundation.DoubleRounding
import ManifestCV.Foundation.JsonRoundTrip

namespace ManifestCV.Foundation

def numeralValue (token : Str) : ℚ :=
  let whole := token.takeWhile fun c => c ≠ '.' && c ≠ 'e' && c ≠ 'E'
  let rest := token.dropWhile fun c => c ≠ '.' && c ≠ 'e' && c ≠ 'E'
  let fraction := (rest.takeWhile fun c => c ≠ 'e' && c ≠ 'E').drop 1
  let exponent := (rest.dropWhile fun c => c ≠ 'e' && c ≠ 'E').drop 1
  let shift := readInt (exponent.filter (· ≠ '+')) - fraction.length
  let digits : ℚ := readInt (whole ++ fraction)
  if shift < 0 then digits / (10 ^ shift.natAbs : Nat) else digits * (10 ^ shift.natAbs : Nat)

/-- All digits of a double: `n.0` for a whole number, else an integer and a negative exponent. -/
def exactNumeral (x : Double) : Str :=
  let power := x.val.den.log2
  if power = 0 then decimalInt x.val.num ++ ".0".toList
  else decimalInt (x.val.num * 5 ^ power) ++ "e-".toList ++ decimal power

theorem split_numeral (n : Int) (mark : Char) (rest : Str)
    (markup : (mark ≠ '.' && mark ≠ 'e' && mark ≠ 'E') = false) :
    (decimalInt n ++ mark :: rest).takeWhile (fun c => c ≠ '.' && c ≠ 'e' && c ≠ 'E') = decimalInt n ∧
      (decimalInt n ++ mark :: rest).dropWhile (fun c => c ≠ '.' && c ≠ 'e' && c ≠ 'E') = mark :: rest := by
  have plain : ∀ c ∈ decimalInt n, (c ≠ '.' && c ≠ 'e' && c ≠ 'E') = true := by
    have digit : ∀ c : Char, c.isDigit = true → (c ≠ '.' && c ≠ 'e' && c ≠ 'E') = true := by
      intro c digit
      simp only [Bool.and_eq_true, decide_eq_true_eq]
      refine ⟨⟨?_, ?_⟩, ?_⟩ <;> rintro rfl <;> exact absurd digit (by decide)
    cases n with
    | ofNat m => exact fun c member => digit c (decimal_digits m c member)
    | negSucc m =>
      intro c member
      rcases List.mem_cons.mp member with rfl | member
      · decide
      · exact digit c (decimal_digits (m + 1) c member)
  rw [List.takeWhile_append_of_pos plain, List.dropWhile_append_of_pos plain]
  constructor
  · rw [List.takeWhile_cons, markup]
    simp
  · rw [List.dropWhile_cons, markup]
    simp

theorem readInt_append_zero (n : Int) : readInt (decimalInt n ++ ['0']) = 10 * n := by
  have plain : ∀ m : Nat, Nat.ofDigitChars 10 (decimal m ++ ['0']) 0 = 10 * m := by
    intro m
    have value : Nat.ofDigitChars 10 (decimal m) 0 = m := Nat.ofDigitChars_ten_toDigits
    rw [Nat.ofDigitChars_append, value, Nat.ofDigitChars_cons]
    simp
  cases n with
  | ofNat m =>
    have value := plain m
    cases text : decimal m with
    | nil => exact absurd text (decimal_ne_nil m)
    | cons c rest =>
      have digit : c.isDigit = true := decimal_digits m c (by rw [text]; exact List.mem_cons_self)
      have notSign : c ≠ '-' := by rintro rfl; exact absurd digit (by decide)
      rw [text] at value
      simp only [decimalInt, text, List.cons_append] at value ⊢
      simpa [readInt, notSign] using congrArg (fun m : Nat => (m : Int)) value
  | negSucc m =>
    have value := plain (m + 1)
    simp only [decimalInt, List.cons_append, readInt, value]
    omega

theorem numeralValue_exactNumeral (x : Double) : numeralValue (exactNumeral x) = x.val := by
  obtain ⟨k, den⟩ := x.den_two_pow
  have quotient : x.val = x.val.num / 2 ^ k := by
    conv_lhs => rw [← Rat.num_div_den x.val, den]
    push_cast
    rfl
  have power : x.val.den.log2 = k := by rw [den, Nat.log2_two_pow]
  unfold exactNumeral
  simp only [power]
  split
  · rename_i zero
    subst zero
    obtain ⟨taken, dropped⟩ := split_numeral x.val.num '.' ['0'] (by decide)
    have text : decimalInt x.val.num ++ ".0".toList = decimalInt x.val.num ++ ['.', '0'] := rfl
    have fraction : (['.', '0'].takeWhile fun c => c ≠ 'e' && c ≠ 'E').drop 1 = ['0'] := by decide
    have exponent : (['.', '0'].dropWhile fun c => c ≠ 'e' && c ≠ 'E').drop 1 = [] := by decide
    rw [text]
    simp only [numeralValue, taken, dropped, fraction, exponent, readInt_append_zero]
    simp only [List.filter_nil, readInt, Nat.ofDigitChars_nil, List.length_cons, List.length_nil]
    norm_num
    rw [quotient]
    simp
  · rename_i nonzero
    have text : decimalInt (x.val.num * 5 ^ k) ++ "e-".toList ++ decimal k =
        decimalInt (x.val.num * 5 ^ k) ++ 'e' :: '-' :: decimal k := by simp
    obtain ⟨taken, dropped⟩ := split_numeral (x.val.num * 5 ^ k) 'e' ('-' :: decimal k) (by decide)
    have fraction : (('e' :: '-' :: decimal k).takeWhile fun c => c ≠ 'e' && c ≠ 'E') = [] := rfl
    have exponent : (('e' :: '-' :: decimal k).dropWhile fun c => c ≠ 'e' && c ≠ 'E') =
      'e' :: '-' :: decimal k := rfl
    have plus : ('-' :: decimal k).filter (· ≠ '+') = '-' :: decimal k := by
      rw [List.filter_eq_self]
      intro c member
      rcases List.mem_cons.mp member with rfl | member
      · decide
      · have digit := decimal_digits k c member
        simp only [decide_not, Bool.not_eq_true', decide_eq_false_iff_not]
        rintro rfl
        exact absurd digit (by decide)
    have value : Nat.ofDigitChars 10 (decimal k) 0 = k := Nat.ofDigitChars_ten_toDigits
    have shift : readInt ('-' :: decimal k) = -k := by simp [readInt, value]
    rw [text]
    simp only [numeralValue, taken, dropped, fraction, exponent, List.drop_nil, List.drop_succ_cons,
      List.drop_zero, plus, shift, List.append_nil, (readInt_decimalInt _).2, List.length_nil]
    rw [if_pos (by push_cast; omega)]
    have magnitude : (-(k : Int) - (0 : Nat)).natAbs = k := by omega
    rw [magnitude, show (10 : Nat) = 2 * 5 by norm_num, mul_pow]
    push_cast
    conv_rhs => rw [quotient]
    field_simp

theorem exactNumeral_token (x : Double) : isFloatToken (exactNumeral x) = true := by
  unfold exactNumeral
  dsimp only
  split
  · obtain ⟨taken, dropped⟩ := split_numeral x.val.num '.' ['0'] (by decide)
    have text : decimalInt x.val.num ++ ".0".toList = decimalInt x.val.num ++ ['.', '0'] := rfl
    rw [text]
    simp only [isFloatToken, taken, dropped, (readInt_decimalInt _).1]
    decide
  · generalize x.val.num * 5 ^ x.val.den.log2 = n
    generalize x.val.den.log2 = k
    obtain ⟨taken, dropped⟩ := split_numeral n 'e' ('-' :: decimal k) (by decide)
    have text : decimalInt n ++ "e-".toList ++ decimal k = decimalInt n ++ 'e' :: '-' :: decimal k := by simp
    have fraction : (('e' :: '-' :: decimal k).takeWhile fun c => c ≠ 'e' && c ≠ 'E') = [] := rfl
    have exponent : (('e' :: '-' :: decimal k).dropWhile fun c => c ≠ 'e' && c ≠ 'E') =
      'e' :: '-' :: decimal k := rfl
    have digits : (decimal k).all Char.isDigit = true := List.all_eq_true.mpr (decimal_digits k)
    rw [text]
    simp only [isFloatToken, taken, dropped, fraction, exponent, (readInt_decimalInt _).1]
    simp [isExponent, digits, decimal_ne_nil]

theorem exactNumeral_chars (x : Double) : ∀ c ∈ exactNumeral x, isNumberChar c = true := by
  intro c member
  have marks : ∀ c, c ∈ ".0".toList ∨ c ∈ "e-".toList → isNumberChar c = true := by
    rintro c (member | member) <;> revert c <;> exact List.all_iff_forall_prop.mp (by decide)
  unfold exactNumeral at member
  dsimp only at member
  split at member
  · rcases List.mem_append.mp member with member | member
    · exact decimalInt_chars _ c member
    · exact marks c (Or.inl member)
  · rcases List.mem_append.mp member with member | member
    · rcases List.mem_append.mp member with member | member
      · exact decimalInt_chars _ c member
      · exact marks c (Or.inr member)
    · exact digit_isNumberChar (decimal_digits _ c member)

/-- Floats printed with all their digits. Python prints the shortest text instead; for whole numbers
    below `10 ^ 16` both are `n.0`. -/
def exactFloats : FloatText where
  repr := exactNumeral
  parse token := some (Double.ofRat (numeralValue token))
  parse_repr x := by rw [numeralValue_exactNumeral, Double.ofRat_val]
  repr_token := exactNumeral_token
  repr_chars := exactNumeral_chars

end ManifestCV.Foundation
