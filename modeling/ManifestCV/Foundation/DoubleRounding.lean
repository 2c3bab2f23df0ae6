import Mathlib.Algebra.Order.Field.Basic
import Mathlib.Algebra.Order.Field.Power
import Mathlib.Data.Nat.Prime.Basic
import Mathlib.Data.Rat.Lemmas
import Mathlib.Tactic.FieldSimp
import Mathlib.Tactic.Linarith
import Mathlib.Tactic.Ring
import ManifestCV.Foundation.Double

namespace ManifestCV.Foundation

theorem powerOfTwo_eq (e : Int) : powerOfTwo e = 2 ^ e := by
  cases e with
  | ofNat n => simp [powerOfTwo]
  | negSucc n => simp [powerOfTwo, zpow_negSucc]

theorem zpow_two_lt {a b : Int} : (2 : ℚ) ^ a < 2 ^ b ↔ a < b := zpow_lt_zpow_iff_right₀ (by norm_num)

theorem zpow_two_le {a b : Int} : (2 : ℚ) ^ a ≤ 2 ^ b ↔ a ≤ b := zpow_le_zpow_iff_right₀ (by norm_num)

theorem zpow_two_add (a b : Int) : (2 : ℚ) ^ (a + b) = 2 ^ a * 2 ^ b := zpow_add₀ (by norm_num) a b

theorem log2_bounds {n : Nat} (nonzero : n ≠ 0) :
    (2 : ℚ) ^ (n.log2 : Int) ≤ n ∧ (n : ℚ) < 2 ^ ((n.log2 : Int) + 1) := by
  have bounds := (Nat.log2_eq_iff nonzero).mp rfl
  constructor
  · rw [zpow_natCast]
    exact_mod_cast bounds.1
  · have above : (n : ℚ) < 2 ^ (n.log2 + 1) := by exact_mod_cast bounds.2
    exact_mod_cast above

theorem binaryExponent_spec {q : ℚ} (positive : 0 < q) :
    2 ^ binaryExponent q ≤ q ∧ q < 2 ^ (binaryExponent q + 1) := by
  have num : 0 < q.num := Rat.num_pos.mpr positive
  obtain ⟨numLow, numHigh⟩ := log2_bounds (n := q.num.natAbs) (by omega)
  obtain ⟨denLow, denHigh⟩ := log2_bounds (n := q.den) q.den_nz
  have quotient : q * q.den = q.num.natAbs := by
    rw [Rat.mul_den_eq_num, ← Int.cast_natCast, Int.natAbs_of_nonneg num.le]
  have den : (0 : ℚ) < q.den := by exact_mod_cast q.den_pos
  set a : Int := (q.num.natAbs.log2 : Int)
  set b : Int := (q.den.log2 : Int)
  have above : q < 2 ^ (a - b + 1) := by
    have scaled : q * 2 ^ b < 2 ^ (a - b + 1) * 2 ^ b := by
      rw [← zpow_two_add]
      calc q * 2 ^ b ≤ q * q.den := mul_le_mul_of_nonneg_left denLow positive.le
        _ < 2 ^ (a + 1) := by rw [quotient]; exact numHigh
        _ = 2 ^ (a - b + 1 + b) := by congr 1; omega
    exact lt_of_mul_lt_mul_right scaled (by positivity)
  have below : 2 ^ (a - b - 1) < q := by
    have scaled : (2 : ℚ) ^ (a - b - 1) * 2 ^ (b + 1) < q * 2 ^ (b + 1) := by
      rw [← zpow_two_add]
      calc (2 : ℚ) ^ (a - b - 1 + (b + 1)) = 2 ^ a := by congr 1; omega
        _ ≤ q * q.den := by rw [quotient]; exact numLow
        _ < q * 2 ^ (b + 1) := mul_lt_mul_of_pos_left denHigh positive
    exact lt_of_mul_lt_mul_right scaled (by positivity)
  unfold binaryExponent
  simp only [powerOfTwo_eq]
  split
  · rename_i less
    exact ⟨below.le, by simpa using less⟩
  · rename_i more
    exact ⟨not_lt.mp more, above⟩

theorem roundHalfEven_int (n : Int) : roundHalfEven n = n := by
  simp [roundHalfEven, show (n : ℚ).floor = n from Rat.floor_intCast n]

theorem roundHalfEven_le {q : ℚ} {n : Int} (bound : q ≤ n) : roundHalfEven q ≤ n := by
  have floor : (q.floor : ℚ) ≤ q := Int.floor_le q
  unfold roundHalfEven
  dsimp only
  by_cases whole : q.floor = n
  · rw [if_pos (by rw [whole] at floor ⊢; linarith)]
    omega
  · have below : q.floor < n := by
      have le : (q.floor : ℚ) ≤ n := le_trans floor bound
      have le : q.floor ≤ n := by exact_mod_cast le
      omega
    split
    · omega
    · split
      · omega
      · split <;> omega

/-- A significand below `2 ^ 53` over a power of two that a double's exponent can reach. -/
theorem roundDouble_exact (m : Nat) (e : Int) (bound : m < 2 ^ 53) (low : -1022 ≤ e) :
    roundDouble (m * 2 ^ (e - 52)) = m * 2 ^ (e - 52) := by
  by_cases zero : m = 0
  · subst zero
    simp [roundDouble]
  have positive : (0 : ℚ) < m * 2 ^ (e - 52) := by
    have : 0 < (m : ℚ) := by exact_mod_cast Nat.pos_of_ne_zero zero
    positivity
  obtain ⟨below, _⟩ := binaryExponent_spec positive
  have small : (m : ℚ) * 2 ^ (e - 52) < 2 ^ (e + 1) := by
    have significand : (m : ℚ) < 2 ^ (53 : Int) := by exact_mod_cast bound
    calc (m : ℚ) * 2 ^ (e - 52) < 2 ^ (53 : Int) * 2 ^ (e - 52) :=
          mul_lt_mul_of_pos_right significand (by positivity)
      _ = 2 ^ (e + 1) := by rw [← zpow_two_add]; congr 1; omega
  have order := zpow_two_lt.mp (lt_of_le_of_lt below small)
  unfold roundDouble
  rw [if_neg positive.ne', if_neg (not_lt.mpr positive.le), abs_of_pos positive]
  simp only [powerOfTwo_eq]
  set exponent := max (binaryExponent (m * 2 ^ (e - 52))) (-1022) with chosen
  have shift : (2 : ℚ) ^ (e - 52) = 2 ^ (e - exponent).toNat * 2 ^ (exponent - 52) := by
    rw [← zpow_natCast, ← zpow_two_add]
    congr 1
    omega
  have unit : (2 : ℚ) ^ (exponent - 52) ≠ 0 := by positivity
  have whole : (m : ℚ) * 2 ^ (e - 52) / 2 ^ (exponent - 52) =
      ((m * 2 ^ (e - exponent).toNat : Nat) : Int) := by
    rw [shift]
    push_cast
    field_simp
  rw [whole, roundHalfEven_int, shift]
  push_cast
  ring

theorem roundDouble_neg (q : ℚ) : roundDouble (-q) = -roundDouble q := by
  unfold roundDouble
  by_cases zero : q = 0
  · simp [zero]
  rw [if_neg (neg_ne_zero.mpr zero), if_neg zero, abs_neg]
  rcases lt_or_gt_of_ne zero with negative | positive
  · simp [negative, negative.le]
  · simp [positive, positive.le]

theorem roundDouble_form (q : ℚ) (positive : 0 < q) :
    ∃ (m : Nat) (e : Int), m < 2 ^ 53 ∧ -1022 ≤ e ∧ roundDouble q = m * 2 ^ (e - 52) := by
  obtain ⟨_, above⟩ := binaryExponent_spec positive
  unfold roundDouble
  rw [if_neg positive.ne', if_neg (not_lt.mpr positive.le), abs_of_pos positive]
  simp only [powerOfTwo_eq]
  set exponent := max (binaryExponent q) (-1022) with chosen
  have unit : (0 : ℚ) < 2 ^ (exponent - 52) := by positivity
  have small : q / 2 ^ (exponent - 52) ≤ ((2 ^ 53 : Int) : ℚ) := by
    rw [div_le_iff₀ unit]
    calc q ≤ 2 ^ (exponent + 1) := le_trans above.le (zpow_two_le.mpr (by omega))
      _ = 2 ^ (53 : Int) * 2 ^ (exponent - 52) := by rw [← zpow_two_add]; congr 1; omega
      _ = ((2 ^ 53 : Int) : ℚ) * 2 ^ (exponent - 52) := by norm_cast
  have high := roundHalfEven_le small
  have nonneg := roundHalfEven_nonneg (div_nonneg positive.le unit.le)
  obtain ⟨m, same⟩ := Int.eq_ofNat_of_zero_le nonneg
  rw [same] at high ⊢
  by_cases full : m = 2 ^ 53
  · refine ⟨2 ^ 52, exponent + 1, by norm_num, by omega, ?_⟩
    rw [full, show exponent + 1 - 52 = 1 + (exponent - 52) by omega, zpow_two_add]
    push_cast
    ring
  · exact ⟨m, exponent, by omega, by omega, by push_cast; rfl⟩

theorem roundDouble_le {q : ℚ} {n : Nat} (small : n < 2 ^ 53) (bound : q ≤ n) : roundDouble q ≤ n := by
  rcases le_or_gt q 0 with negative | positive
  · have value : 0 ≤ roundDouble (-q) := roundDouble_nonneg (by linarith)
    rw [roundDouble_neg] at value
    have whole : (0 : ℚ) ≤ n := n.cast_nonneg
    linarith
  · obtain ⟨below, _⟩ := binaryExponent_spec positive
    unfold roundDouble
    rw [if_neg positive.ne', if_neg (not_lt.mpr positive.le), abs_of_pos positive]
    simp only [powerOfTwo_eq]
    have low : binaryExponent q < 53 := by
      have top : (n : ℚ) < 2 ^ (53 : Int) := by exact_mod_cast small
      exact zpow_two_lt.mp (lt_of_le_of_lt below (lt_of_le_of_lt bound top))
    set exponent := max (binaryExponent q) (-1022) with chosen
    have unit : (0 : ℚ) < 2 ^ (exponent - 52) := by positivity
    -- the unit divides every whole number, so the rounded quotient stays below this one's
    have scaled : ((n * 2 ^ (52 - exponent).toNat : Nat) : ℚ) * 2 ^ (exponent - 52) = n := by
      have inverse : (2 : ℚ) ^ (52 - exponent).toNat * 2 ^ (exponent - 52) = 1 := by
        rw [← zpow_natCast, ← zpow_two_add, ← zpow_zero (2 : ℚ)]
        congr 1
        omega
      push_cast
      rw [mul_assoc, inverse, mul_one]
    have quotient : q / 2 ^ (exponent - 52) ≤ ((n * 2 ^ (52 - exponent).toNat : Nat) : Int) := by
      rw [div_le_iff₀ unit, Int.cast_natCast, scaled]
      exact bound
    have rounded : (roundHalfEven (q / 2 ^ (exponent - 52)) : ℚ) ≤
        ((n * 2 ^ (52 - exponent).toNat : Nat) : ℚ) := by
      exact_mod_cast roundHalfEven_le quotient
    calc (roundHalfEven (q / 2 ^ (exponent - 52)) : ℚ) * 2 ^ (exponent - 52)
        ≤ ((n * 2 ^ (52 - exponent).toNat : Nat) : ℚ) * 2 ^ (exponent - 52) :=
          mul_le_mul_of_nonneg_right rounded unit.le
      _ = n := scaled

theorem Double.toInt_le {a : Double} {n : Nat} (nonneg : 0 ≤ a.val) (bound : a.val ≤ n) : a.toInt ≤ n := by
  have den : (0 : Int) < a.val.den := by exact_mod_cast a.val.den_pos
  have num : a.val.num ≤ n * a.val.den := by
    have scaled : a.val * a.val.den ≤ n * a.val.den := mul_le_mul_of_nonneg_right bound (by positivity)
    rw [Rat.mul_den_eq_num] at scaled
    exact_mod_cast scaled
  rw [Double.toInt, Int.tdiv_eq_ediv_of_nonneg (Rat.num_nonneg.mpr nonneg)]
  exact Int.ediv_le_of_le_mul den num

theorem Double.mul_le {a b : Double} {n : Nat} (small : n < 2 ^ 53) (bound : a.val * b.val ≤ n) :
    (Double.mul a b).val ≤ n :=
  roundDouble_le small bound

theorem Double.ofInt_val_le {n : Nat} (small : n < 2 ^ 53) : (Double.ofInt n).val ≤ n :=
  roundDouble_le small (by push_cast; exact le_refl _)

theorem Double.mul_nonneg {a b : Double} (first : 0 ≤ a.val) (second : 0 ≤ b.val) :
    0 ≤ (Double.mul a b).val :=
  roundDouble_nonneg (by positivity)

theorem Double.ofInt_nonneg {n : Int} (nonneg : 0 ≤ n) : 0 ≤ (Double.ofInt n).val :=
  roundDouble_nonneg (by exact_mod_cast nonneg)

theorem roundDouble_idem (q : ℚ) : roundDouble (roundDouble q) = roundDouble q := by
  rcases lt_trichotomy q 0 with negative | rfl | positive
  · obtain ⟨m, e, bound, low, form⟩ := roundDouble_form (-q) (by linarith)
    rw [roundDouble_neg] at form
    have value : roundDouble q = -(m * 2 ^ (e - 52)) := by linarith
    rw [value, roundDouble_neg, roundDouble_exact m e bound low]
  · simp [roundDouble]
  · obtain ⟨m, e, bound, low, form⟩ := roundDouble_form q positive
    rw [form, roundDouble_exact m e bound low]

theorem Double.ofRat_val (x : Double) : Double.ofRat x.val = x := by
  obtain ⟨q, same⟩ := x.rounded
  ext
  simp only [Double.ofRat, ← same, roundDouble_idem]

theorem Double.den_two_pow (x : Double) : ∃ k, x.val.den = 2 ^ k := by
  have dyadic : ∀ (m : Nat) (e : Int), ∃ k, ((m : ℚ) * 2 ^ e).den = 2 ^ k := by
    intro m e
    have divides : ∃ j, ((m : ℚ) * 2 ^ e).den ∣ 2 ^ j := by
      cases e with
      | ofNat n =>
        refine ⟨0, ?_⟩
        have whole : (m : ℚ) * 2 ^ (Int.ofNat n) = ((m * 2 ^ n : Nat) : ℚ) := by push_cast; simp
        rw [whole, Rat.den_natCast]
        simp
      | negSucc n =>
        refine ⟨n + 1, ?_⟩
        have fraction : (m : ℚ) * 2 ^ (Int.negSucc n) = Rat.divInt m ((2 ^ (n + 1) : Nat) : Int) := by
          rw [zpow_negSucc, ← Rat.intCast_div_eq_divInt]
          push_cast
          rw [div_eq_mul_inv]
        rw [fraction]
        exact_mod_cast Rat.den_dvd (m : Int) ((2 ^ (n + 1) : Nat) : Int)
    obtain ⟨j, divides⟩ := divides
    obtain ⟨k, _, same⟩ := (Nat.dvd_prime_pow Nat.prime_two).mp divides
    exact ⟨k, same⟩
  obtain ⟨q, same⟩ := x.rounded
  rcases lt_trichotomy q 0 with negative | rfl | positive
  · obtain ⟨m, e, _, _, form⟩ := roundDouble_form (-q) (by linarith)
    rw [roundDouble_neg] at form
    rw [← same, show roundDouble q = -(m * 2 ^ (e - 52)) by linarith, Rat.den_neg_eq_den]
    exact dyadic m _
  · exact ⟨0, by rw [← same]; simp [roundDouble]⟩
  · obtain ⟨m, e, _, _, form⟩ := roundDouble_form q positive
    rw [← same, form]
    exact dyadic m _

end ManifestCV.Foundation
