import Mathlib.Algebra.Order.Ring.Rat
import Mathlib.Data.Rat.Floor

namespace ManifestCV.Foundation

def powerOfTwo : Int → ℚ
  | .ofNat n => (2 ^ n : Nat)
  | .negSucc n => 1 / (2 ^ (n + 1) : Nat)

def roundHalfEven (q : ℚ) : Int :=
  let low := q.floor
  let rest := q - low
  if rest < 1 / 2 then low
  else if 1 / 2 < rest then low + 1
  else if low % 2 = 0 then low else low + 1

def binaryExponent (q : ℚ) : Int :=
  let guess : Int := Nat.log2 q.num.natAbs - Nat.log2 q.den
  if q < powerOfTwo guess then guess - 1 else guess

/-- Rounding to the nearest IEEE 754 double, ties to even; overflow is not represented. -/
def roundDouble (q : ℚ) : ℚ :=
  if q = 0 then 0
  else
    let exponent := max (binaryExponent |q|) (-1022)
    let unit := powerOfTwo (exponent - 52)
    let magnitude := roundHalfEven (|q| / unit) * unit
    if q < 0 then -magnitude else magnitude

/-- A finite Python `float`, by the rational number it denotes. -/
@[ext] structure Double where
  val : ℚ
  rounded : ∃ q, roundDouble q = val

namespace Double

def ofRat (q : ℚ) : Double := ⟨roundDouble q, q, rfl⟩

instance : DecidableEq Double := fun a b => decidable_of_iff (a.val = b.val) Double.ext_iff.symm

def ofInt (n : Int) : Double := ofRat n

def add (a b : Double) : Double := ofRat (a.val + b.val)

def sub (a b : Double) : Double := ofRat (a.val - b.val)

def mul (a b : Double) : Double := ofRat (a.val * b.val)

def abs (a : Double) : Double := if a.val < 0 then ofRat (-a.val) else a

def toInt (a : Double) : Int := a.val.num.tdiv a.val.den

/-- One item of the compensated summation that `sum` uses for floats. -/
def compensate (state : Double × Double) (x : Double) : Double × Double :=
  let total := add state.1 x
  let error := if |x.val| ≤ |state.1.val| then add (sub state.1 total) x else add (sub x total) state.1
  (total, add state.2 error)

def sum : List Double → Double
  | [] => ofRat 0
  | x :: xs =>
    let state := xs.foldl compensate (x, ofRat 0)
    if state.2.val = 0 then state.1 else add state.1 state.2

end Double

theorem powerOfTwo_pos (e : Int) : 0 < powerOfTwo e := by
  cases e <;> simp [powerOfTwo]

theorem roundHalfEven_nonneg {q : ℚ} (nonneg : 0 ≤ q) : 0 ≤ roundHalfEven q := by
  have low : 0 ≤ q.floor := Rat.le_floor_iff.mpr (by simpa using nonneg)
  unfold roundHalfEven
  dsimp only
  split
  · exact low
  · split
    · omega
    · split <;> omega

theorem roundDouble_nonneg {q : ℚ} (nonneg : 0 ≤ q) : 0 ≤ roundDouble q := by
  unfold roundDouble
  split
  · exact le_rfl
  · have unit := powerOfTwo_pos (max (binaryExponent |q|) (-1022) - 52)
    have whole := roundHalfEven_nonneg (div_nonneg (abs_nonneg q) unit.le)
    dsimp only
    rw [if_neg (not_lt.mpr nonneg)]
    exact mul_nonneg (by exact_mod_cast whole) unit.le

theorem Double.toInt_nonneg {a : Double} (nonneg : 0 ≤ a.val) : 0 ≤ a.toInt :=
  Int.tdiv_nonneg (Rat.num_nonneg.mpr nonneg) (Int.natCast_nonneg _)

example : (Double.mul (Double.ofRat (6 / 10)) (Double.ofInt 72)).toInt = 43 := by with_unfolding_all decide
example : roundDouble (1 / 10) = 3602879701896397 / 36028797018963968 := by with_unfolding_all decide

end ManifestCV.Foundation
