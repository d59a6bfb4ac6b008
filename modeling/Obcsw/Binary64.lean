import Mathlib.Data.BitVec
import Mathlib.Data.Nat.Log
import Mathlib.Tactic.Ring
import Mathlib.Tactic.Linarith

/-!
# IEEE 754 binary64

A `double` is its 64 bits. Every value that is not a NaN has a signed magnitude counted in
units of `2 ^ (-1074)`, the least subnormal (`units`); an infinity counts more than any
finite value and the two zeros count the same. The comparisons of C++ are comparisons of
units that are false as soon as one side is a NaN (`lt_iff`, `le_iff`), so `≤` is the
negation of `>` only away from NaN (`le_iff_not_lt`).

`ofUnitsRatio` rounds a ratio of naturals to nearest, ties to even, and gives decimal
literals and the conversions from integers; a natural below `2 ^ 53` converts exactly
(`units_ofNat`). A conversion to an unsigned type truncates, and is undefined in C++ when
the truncated value does not fit (`toUnsigned`).
-/

/-- A binary64 value, as its interchange bits. -/
@[ext] structure Binary64 where
  bits : BitVec 64
  deriving DecidableEq, Repr

namespace Binary64

/-! ## Fields and values -/

section Fields

variable (x : Binary64)

def sign : Bool :=
  x.bits.msb

/-- The biased exponent field. -/
def exponent : ℕ :=
  x.bits.toNat / 2 ^ 52 % 2 ^ 11

/-- The trailing significand field. -/
def fraction : ℕ :=
  x.bits.toNat % 2 ^ 52

def isNaN : Bool :=
  decide (x.exponent = 2047 ∧ x.fraction ≠ 0)

def isFinite : Bool :=
  decide (x.exponent ≠ 2047)

/-- The quiet NaN, `std::numeric_limits<double>::quiet_NaN()`. -/
def quietNaN : Binary64 :=
  ⟨0x7FF8000000000000#64⟩

/-- The magnitude in units of `2 ^ (-1074)`. -/
def magnitude : ℕ :=
  if x.exponent = 0 then x.fraction else (2 ^ 52 + x.fraction) * 2 ^ (x.exponent - 1)

/-- The value in units of `2 ^ (-1074)`. -/
def units : ℤ :=
  if x.sign then -x.magnitude else x.magnitude

theorem not_isNaN_of_isFinite (h : x.isFinite = true) : x.isNaN = false := by
  unfold isFinite at h
  unfold isNaN
  simp_all

end Fields

/-! ## Comparisons -/

instance : LT Binary64 :=
  ⟨fun x y => x.isNaN = false ∧ y.isNaN = false ∧ x.units < y.units⟩

instance : LE Binary64 :=
  ⟨fun x y => x.isNaN = false ∧ y.isNaN = false ∧ x.units ≤ y.units⟩

instance (x y : Binary64) : Decidable (x < y) :=
  inferInstanceAs (Decidable (_ ∧ _ ∧ _))

instance (x y : Binary64) : Decidable (x ≤ y) :=
  inferInstanceAs (Decidable (_ ∧ _ ∧ _))

variable {x y z : Binary64}

theorem lt_iff : x < y ↔ x.isNaN = false ∧ y.isNaN = false ∧ x.units < y.units :=
  Iff.rfl

theorem le_iff : x ≤ y ↔ x.isNaN = false ∧ y.isNaN = false ∧ x.units ≤ y.units :=
  Iff.rfl

/-- Away from NaN, `≤` is the negation of `>`. -/
theorem le_iff_not_lt (hx : x.isNaN = false) (hy : y.isNaN = false) : x ≤ y ↔ ¬y < x := by
  simp [lt_iff, le_iff, hx, hy]

theorem not_lt_of_isNaN_left (h : x.isNaN = true) : ¬x < y := by
  simp [lt_iff, h]

theorem not_lt_of_isNaN_right (h : y.isNaN = true) : ¬x < y := by
  simp [lt_iff, h]

/-- What is not at most is greater, or one side is a NaN. -/
theorem not_le_iff : ¬x ≤ y ↔ y < x ∨ x.isNaN = true ∨ y.isNaN = true := by
  rw [lt_iff, le_iff]
  cases x.isNaN <;> cases y.isNaN <;> simp

protected theorem lt_of_lt_of_le (hxy : x < y) (hyz : y ≤ z) : x < z :=
  ⟨hxy.1, hyz.2.1, Int.lt_of_lt_of_le hxy.2.2 hyz.2.2⟩

protected theorem lt_of_le_of_lt (hxy : x ≤ y) (hyz : y < z) : x < z :=
  ⟨hxy.1, hyz.2.1, Int.lt_of_le_of_lt hxy.2.2 hyz.2.2⟩

/-! ## Rounding -/

/-- `n / d` rounded to the nearest natural, ties to even. -/
def roundDiv (n d : ℕ) : ℕ :=
  if 2 * (n % d) < d ∨ (2 * (n % d) = d ∧ n / d % 2 = 0) then n / d else n / d + 1

theorem roundDiv_of_dvd {n d : ℕ} (hd : 0 < d) (h : d ∣ n) : roundDiv n d = n / d := by
  rw [roundDiv, Nat.mod_eq_zero_of_dvd h, if_pos (Or.inl (by simpa using hd))]

/-- How far the significand of the magnitude `m` is shifted to fit 53 bits. -/
def shift (m : ℕ) : ℕ :=
  Nat.log2 m - 52

/-- The double nearest to `n / d` units, ties to even, infinite from half a unit in the
last place above the greatest finite value. The exponent and significand fields are added,
so a significand that rounds up to `2 ^ 53` carries into the exponent. -/
def ofUnitsRatio (negative : Bool) (n d : ℕ) : Binary64 :=
  let s := shift (n / d)
  let mag := min (s * 2 ^ 52 + roundDiv n (d * 2 ^ s)) (2047 * 2 ^ 52)
  ⟨BitVec.ofNat 64 (mag + if negative then 2 ^ 63 else 0)⟩

/-- Conversion from a natural. -/
def ofNat (n : ℕ) : Binary64 :=
  ofUnitsRatio false (n * 2 ^ 1074) 1

/-- Conversion from an integer. -/
def ofInt (i : ℤ) : Binary64 :=
  ofUnitsRatio (decide (i < 0)) (i.natAbs * 2 ^ 1074) 1

/-- A decimal literal. -/
instance : OfScientific Binary64 where
  ofScientific m negExp e :=
    if negExp then ofUnitsRatio false (m * 2 ^ 1074) (10 ^ e)
    else ofUnitsRatio false (m * 10 ^ e * 2 ^ 1074) 1

instance : Neg Binary64 :=
  ⟨fun x => ⟨x.bits ^^^ BitVec.ofNat 64 (2 ^ 63)⟩⟩

example : (8.4 : Binary64).bits = 0x4020CCCCCCCCCCCD#64 := by decide +kernel

/-- The fields of bits assembled from a shift and a significand. -/
theorem units_mk_of_normal {s k : ℕ} (hs : s < 2046) (hk : 2 ^ 52 ≤ k) (hk' : k < 2 ^ 53) :
    (Binary64.mk (BitVec.ofNat 64 (s * 2 ^ 52 + k))).isFinite = true ∧
      (Binary64.mk (BitVec.ofNat 64 (s * 2 ^ 52 + k))).units = k * 2 ^ s := by
  have hbits : (BitVec.ofNat 64 (s * 2 ^ 52 + k)).toNat = (s + 1) * 2 ^ 52 + (k - 2 ^ 52) := by
    rw [BitVec.toNat_ofNat, Nat.mod_eq_of_lt (by omega)]
    omega
  have hexp : (Binary64.mk (BitVec.ofNat 64 (s * 2 ^ 52 + k))).exponent = s + 1 := by
    unfold exponent
    rw [hbits]
    omega
  have hfrac : (Binary64.mk (BitVec.ofNat 64 (s * 2 ^ 52 + k))).fraction = k - 2 ^ 52 := by
    unfold fraction
    rw [hbits]
    omega
  have hsign : (Binary64.mk (BitVec.ofNat 64 (s * 2 ^ 52 + k))).sign = false := by
    unfold sign
    rw [BitVec.msb_eq_decide, decide_eq_false_iff_not, hbits]
    omega
  constructor
  · unfold isFinite
    rw [hexp, decide_eq_true_iff]
    omega
  · unfold units magnitude
    rw [hsign, hexp, hfrac, if_neg (by decide), if_neg (by omega), Nat.add_sub_cancel,
      Nat.add_sub_cancel' hk]
    push_cast
    rfl

theorem log2_mul_two_pow {n : ℕ} (hn : n ≠ 0) (k : ℕ) : (n * 2 ^ k).log2 = n.log2 + k := by
  rw [Nat.log2_eq_iff (by positivity)]
  constructor
  · rw [pow_add]
    exact Nat.mul_le_mul_right _ (Nat.log2_self_le hn)
  · rw [show n.log2 + k + 1 = n.log2 + 1 + k by omega, pow_add]
    exact Nat.mul_lt_mul_of_pos_right Nat.lt_log2_self (by positivity)

/-- A natural below `2 ^ 53` converts exactly. -/
theorem units_ofNat {n : ℕ} (hn : n < 2 ^ 53) :
    (ofNat n).isFinite = true ∧ (ofNat n).units = n * 2 ^ 1074 := by
  rcases Nat.eq_zero_or_pos n with rfl | hpos
  · decide +kernel
  have hlog : n.log2 < 53 := (Nat.log2_lt (by omega)).mpr hn
  have hshift : shift (n * 2 ^ 1074 / 1) = n.log2 + 1022 := by
    rw [shift, Nat.div_one, log2_mul_two_pow (by omega)]
    omega
  have hpow : n * 2 ^ 1074 = n * 2 ^ (52 - n.log2) * 2 ^ (n.log2 + 1022) := by
    rw [mul_assoc, ← pow_add, show 52 - n.log2 + (n.log2 + 1022) = 1074 by omega]
  have hround : roundDiv (n * 2 ^ 1074) (1 * 2 ^ (n.log2 + 1022)) = n * 2 ^ (52 - n.log2) := by
    rw [one_mul, roundDiv_of_dvd (by positivity) ⟨_, by rw [hpow, mul_comm]⟩, hpow,
      Nat.mul_div_cancel _ (by positivity)]
  have hlow : 2 ^ 52 ≤ n * 2 ^ (52 - n.log2) := by
    calc 2 ^ 52 = 2 ^ n.log2 * 2 ^ (52 - n.log2) := by
          rw [← pow_add, show n.log2 + (52 - n.log2) = 52 by omega]
      _ ≤ n * 2 ^ (52 - n.log2) := Nat.mul_le_mul_right _ (Nat.log2_self_le (by omega))
  have hhigh : n * 2 ^ (52 - n.log2) < 2 ^ 53 := by
    calc n * 2 ^ (52 - n.log2) < 2 ^ (n.log2 + 1) * 2 ^ (52 - n.log2) :=
          Nat.mul_lt_mul_of_pos_right Nat.lt_log2_self (by positivity)
      _ = 2 ^ 53 := by rw [← pow_add, show n.log2 + 1 + (52 - n.log2) = 53 by omega]
  have hnorm := units_mk_of_normal (s := n.log2 + 1022) (by omega) hlow hhigh
  have hofNat : ofNat n = ⟨BitVec.ofNat 64 ((n.log2 + 1022) * 2 ^ 52 + n * 2 ^ (52 - n.log2))⟩ := by
    simp only [ofNat, ofUnitsRatio, hshift, hround]
    rw [Nat.min_eq_left (by omega)]
    simp
  rw [hofNat]
  refine ⟨hnorm.1, hnorm.2.trans ?_⟩
  calc ((n * 2 ^ (52 - n.log2) : ℕ) : ℤ) * 2 ^ (n.log2 + 1022)
      = ((n * 2 ^ (52 - n.log2) * 2 ^ (n.log2 + 1022) : ℕ) : ℤ) := by
        rw [Nat.cast_mul _ (2 ^ (n.log2 + 1022)), Nat.cast_pow, Nat.cast_ofNat]
    _ = ((n * 2 ^ 1074 : ℕ) : ℤ) := by rw [hpow]
    _ = n * 2 ^ 1074 := by rw [Nat.cast_mul, Nat.cast_pow, Nat.cast_ofNat]

/-- Conversion is strictly monotone on naturals below `2 ^ 53`. -/
theorem ofNat_lt_ofNat {m n : ℕ} (hm : m < 2 ^ 53) (hn : n < 2 ^ 53) :
    ofNat m < ofNat n ↔ m < n := by
  obtain ⟨hfm, hum⟩ := units_ofNat hm
  obtain ⟨hfn, hun⟩ := units_ofNat hn
  rw [lt_iff, hum, hun]
  simp only [not_isNaN_of_isFinite _ hfm, not_isNaN_of_isFinite _ hfn, true_and]
  constructor
  · intro h
    exact_mod_cast lt_of_mul_lt_mul_right h (by positivity)
  · intro h
    exact_mod_cast Nat.mul_lt_mul_of_pos_right h (by positivity)

/-! ## Truncation -/

/-- The value rounded towards zero. -/
def truncate (x : Binary64) : ℤ :=
  if x.sign then -(x.magnitude / 2 ^ 1074 : ℕ) else (x.magnitude / 2 ^ 1074 : ℕ)

/-- `static_cast` to an unsigned type of `w` bits. The behaviour is undefined when the
truncated value does not fit; `undef` is what the platform then does. -/
def toUnsigned (undef : ℕ → Binary64 → ℕ) (w : ℕ) (x : Binary64) : ℕ :=
  if x.isFinite = true ∧ 0 ≤ x.truncate ∧ x.truncate < 2 ^ w then x.truncate.toNat
  else undef w x

/-! ## Printing -/

/-- What a stream prints after `std::fixed` and `std::setprecision(digits)`, for at least one
digit. -/
def toFixed (digits : ℕ) (x : Binary64) : String :=
  let minus := if x.sign then "-" else ""
  if x.isNaN then minus ++ "nan"
  else if x.isFinite then
    let n := roundDiv (x.magnitude * 10 ^ digits) (2 ^ 1074)
    let decimals := toString (n % 10 ^ digits)
    minus ++ toString (n / 10 ^ digits) ++ "." ++
      String.ofList (List.replicate (digits - decimals.length) '0') ++ decimals
  else minus ++ "inf"

example : toFixed 2 (-20.05) = "-20.05" := by decide +kernel

end Binary64
