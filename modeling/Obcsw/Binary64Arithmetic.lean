import Obcsw.Binary64

/-!
# Arithmetic on binary64

The operations of IEEE 754. On finite values each takes the exact result, as a ratio of
units, and rounds it once; what has no value is the quiet NaN, and NaNs are not told apart.

A rounded value lies between the doubles that the exact one lies between
(`within_ofUnitsRatio`), so ranges go through the operations (`Within.add`, `Within.mul`,
`Within.div`) with side conditions on integers only. A sum of nonnegative doubles that
exceeds a double by less than half a unit in its last place rounds to at most that double
(`Within.add_saturates`).
-/

namespace Binary64

/-! ## Operations -/

/-- The infinity of the sign. -/
def infinity (negative : Bool) : Binary64 :=
  ⟨BitVec.ofNat 64 (2047 * 2 ^ 52 + if negative then 2 ^ 63 else 0)⟩

/-- A sum of zero is negative only when both sides are. -/
protected def add (x y : Binary64) : Binary64 :=
  if x.isNaN || y.isNaN then quietNaN
  else if x.isFinite && y.isFinite then
    let sum := x.units + y.units
    ofUnitsRatio (if sum = 0 then x.sign && y.sign else decide (sum < 0)) sum.natAbs 1
  else if x.isFinite then y
  else if y.isFinite || x.sign == y.sign then x
  else quietNaN

protected def mul (x y : Binary64) : Binary64 :=
  if x.isNaN || y.isNaN then quietNaN
  else if x.isFinite && y.isFinite then
    ofUnitsRatio (x.sign ^^ y.sign) (x.magnitude * y.magnitude) (2 ^ 1074)
  else if x.magnitude = 0 ∨ y.magnitude = 0 then quietNaN
  else infinity (x.sign ^^ y.sign)

protected def div (x y : Binary64) : Binary64 :=
  if x.isNaN || y.isNaN then quietNaN
  else if x.isFinite && y.isFinite then
    if y.magnitude ≠ 0 then
      ofUnitsRatio (x.sign ^^ y.sign) (x.magnitude * 2 ^ 1074) y.magnitude
    else if x.magnitude = 0 then quietNaN
    else infinity (x.sign ^^ y.sign)
  else if x.isFinite then ofUnitsRatio (x.sign ^^ y.sign) 0 1
  else if y.isFinite then infinity (x.sign ^^ y.sign)
  else quietNaN

instance : Add Binary64 :=
  ⟨Binary64.add⟩

instance : Mul Binary64 :=
  ⟨Binary64.mul⟩

instance : Div Binary64 :=
  ⟨Binary64.div⟩

/-- `std::abs`. -/
def abs (x : Binary64) : Binary64 :=
  ⟨BitVec.ofNat 64 (x.bits.toNat % 2 ^ 63)⟩

/-- `std::max`. -/
protected def max (x y : Binary64) : Binary64 :=
  if x < y then y else x

/-- `std::min`. -/
protected def min (x y : Binary64) : Binary64 :=
  if y < x then y else x

example : ((0.1 + 0.2 : Binary64), (0.1 * 3.0 : Binary64), (1.0 / 3.0 : Binary64)) =
    (⟨0x3FD3333333333334#64⟩, ⟨0x3FD3333333333334#64⟩, ⟨0x3FD5555555555555#64⟩) := by
  decide +kernel

/-! ## Magnitudes -/

section Magnitude

variable {x y : Binary64} {n d q : ℕ}

/-- The 53-bit significand. -/
def significand (x : Binary64) : ℕ :=
  if x.exponent = 0 then x.fraction else 2 ^ 52 + x.fraction

theorem magnitude_eq (x : Binary64) : x.magnitude = x.significand * 2 ^ (x.exponent - 1) := by
  unfold magnitude significand
  split
  · next h => rw [h, Nat.zero_sub, pow_zero, Nat.mul_one]
  · rfl

theorem significand_lt (x : Binary64) : x.significand < 2 ^ 53 := by
  have hfraction : x.fraction < 2 ^ 52 := Nat.mod_lt _ (by positivity)
  unfold significand
  split <;> omega

/-- A significand is normal, or counts least units. -/
theorem normal_or_least (x : Binary64) : 2 ^ 52 ≤ x.significand ∨ x.exponent - 1 = 0 := by
  unfold significand
  split <;> omega

theorem carry (k : ℕ) : 2 ^ 53 * 2 ^ k = 2 ^ 52 * 2 ^ (k + 1) := by
  rw [pow_succ 2 k]
  ring

/-- A magnitude is less than the ones with a greater exponent. -/
theorem magnitude_lt_of_exponent {e : ℕ} (h : x.exponent - 1 ≤ e) :
    x.magnitude < 2 ^ 52 * 2 ^ (e + 1) := by
  calc x.magnitude = x.significand * 2 ^ (x.exponent - 1) := magnitude_eq x
    _ < 2 ^ 53 * 2 ^ (x.exponent - 1) :=
      Nat.mul_lt_mul_of_pos_right (significand_lt x) (by positivity)
    _ ≤ 2 ^ 53 * 2 ^ e := Nat.mul_le_mul_left _ (Nat.pow_le_pow_right (by decide) h)
    _ = 2 ^ 52 * 2 ^ (e + 1) := carry e

theorem natAbs_units (x : Binary64) : x.units.natAbs = x.magnitude := by
  unfold units
  split <;> simp

end Magnitude

/-! ## One rounding -/

section Rounding

variable {x : Binary64} {n d q : ℕ} {negative : Bool}

theorem roundDiv_le (h : 2 * n < d * (2 * q + 1)) : roundDiv n d ≤ q := by
  have hd : 0 < d := Nat.pos_of_ne_zero (by rintro rfl; simp at h)
  have hdiv : n / d ≤ q := by
    refine Nat.lt_succ_iff.mp ((Nat.div_lt_iff_lt_mul hd).mpr ?_)
    nlinarith
  unfold roundDiv
  split
  · exact hdiv
  · next hup =>
    refine Nat.lt_of_le_of_ne hdiv ?_
    rintro rfl
    have hmod := Nat.div_add_mod n d
    push Not at hup
    nlinarith [hup.1]

theorem le_roundDiv (hd : 0 < d) (h : d * q ≤ n) : q ≤ roundDiv n d := by
  have hdiv : q ≤ n / d := (Nat.le_div_iff_mul_le hd).mpr (by rwa [Nat.mul_comm])
  unfold roundDiv
  split <;> omega

/-- The bits of a rounded value, but for the sign. -/
def roundedBits (n d : ℕ) : ℕ :=
  min (shift (n / d) * 2 ^ 52 + roundDiv n (d * 2 ^ shift (n / d))) (2047 * 2 ^ 52)

theorem toNat_ofUnitsRatio : (ofUnitsRatio negative n d).bits.toNat =
    roundedBits n d + if negative then 2 ^ 63 else 0 := by
  have hle : roundedBits n d ≤ 2047 * 2 ^ 52 := Nat.min_le_right ..
  refine (BitVec.toNat_ofNat ..).trans (Nat.mod_eq_of_lt ?_)
  change roundedBits n d + (if negative then 2 ^ 63 else 0) < 2 ^ 64
  split <;> omega

theorem sign_ofUnitsRatio : (ofUnitsRatio negative n d).sign = negative := by
  have hle : roundedBits n d ≤ 2047 * 2 ^ 52 := Nat.min_le_right ..
  rw [sign, BitVec.msb_eq_decide, toNat_ofUnitsRatio]
  cases negative
  · simp only [Bool.false_eq_true, if_false, decide_eq_false_iff_not]
    omega
  · simp only [if_true, decide_eq_true_iff]
    omega

theorem exponent_ofUnitsRatio :
    (ofUnitsRatio negative n d).exponent = roundedBits n d / 2 ^ 52 := by
  have hle : roundedBits n d ≤ 2047 * 2 ^ 52 := Nat.min_le_right ..
  rw [exponent, toNat_ofUnitsRatio]
  split <;> omega

theorem fraction_ofUnitsRatio :
    (ofUnitsRatio negative n d).fraction = roundedBits n d % 2 ^ 52 := by
  rw [fraction, toNat_ofUnitsRatio]
  split <;> omega

/-- The shift brings a natural to 53 bits. -/
theorem shift_bounds (m : ℕ) :
    m < 2 ^ 53 * 2 ^ shift m ∧ (shift m = 0 ∨ 2 ^ 52 * 2 ^ shift m ≤ m) := by
  have hlt : m < 2 ^ (m.log2 + 1) := Nat.lt_log2_self
  rcases Nat.lt_or_ge m.log2 53 with hlog | hlog
  · have hzero : shift m = 0 := by
      unfold shift
      omega
    have hpow : 2 ^ (m.log2 + 1) ≤ 2 ^ 53 := Nat.pow_le_pow_right (by decide) (by omega)
    rw [hzero]
    exact ⟨by omega, Or.inl rfl⟩
  · have hshift : 52 + shift m = m.log2 := by
      unfold shift
      omega
    rw [← pow_add, ← pow_add, show 53 + shift m = m.log2 + 1 by omega, hshift]
    refine ⟨hlt, Or.inr (Nat.log2_self_le ?_)⟩
    rintro rfl
    simp at hlog

/-- The rounded significand has 53 bits, or carries; it is normal when it has been shifted. -/
theorem significand_bounds (hd : 0 < d) :
    roundDiv n (d * 2 ^ shift (n / d)) ≤ 2 ^ 53 ∧
      (shift (n / d) = 0 ∨ 2 ^ 52 ≤ roundDiv n (d * 2 ^ shift (n / d))) := by
  obtain ⟨hlt, hle⟩ := shift_bounds (n / d)
  generalize shift (n / d) = s at hlt hle ⊢
  have hn : n < d * (2 ^ 53 * 2 ^ s) := by
    rw [Nat.mul_comm]
    exact (Nat.div_lt_iff_lt_mul hd).mp hlt
  constructor
  · refine roundDiv_le ?_
    nlinarith
  · refine hle.imp_right fun hle => le_roundDiv (by positivity) ?_
    calc d * 2 ^ s * 2 ^ 52 = d * (2 ^ 52 * 2 ^ s) := by ring
      _ ≤ d * (n / d) := Nat.mul_le_mul_left d hle
      _ ≤ n := Nat.mul_div_le n d

/-- The magnitude of bits that say a shift and a significand, carried or not. -/
theorem magnitude_of_bits {y : Binary64} {s k : ℕ} (hexp : y.exponent = (s * 2 ^ 52 + k) / 2 ^ 52)
    (hfraction : y.fraction = (s * 2 ^ 52 + k) % 2 ^ 52) (hk : k ≤ 2 ^ 53)
    (hnormal : s = 0 ∨ 2 ^ 52 ≤ k) : y.magnitude = k * 2 ^ s := by
  unfold magnitude
  rw [hexp, hfraction]
  rcases Nat.lt_or_ge k (2 ^ 52) with hlow | hlow
  · obtain rfl : s = 0 := by omega
    rw [if_pos (by omega)]
    omega
  · rcases Nat.lt_or_ge k (2 ^ 53) with hhigh | hhigh
    · have hdiv : (s * 2 ^ 52 + k) / 2 ^ 52 = s + 1 := by omega
      have hmod : (s * 2 ^ 52 + k) % 2 ^ 52 = k - 2 ^ 52 := by omega
      rw [hdiv, hmod, if_neg (by omega), Nat.add_sub_cancel, Nat.add_sub_cancel' hlow]
    · -- The significand carries into the exponent.
      obtain rfl : k = 2 ^ 53 := by omega
      have hdiv : (s * 2 ^ 52 + 2 ^ 53) / 2 ^ 52 = s + 2 := by omega
      have hmod : (s * 2 ^ 52 + 2 ^ 53) % 2 ^ 52 = 0 := by omega
      rw [hdiv, hmod, if_neg (by omega), Nat.add_zero, show s + 2 - 1 = s + 1 by omega, carry]

/-- The magnitude of a rounded value is the rounded significand, shifted back; an infinite one is
out of the reach of finite values, and so is the exact value then. -/
theorem magnitude_ofUnitsRatio (hd : 0 < d) {s k : ℕ} (hs : shift (n / d) = s)
    (hk : roundDiv n (d * 2 ^ s) = k) :
    ((ofUnitsRatio negative n d).isFinite = true ∧
      (ofUnitsRatio negative n d).magnitude = k * 2 ^ s) ∨
    ∀ x : Binary64, x.isFinite = true → x.magnitude < (ofUnitsRatio negative n d).magnitude ∧
      x.magnitude < k * 2 ^ s := by
  have hbounds := @significand_bounds n d hd
  have hexp := @exponent_ofUnitsRatio n d negative
  have hfraction := @fraction_ofUnitsRatio n d negative
  have hbits : roundedBits n d = min (s * 2 ^ 52 + k) (2047 * 2 ^ 52) := by
    rw [roundedBits, hs, hk]
  rw [hs, hk] at hbounds
  rw [hbits] at hexp hfraction
  rcases Nat.lt_or_ge (s * 2 ^ 52 + k) (2047 * 2 ^ 52) with hlt | hge
  · rw [Nat.min_eq_left hlt.le] at hexp hfraction
    refine Or.inl ⟨?_, magnitude_of_bits hexp hfraction hbounds.1 hbounds.2⟩
    rw [isFinite, hexp, decide_eq_true_iff]
    omega
  · refine Or.inr fun x hx => ?_
    have hexp' : x.exponent < 2 ^ 11 := Nat.mod_lt _ (by positivity)
    rw [isFinite, decide_eq_true_iff] at hx
    rw [Nat.min_eq_right hge, Nat.mul_div_cancel _ (by positivity)] at hexp
    rw [Nat.min_eq_right hge, Nat.mul_mod_left] at hfraction
    -- The greatest exponent is kept out of sight : its power of two is not to be computed.
    obtain ⟨e, he⟩ : ∃ e, e = 2045 := ⟨_, rfl⟩
    have hmag := @magnitude_lt_of_exponent x e (by omega)
    have hinfinite : (ofUnitsRatio negative n d).magnitude = 2 ^ 52 * 2 ^ (e + 1) := by
      rw [magnitude, hexp, hfraction, if_neg (by decide), Nat.add_zero,
        show 2047 - 1 = e + 1 by omega]
    constructor
    · rwa [hinfinite]
    · refine hmag.trans_le ?_
      rcases Nat.lt_or_ge e s with hs' | hs'
      · exact Nat.mul_le_mul (by omega) (Nat.pow_le_pow_right (by decide) hs')
      · obtain ⟨rfl, rfl⟩ : s = e ∧ k = 2 ^ 53 := by omega
        exact (carry s).ge

/-- A rounded significand, shifted back, is at most a double that the exact value exceeds by less
than half a unit in the last place. -/
theorem rounded_le (hd : 0 < d) (h : 2 * n < d * (2 * x.magnitude + 2 ^ (x.exponent - 1))) :
    roundDiv n (d * 2 ^ shift (n / d)) * 2 ^ shift (n / d) ≤ x.magnitude := by
  obtain ⟨hlt, hle⟩ := shift_bounds (n / d)
  have hj := significand_lt x
  have hnormal := normal_or_least x
  rw [magnitude_eq] at h ⊢
  generalize shift (n / d) = s at hlt hle ⊢
  generalize x.significand = j at h hj hnormal ⊢
  generalize x.exponent - 1 = t at h hnormal ⊢
  rcases Nat.lt_trichotomy s t with hst | rfl | hst
  · -- Below the unit of the double, the exact value is below the double.
    obtain ⟨r, rfl⟩ := Nat.exists_eq_add_of_lt hst
    have hj' : 2 ^ 52 ≤ j := by omega
    have hn : n < d * (2 ^ 53 * 2 ^ s) := by
      rw [Nat.mul_comm]
      exact (Nat.div_lt_iff_lt_mul hd).mp hlt
    have hround : roundDiv n (d * 2 ^ s) ≤ j * 2 ^ (r + 1) := by
      refine roundDiv_le ?_
      have hpow : 2 ^ 53 ≤ j * 2 ^ (r + 1) := by
        calc 2 ^ 53 = 2 ^ 52 * 2 ^ 1 := rfl
          _ ≤ j * 2 ^ (r + 1) :=
            Nat.mul_le_mul hj' (Nat.pow_le_pow_right (by decide) (by omega))
      have hd' : 0 < d * 2 ^ s := by positivity
      nlinarith
    calc roundDiv n (d * 2 ^ s) * 2 ^ s ≤ j * 2 ^ (r + 1) * 2 ^ s :=
          Nat.mul_le_mul_right _ hround
      _ = j * 2 ^ (s + r + 1) := by ring
  · refine Nat.mul_le_mul_right _ (roundDiv_le ?_)
    calc 2 * n < d * (2 * (j * 2 ^ s) + 2 ^ s) := h
      _ = d * 2 ^ s * (2 * j + 1) := by ring
  · -- Above it, the exact value is out of reach.
    obtain ⟨r, rfl⟩ := Nat.exists_eq_add_of_lt hst
    have hn : d * (2 ^ 52 * 2 ^ (t + r + 1)) ≤ n :=
      (Nat.mul_le_mul_left d (hle.resolve_left (by omega))).trans (Nat.mul_div_le n d)
    have hpow : 2 ^ t * 2 ≤ 2 ^ (t + r + 1) := by
      rw [← pow_succ]
      exact Nat.pow_le_pow_right (by decide) (by omega)
    have hd' : 0 < d * 2 ^ t := by positivity
    exfalso
    nlinarith

/-- The rounded value is at most a double that the exact one exceeds by less than half a unit in
the last place. -/
theorem ofUnitsRatio_le (hd : 0 < d) (hx : x.isFinite = true)
    (h : 2 * n < d * (2 * x.magnitude + 2 ^ (x.exponent - 1))) :
    (ofUnitsRatio negative n d).isFinite = true ∧
      (ofUnitsRatio negative n d).magnitude ≤ x.magnitude := by
  have hle := rounded_le hd h
  rcases @magnitude_ofUnitsRatio n d negative hd _ _ rfl rfl with ⟨hfinite, hmag⟩ | hinfinite
  · rw [hmag]
    exact ⟨hfinite, hle⟩
  · exact absurd hle (Nat.not_le.mpr (hinfinite x hx).2)

/-- The rounded value is at least a double that the exact one is at least. -/
theorem le_ofUnitsRatio (hd : 0 < d) (hx : x.isFinite = true) (h : d * x.magnitude ≤ n) :
    x.magnitude ≤ (ofUnitsRatio negative n d).magnitude := by
  obtain ⟨-, hnormal⟩ := @significand_bounds n d hd
  rcases @magnitude_ofUnitsRatio n d negative hd _ _ rfl rfl with ⟨-, hmag⟩ | hinfinite
  · rw [hmag]
    have hj := significand_lt x
    rw [magnitude_eq] at h ⊢
    generalize shift (n / d) = s at hnormal ⊢
    generalize x.significand = j at h hj ⊢
    generalize x.exponent - 1 = t at h ⊢
    rcases le_or_gt s t with hst | hst
    · obtain ⟨r, rfl⟩ := Nat.exists_eq_add_of_le hst
      have hround : j * 2 ^ r ≤ roundDiv n (d * 2 ^ s) := by
        refine le_roundDiv (by positivity) ?_
        calc d * 2 ^ s * (j * 2 ^ r) = d * (j * 2 ^ (s + r)) := by ring
          _ ≤ n := h
      calc j * 2 ^ (s + r) = j * 2 ^ r * 2 ^ s := by ring
        _ ≤ roundDiv n (d * 2 ^ s) * 2 ^ s := Nat.mul_le_mul_right _ hround
    · obtain ⟨r, rfl⟩ := Nat.exists_eq_add_of_lt hst
      calc j * 2 ^ t ≤ 2 ^ 53 * 2 ^ t := Nat.mul_le_mul_right _ hj.le
        _ = 2 ^ 52 * 2 ^ (t + 1) := carry t
        _ ≤ roundDiv n (d * 2 ^ (t + r + 1)) * 2 ^ (t + r + 1) :=
          Nat.mul_le_mul (hnormal.resolve_left (by omega))
            (Nat.pow_le_pow_right (by decide) (by omega))
  · exact (hinfinite x hx).1.le

end Rounding

/-! ## Ranges -/

/-- A finite value between two doubles. -/
structure Within (a b x : Binary64) : Prop where
  finite : x.isFinite = true
  low : a.units ≤ x.units
  high : x.units ≤ b.units

section Ranges

variable {a b lo hi x y : Binary64} {n d : ℕ} {negative : Bool}

theorem units_ofUnitsRatio : (ofUnitsRatio negative n d).units =
    if negative then -((ofUnitsRatio negative n d).magnitude : ℤ)
    else (ofUnitsRatio negative n d).magnitude := by
  rw [units, sign_ofUnitsRatio]

theorem units_of_nonneg (h : 0 ≤ x.units) : x.units = x.magnitude := by
  rw [← natAbs_units, Int.natAbs_of_nonneg h]

theorem units_of_nonpos (h : x.units ≤ 0) : x.units = -(x.magnitude : ℤ) := by
  rw [← natAbs_units, Int.ofNat_natAbs_of_nonpos h, Int.neg_neg]

/-- A rounded value lies between the doubles that the exact one lies between. -/
theorem within_ofUnitsRatio (hd : 0 < d) (ha : a.isFinite = true) (hb : b.isFinite = true)
    {v : ℤ} (hv : v = if negative then -(n : ℤ) else n) (hlow : d * a.units ≤ v)
    (hhigh : v ≤ d * b.units) : Within a b (ofUnitsRatio negative n d) := by
  have hd' : (0 : ℤ) < d := by exact_mod_cast hd
  have hupper : ∀ x : Binary64, x.isFinite = true → (n : ℤ) ≤ d * x.magnitude →
      (ofUnitsRatio negative n d).isFinite = true ∧
        (ofUnitsRatio negative n d).magnitude ≤ x.magnitude := by
    intro x hx hn
    have hn' : n ≤ d * x.magnitude := by exact_mod_cast hn
    have hpos : 0 < d * 2 ^ (x.exponent - 1) := by positivity
    refine ofUnitsRatio_le hd hx ?_
    rw [Nat.mul_add, Nat.mul_left_comm]
    omega
  have hlower : ∀ x : Binary64, x.isFinite = true → (d : ℤ) * x.magnitude ≤ n →
      x.magnitude ≤ (ofUnitsRatio negative n d).magnitude :=
    fun x hx hn => le_ofUnitsRatio hd hx (by exact_mod_cast hn)
  have hunits := @units_ofUnitsRatio n d negative
  cases negative with
  | false =>
    rw [if_neg Bool.false_ne_true] at hv hunits
    subst hv
    have hbpos := units_of_nonneg
      (nonneg_of_mul_nonneg_right ((Int.natCast_nonneg n).trans hhigh) hd')
    rw [hbpos] at hhigh
    obtain ⟨hfinite, hle⟩ := hupper b hb hhigh
    refine ⟨hfinite, ?_, by omega⟩
    rcases le_or_gt a.units 0 with hapos | hapos
    · omega
    · have haunits := units_of_nonneg hapos.le
      rw [haunits] at hlow
      have hge := hlower a ha hlow
      omega
  | true =>
    rw [if_pos rfl] at hv hunits
    subst hv
    have haneg := units_of_nonpos
      (nonpos_of_mul_nonpos_right (hlow.trans (neg_nonpos.mpr (Int.natCast_nonneg n))) hd')
    rw [haneg, mul_neg] at hlow
    obtain ⟨hfinite, hle⟩ := hupper a ha (by omega)
    refine ⟨hfinite, by omega, ?_⟩
    rcases le_or_gt 0 b.units with hbneg | hbneg
    · omega
    · have hbunits := units_of_nonpos hbneg.le
      rw [hbunits, mul_neg] at hhigh
      have hge := hlower b hb (by omega)
      omega

/-! ### The operations -/

theorem within_add (hx : x.isFinite = true) (hy : y.isFinite = true) (ha : a.isFinite = true)
    (hb : b.isFinite = true) (hlow : a.units ≤ x.units + y.units)
    (hhigh : x.units + y.units ≤ b.units) : Within a b (x + y) := by
  change Within a b (Binary64.add x y)
  simp only [Binary64.add, not_isNaN_of_isFinite _ hx, not_isNaN_of_isFinite _ hy, hx, hy,
    Bool.or_self, Bool.and_self, Bool.false_eq_true, if_false, if_true]
  refine within_ofUnitsRatio Nat.one_pos ha hb (v := x.units + y.units) ?_
    (by rwa [Nat.cast_one, one_mul]) (by rwa [Nat.cast_one, one_mul])
  generalize x.units + y.units = v
  by_cases hzero : v = 0
  · subst hzero
    simp
  · rw [if_neg hzero]
    by_cases hneg : v < 0
    · rw [if_pos (decide_eq_true hneg)]
      omega
    · rw [if_neg (by rwa [decide_eq_true_iff])]
      omega

/-- The sign of a product or of a quotient. -/
theorem units_mul_units (x y : Binary64) : x.units * y.units =
    if x.sign ^^ y.sign then -((x.magnitude * y.magnitude : ℕ) : ℤ)
    else (x.magnitude * y.magnitude : ℕ) := by
  unfold units
  cases x.sign <;> cases y.sign <;> simp

theorem within_mul (hx : x.isFinite = true) (hy : y.isFinite = true) (ha : a.isFinite = true)
    (hb : b.isFinite = true) (hlow : 2 ^ 1074 * a.units ≤ x.units * y.units)
    (hhigh : x.units * y.units ≤ 2 ^ 1074 * b.units) : Within a b (x * y) := by
  change Within a b (Binary64.mul x y)
  simp only [Binary64.mul, not_isNaN_of_isFinite _ hx, not_isNaN_of_isFinite _ hy, hx, hy,
    Bool.or_self, Bool.and_self, Bool.false_eq_true, if_false, if_true]
  exact within_ofUnitsRatio (by positivity) ha hb (units_mul_units x y)
    (by rwa [Nat.cast_pow, Nat.cast_ofNat]) (by rwa [Nat.cast_pow, Nat.cast_ofNat])

theorem within_div (hx : x.isFinite = true) (hy : y.isFinite = true) (ha : a.isFinite = true)
    (hb : b.isFinite = true) (hpos : 0 < y.units) (hlow : y.units * a.units ≤ x.units * 2 ^ 1074)
    (hhigh : x.units * 2 ^ 1074 ≤ y.units * b.units) : Within a b (x / y) := by
  have hunits := units_of_nonneg hpos.le
  have hmag : 0 < y.magnitude := by omega
  change Within a b (Binary64.div x y)
  simp only [Binary64.div, not_isNaN_of_isFinite _ hx, not_isNaN_of_isFinite _ hy, hx, hy,
    Bool.or_self, Bool.and_self, Bool.false_eq_true, if_false, if_true, hmag.ne', ne_eq,
    not_false_eq_true]
  rw [hunits] at hlow hhigh
  refine within_ofUnitsRatio hmag ha hb (v := x.units * 2 ^ 1074) ?_ hlow hhigh
  have hsign : y.sign = false := by
    rw [units] at hpos
    cases h : y.sign with
    | false => rfl
    | true =>
      rw [h, if_pos rfl] at hpos
      omega
  rw [hsign, Bool.xor_false, Nat.cast_mul, Nat.cast_pow, Nat.cast_ofNat, units]
  split
  · exact neg_mul ..
  · rfl

/-! ### Ranges through the operations -/

theorem Within.mono (h : Within lo hi x) (ha : a.units ≤ lo.units) (hb : hi.units ≤ b.units) :
    Within a b x :=
  ⟨h.finite, ha.trans h.low, h.high.trans hb⟩

/-! The side conditions of a rule are for the constants only, and can be decided. -/

section Constants

variable {c : Binary64}

theorem Within.add_left (hx : Within lo hi x)
    (h : c.isFinite = true ∧ a.isFinite = true ∧ b.isFinite = true ∧
      a.units ≤ c.units + lo.units ∧ c.units + hi.units ≤ b.units) : Within a b (c + x) := by
  obtain ⟨hc, ha, hb, hlow, hhigh⟩ := h
  exact within_add hc hx.finite ha hb (hlow.trans (Int.add_le_add_left hx.low _))
    ((Int.add_le_add_left hx.high _).trans hhigh)

theorem Within.add_right (hx : Within lo hi x)
    (h : c.isFinite = true ∧ a.isFinite = true ∧ b.isFinite = true ∧
      a.units ≤ lo.units + c.units ∧ hi.units + c.units ≤ b.units) : Within a b (x + c) := by
  obtain ⟨hc, ha, hb, hlow, hhigh⟩ := h
  exact within_add hx.finite hc ha hb (hlow.trans (Int.add_le_add_right hx.low _))
    ((Int.add_le_add_right hx.high _).trans hhigh)

theorem Within.mul_left (hx : Within lo hi x)
    (h : c.isFinite = true ∧ 0 ≤ c.units ∧ a.isFinite = true ∧ b.isFinite = true ∧
      2 ^ 1074 * a.units ≤ c.units * lo.units ∧ c.units * hi.units ≤ 2 ^ 1074 * b.units) :
    Within a b (c * x) := by
  obtain ⟨hc, hpos, ha, hb, hlow, hhigh⟩ := h
  exact within_mul hc hx.finite ha hb (hlow.trans (Int.mul_le_mul_of_nonneg_left hx.low hpos))
    ((Int.mul_le_mul_of_nonneg_left hx.high hpos).trans hhigh)

theorem Within.mul_right (hx : Within lo hi x)
    (h : c.isFinite = true ∧ 0 ≤ c.units ∧ a.isFinite = true ∧ b.isFinite = true ∧
      2 ^ 1074 * a.units ≤ lo.units * c.units ∧ hi.units * c.units ≤ 2 ^ 1074 * b.units) :
    Within a b (x * c) := by
  obtain ⟨hc, hpos, ha, hb, hlow, hhigh⟩ := h
  exact within_mul hx.finite hc ha hb (hlow.trans (Int.mul_le_mul_of_nonneg_right hx.low hpos))
    ((Int.mul_le_mul_of_nonneg_right hx.high hpos).trans hhigh)

theorem Within.div_right (hx : Within lo hi x)
    (h : c.isFinite = true ∧ 0 < c.units ∧ a.isFinite = true ∧ b.isFinite = true ∧
      c.units * a.units ≤ lo.units * 2 ^ 1074 ∧ hi.units * 2 ^ 1074 ≤ c.units * b.units) :
    Within a b (x / c) := by
  obtain ⟨hc, hpos, ha, hb, hlow, hhigh⟩ := h
  have hunit : (0 : ℤ) ≤ 2 ^ 1074 := by positivity
  exact within_div hx.finite hc ha hb hpos
    (hlow.trans (Int.mul_le_mul_of_nonneg_right hx.low hunit))
    ((Int.mul_le_mul_of_nonneg_right hx.high hunit).trans hhigh)

end Constants

/-- A sum with less than half of what the last place of `b` counts does not get over `b`. -/
theorem Within.add_saturates {z : Binary64} (hx : Within z b x) (hy : y.isFinite = true)
    (hz : 0 ≤ z.units) (hpos : 0 ≤ y.units) (hb : b.isFinite = true)
    (hhalf : 2 * y.units < 2 ^ (b.exponent - 1)) : Within x b (x + y) := by
  have hlow := hx.low
  have hhigh := hx.high
  obtain ⟨n, hn⟩ := Int.eq_ofNat_of_zero_le (add_nonneg (hz.trans hlow) hpos)
  rcases Nat.eq_zero_or_pos n with rfl | hn'
  · exact within_add hx.finite hy hx.finite hb (by omega) (by omega)
  · have hbunits := units_of_nonneg (hz.trans (hlow.trans hhigh))
    have hxunits := units_of_nonneg (hz.trans hlow)
    have hunits := @units_ofUnitsRatio n 1 false
    rw [if_neg Bool.false_ne_true] at hunits
    have hadd : x + y = ofUnitsRatio false n 1 := by
      change Binary64.add x y = _
      simp only [Binary64.add, not_isNaN_of_isFinite _ hx.finite, not_isNaN_of_isFinite _ hy,
        hx.finite, hy, hn, Bool.or_self, Bool.and_self, Bool.false_eq_true, if_false, if_true]
      rw [if_neg (by omega), decide_eq_false (by omega), Int.natAbs_natCast]
    have hhalf' : (2 * n : ℤ) < (1 * (2 * b.magnitude + 2 ^ (b.exponent - 1)) : ℕ) := by
      push_cast
      omega
    obtain ⟨hfinite, hle⟩ :=
      @ofUnitsRatio_le b n 1 false Nat.one_pos hb (by exact_mod_cast hhalf')
    have hge := @le_ofUnitsRatio x n 1 false Nat.one_pos hx.finite (by omega)
    rw [hadd]
    exact ⟨hfinite, by omega, by omega⟩

/-! ### Absolute values, maxima and minima -/

theorem toNat_abs (x : Binary64) : (abs x).bits.toNat = x.bits.toNat % 2 ^ 63 :=
  (BitVec.toNat_ofNat ..).trans (Nat.mod_eq_of_lt (by omega))

theorem exponent_abs (x : Binary64) : (abs x).exponent = x.exponent := by
  rw [exponent, exponent, toNat_abs]
  omega

theorem isFinite_abs (x : Binary64) : (abs x).isFinite = x.isFinite := by
  rw [isFinite, isFinite, exponent_abs]

theorem units_abs (x : Binary64) : (abs x).units = x.magnitude := by
  have hsign : (abs x).sign = false := by
    rw [sign, BitVec.msb_eq_decide, toNat_abs, decide_eq_false_iff_not]
    omega
  have hfraction : (abs x).fraction = x.fraction := by
    rw [fraction, fraction, toNat_abs]
    omega
  rw [units, hsign, if_neg Bool.false_ne_true, magnitude, magnitude, exponent_abs, hfraction]

theorem Within.abs {z : Binary64} (hx : Within a b x) (hz : z.units = 0)
    (hab : -b.units ≤ a.units) : Within z b (abs x) := by
  have hlow := hx.low
  have hhigh := hx.high
  have hmag := natAbs_units x
  refine ⟨(isFinite_abs x).trans hx.finite, ?_, ?_⟩ <;> rw [units_abs] <;> omega

theorem Within.max (hx : Within a b x) (hy : y.isFinite = true) (hhigh : y.units ≤ b.units) :
    Within a b (Binary64.max x y) := by
  unfold Binary64.max
  split
  · next h => exact ⟨hy, hx.low.trans h.2.2.le, hhigh⟩
  · exact hx

theorem Within.min (hy : Within a b y) (hx : x.isFinite = true) (hhigh : b.units < x.units) :
    Within a b (Binary64.min x y) := by
  have hlt : y < x := ⟨not_isNaN_of_isFinite _ hy.finite, not_isNaN_of_isFinite _ hx,
    hy.high.trans_lt hhigh⟩
  rwa [Binary64.min, if_pos hlt]

/-! ### Truncation -/

/-- A nonnegative value that fits is truncated. -/
theorem toUnsigned_of_fits (undef : ℕ → Binary64 → ℕ) {w : ℕ} (hx : x.isFinite = true)
    (hpos : 0 ≤ x.units) (hfits : x.magnitude / 2 ^ 1074 < 2 ^ w) :
    toUnsigned undef w x = x.magnitude / 2 ^ 1074 := by
  have htruncate : x.truncate = (x.magnitude / 2 ^ 1074 : ℕ) := by
    rw [units] at hpos
    unfold truncate
    split
    · next hsign =>
      rw [if_pos hsign] at hpos
      have hzero : x.magnitude = 0 := by omega
      rw [hzero, Nat.zero_div]
      rfl
    · rfl
  rw [toUnsigned, htruncate, if_pos ⟨hx, Int.natCast_nonneg _, by exact_mod_cast hfits⟩,
    Int.toNat_natCast]

/-- A value between two naturals is truncated to one between them. -/
theorem Within.toUnsigned (undef : ℕ → Binary64 → ℕ) {w m n : ℕ} (hx : Within a b x)
    (ha : a.units = m * 2 ^ 1074) (hb : b.units = n * 2 ^ 1074) (hn : n < 2 ^ w) :
    m ≤ toUnsigned undef w x ∧ toUnsigned undef w x ≤ n := by
  have hunit : (0 : ℤ) ≤ 2 ^ 1074 := by positivity
  have hpos : 0 ≤ x.units := by
    refine le_trans ?_ hx.low
    rw [ha]
    exact mul_nonneg (Int.natCast_nonneg m) hunit
  have hlow := hx.low
  have hhigh := hx.high
  rw [ha, units_of_nonneg hpos] at hlow
  rw [hb, units_of_nonneg hpos] at hhigh
  have hlow' : m ≤ x.magnitude / 2 ^ 1074 :=
    (Nat.le_div_iff_mul_le (by positivity)).mpr (by exact_mod_cast hlow)
  have hhigh' : x.magnitude / 2 ^ 1074 ≤ n := Nat.div_le_of_le_mul (by
    rw [Nat.mul_comm]
    exact_mod_cast hhigh)
  rw [toUnsigned_of_fits undef hx.finite hpos (hhigh'.trans_lt hn)]
  exact ⟨hlow', hhigh'⟩

end Ranges

end Binary64
