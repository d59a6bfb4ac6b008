import Obcsw.Binary64Arithmetic
import Obcsw.SafeMode

/-!
# The simulated frame

`generateFrame` computes its measurements from `t_s`, the simulated seconds, which `main` adds
up from zero. `std::sin` is a parameter, and so is the wall clock; the rest is arithmetic on
doubles. Where the sine keeps to its range, every measurement is finite and in a range of its
own (`inRange_generateFrame`), and the conversion of the charge is defined. `t_s` never goes
back and never gets over `2 ^ 76`, where another second is lost in rounding (`t_s_within`); a
whole number of seconds adds up exactly while it has 53 bits (`t_s_of_whole`).
-/

set_option linter.unusedSectionVars false

namespace Obcsw

/-- `std::sin`, and what a conversion to an unsigned type gives where it is undefined. -/
structure MathLibrary where
  sin : Binary64 → Binary64
  undef : ℕ → Binary64 → ℕ

/-- The sine of a finite value keeps to its range. -/
structure MathLibrary.Lawful (M : MathLibrary) : Prop where
  sin : ∀ x, x.isFinite = true → Binary64.Within (-1.0) 1.0 (M.sin x)

namespace Main

open Binary64 (Within)

/-- The measurements of `generateFrame` at `t_s`, but for the two that come from the frame id. -/
def simulate (M : MathLibrary) (timestamp_ms : UInt64) (t_s : Binary64) : Simulation :=
  -- Sinusoidal battery sim
  let cycle := M.sin (t_s / 21600.0 * 3.14159)
  { timestamp_ms
    battery_voltage_v := 7.4 + 0.8 * cycle
    battery_current_ma := 300.0 + 150.0 * cycle.abs
    solar_input_w := Binary64.max 0.0 (12.0 * cycle)
    charge_pct := .ofNat (Binary64.toUnsigned M.undef 8 (Binary64.min 100.0 (50.0 + 40.0 * cycle)))
    -- Temperature oscillates with orbit
    obc_temp_c := 25.0 + 15.0 * M.sin (t_s / 5400.0 * 3.14159)
    battery_temp_c := 20.0 + 10.0 * M.sin (t_s / 5400.0 * 3.14159 + 0.5)
    payload_temp_c := 30.0 + 20.0 * M.sin (t_s / 5400.0 * 3.14159 + 1.0)
    uptime_s := .ofNat (Binary64.toUnsigned M.undef 64 t_s) }

/-- What an iteration adds to `t_s`. -/
def dt_s (cfg : SatelliteConfig) : Binary64 :=
  Binary64.ofNat cfg.telemetry_dispatch_interval_ms.toNat / 1000.0

/-- `t_s` after so many iterations. -/
def t_s (cfg : SatelliteConfig) : ℕ → Binary64
  | 0 => 0.0
  | n + 1 => t_s cfg n + dt_s cfg

/-! ## The seconds -/

section Seconds

variable (cfg : SatelliteConfig)

/-- `2 ^ 76`. -/
def lastSecond : Binary64 :=
  75557863725914323419136.0

theorem dt_s_within : Within 0.0 4294968.0 (dt_s cfg) := by
  have hlt := cfg.telemetry_dispatch_interval_ms.toNat_lt
  obtain ⟨hfinite, hunits⟩ := Binary64.units_ofNat
    (n := cfg.telemetry_dispatch_interval_ms.toNat) (hlt.trans (by decide))
  have hunit : (0 : ℤ) ≤ 2 ^ 1074 := by positivity
  have hzero : (0.0 : Binary64).units = 0 := by decide +kernel
  have hlast : (4294967295.0 : Binary64).units = (4294967295 : ℕ) * 2 ^ 1074 := by decide +kernel
  have hinterval : Within 0.0 4294967295.0
      (Binary64.ofNat cfg.telemetry_dispatch_interval_ms.toNat) := by
    refine ⟨hfinite, ?_, ?_⟩
    · rw [hunits, hzero]
      exact mul_nonneg (Int.natCast_nonneg _) hunit
    · rw [hunits, hlast]
      exact Int.mul_le_mul_of_nonneg_right (by omega) hunit
  rw [dt_s]
  exact hinterval.div_right (by decide +kernel)

/-- The seconds do not go back, and stay finite for ever. -/
theorem t_s_within (n : ℕ) : Within 0.0 lastSecond (t_s cfg n) ∧
    (t_s cfg n).units ≤ (t_s cfg (n + 1)).units := by
  have hdt := dt_s_within cfg
  have hzero : (0.0 : Binary64).units = 0 := by decide +kernel
  have hhalf : 2 * (4294968.0 : Binary64).units < 2 ^ (lastSecond.exponent - 1) := by
    decide +kernel
  have hlast : lastSecond.isFinite = true := by decide +kernel
  have hstep : ∀ t, Within 0.0 lastSecond t → Within t lastSecond (t + dt_s cfg) := by
    intro t ht
    refine ht.add_saturates hdt.finite hzero.ge (hzero.ge.trans hdt.low) hlast ?_
    exact (Int.mul_le_mul_of_nonneg_left hdt.high (by decide)).trans_lt hhalf
  induction n with
  | zero =>
    have hstart : Within 0.0 lastSecond 0.0 :=
      ⟨by decide +kernel, le_rfl, by decide +kernel⟩
    exact ⟨hstart, (hstep _ hstart).low⟩
  | succ n ih =>
    have hnext : Within 0.0 lastSecond (t_s cfg (n + 1)) :=
      (hstep _ ih.1).mono ih.1.low le_rfl
    exact ⟨hnext, (hstep _ hnext).low⟩

theorem t_s_mono {m n : ℕ} (h : m ≤ n) : (t_s cfg m).units ≤ (t_s cfg n).units := by
  induction h with
  | refl => exact le_rfl
  | step _ ih => exact ih.trans (t_s_within cfg _).2

/-- Whole seconds add up exactly while they have 53 bits. -/
theorem t_s_of_whole {k : ℕ} (hk : cfg.telemetry_dispatch_interval_ms.toNat = 1000 * k) {n : ℕ}
    (hn : n * k < 2 ^ 53) :
    (t_s cfg n).isFinite = true ∧ (t_s cfg n).units = (n * k : ℕ) * 2 ^ 1074 := by
  induction n with
  | zero =>
    rw [Nat.zero_mul, Nat.cast_zero, zero_mul]
    change (0.0 : Binary64).isFinite = true ∧ (0.0 : Binary64).units = 0
    decide +kernel
  | succ n ih =>
    have hlt := cfg.telemetry_dispatch_interval_ms.toNat_lt
    rw [Nat.succ_mul] at hn
    obtain ⟨hfinite, hunits⟩ := ih (by omega)
    obtain ⟨hki, hku⟩ := Binary64.units_ofNat (n := k) (by omega)
    obtain ⟨hsi, hsu⟩ := Binary64.units_ofNat hn
    obtain ⟨hdi, hdu⟩ := Binary64.units_ofNat (n := 1000 * k) (by omega)
    have hthousand : (1000.0 : Binary64).units = (1000 : ℕ) * 2 ^ 1074 := by decide +kernel
    have hquotient : (1000.0 : Binary64).units * (Binary64.ofNat k).units =
        (Binary64.ofNat (1000 * k)).units * 2 ^ 1074 := by
      rw [hku, hdu, hthousand, Nat.cast_mul]
      exact (mul_mul_mul_comm ..).trans (mul_assoc ..).symm
    have hdt : Within (.ofNat k) (.ofNat k) (dt_s cfg) := by
      rw [dt_s, hk]
      refine Binary64.within_div hdi (by decide +kernel) hki hki ?_ hquotient.le hquotient.ge
      decide +kernel
    have hdt' : (dt_s cfg).units = k * 2 ^ 1074 := hku ▸ le_antisymm hdt.high hdt.low
    have hsum : (t_s cfg n).units + (dt_s cfg).units = (Binary64.ofNat (n * k + k)).units := by
      rw [hunits, hdt', hsu, Nat.cast_add]
      exact (add_mul ..).symm
    have hnext := Binary64.within_add hfinite hdt.finite hsi hsi hsum.ge hsum.le
    rw [Nat.succ_mul, ← hsu]
    exact ⟨hnext.finite, le_antisymm hnext.high hnext.low⟩

end Seconds

/-! ## The ranges -/

/-- The measurements of a frame are finite, and in the ranges of the simulation. -/
structure InRange (f : TelemetryFrame) : Prop where
  battery_voltage_v : Within 6.6 8.3 f.battery_voltage_v
  battery_current_ma : Within 300.0 450.0 f.battery_current_ma
  solar_input_w : Within 0.0 12.0 f.solar_input_w
  charge_pct : 10 ≤ f.charge_pct ∧ f.charge_pct ≤ 90
  obc_temp_c : Within 10.0 40.0 f.obc_temp_c
  battery_temp_c : Within 10.0 30.0 f.battery_temp_c
  payload_temp_c : Within 10.0 50.0 f.payload_temp_c
  cpu_usage_pct : 30 ≤ f.cpu_usage_pct ∧ f.cpu_usage_pct ≤ 89
  memory_usage_pct : 40 ≤ f.memory_usage_pct ∧ f.memory_usage_pct ≤ 84

variable {M : MathLibrary}

/-- What the sine is taken of is finite, and so the sine is in its range. -/
theorem sin_within (hM : M.Lawful) {t : Binary64} (ht : Within 0.0 lastSecond t) :
    Within (-1.0) 1.0 (M.sin (t / 21600.0 * 3.14159)) ∧
      Within (-1.0) 1.0 (M.sin (t / 5400.0 * 3.14159)) ∧
      Within (-1.0) 1.0 (M.sin (t / 5400.0 * 3.14159 + 0.5)) ∧
      Within (-1.0) 1.0 (M.sin (t / 5400.0 * 3.14159 + 1.0)) := by
  -- Any bounds will do : these are powers of two.
  have hslow : Within 0.0 lastSecond (t / 21600.0) := ht.div_right (by decide +kernel)
  have hfast : Within 0.0 lastSecond (t / 5400.0) := ht.div_right (by decide +kernel)
  have hslow' : Within 0.0 302231454903657293676544.0 (t / 21600.0 * 3.14159) :=
    hslow.mul_right (by decide +kernel)
  have hfast' : Within 0.0 302231454903657293676544.0 (t / 5400.0 * 3.14159) :=
    hfast.mul_right (by decide +kernel)
  have hhalf : Within 0.0 604462909807314587353088.0 (t / 5400.0 * 3.14159 + 0.5) :=
    hfast'.add_right (by decide +kernel)
  have hone : Within 0.0 604462909807314587353088.0 (t / 5400.0 * 3.14159 + 1.0) :=
    hfast'.add_right (by decide +kernel)
  exact ⟨hM.sin _ hslow'.finite, hM.sin _ hfast'.finite, hM.sin _ hhalf.finite,
    hM.sin _ hone.finite⟩

/-- A frame generated at any second is in range. -/
theorem inRange_generateFrame (hM : M.Lawful) {t : Binary64} (ht : Within 0.0 lastSecond t)
    (timestamp_ms frame_id : UInt64) (satellite_id : Bytes) : InRange
      (generateFrame ((simulate M timestamp_ms t).measure frame_id) frame_id satellite_id) := by
  obtain ⟨hcycle, hobc, hbattery, hpayload⟩ := sin_within hM ht
  have hcpu := toNat_cpu_usage_pct (simulate M timestamp_ms t) frame_id
  have hmemory := toNat_memory_usage_pct (simulate M timestamp_ms t) frame_id
  simp only [simulate, generateFrame, Simulation.measure] at hcpu hmemory ⊢
  generalize M.sin (t / 21600.0 * 3.14159) = cycle at hcycle ⊢
  generalize M.sin (t / 5400.0 * 3.14159) = obc at hobc ⊢
  generalize M.sin (t / 5400.0 * 3.14159 + 0.5) = battery at hbattery ⊢
  generalize M.sin (t / 5400.0 * 3.14159 + 1.0) = payload at hpayload ⊢
  have hvoltage : Within (-0.8) 0.8 (0.8 * cycle) := hcycle.mul_left (by decide +kernel)
  have hmagnitude : Within 0.0 1.0 cycle.abs := hcycle.abs (by decide +kernel) (by decide +kernel)
  have hcurrent : Within 0.0 150.0 (150.0 * cycle.abs) := hmagnitude.mul_left (by decide +kernel)
  have hsolar : Within (-12.0) 12.0 (12.0 * cycle) := hcycle.mul_left (by decide +kernel)
  have hcharge : Within (-40.0) 40.0 (40.0 * cycle) := hcycle.mul_left (by decide +kernel)
  have hpercent : Within 10.0 90.0 (50.0 + 40.0 * cycle) := hcharge.add_left (by decide +kernel)
  have hzero : Within 0.0 12.0 0.0 := by constructor <;> decide +kernel
  have hsolar' : Within 0.0 12.0 (Binary64.max 0.0 (12.0 * cycle)) :=
    hzero.max hsolar.finite hsolar.high
  have hten : (10.0 : Binary64).units = (10 : ℕ) * 2 ^ 1074 := by decide +kernel
  have hninety : (90.0 : Binary64).units = (90 : ℕ) * 2 ^ 1074 := by decide +kernel
  have hcharge' := (hpercent.min (x := 100.0) (by decide +kernel) (by decide +kernel)).toUnsigned
    M.undef (w := 8) hten hninety (by decide)
  have hobc' : Within (-15.0) 15.0 (15.0 * obc) := hobc.mul_left (by decide +kernel)
  have hbattery' : Within (-10.0) 10.0 (10.0 * battery) := hbattery.mul_left (by decide +kernel)
  have hpayload' : Within (-20.0) 20.0 (20.0 * payload) := hpayload.mul_left (by decide +kernel)
  exact {
    battery_voltage_v := hvoltage.add_left (by decide +kernel)
    battery_current_ma := hcurrent.add_left (by decide +kernel)
    solar_input_w := by
      dsimp only
      exact hsolar'
    charge_pct := by
      rw [UInt8.le_iff_toNat_le, UInt8.le_iff_toNat_le,
        UInt8.toNat_ofNat_of_lt' (hcharge'.2.trans_lt (by decide))]
      exact hcharge'
    obc_temp_c := hobc'.add_left (by decide +kernel)
    battery_temp_c := hbattery'.add_left (by decide +kernel)
    payload_temp_c := hpayload'.add_left (by decide +kernel)
    cpu_usage_pct := by
      rw [UInt8.le_iff_toNat_le, UInt8.le_iff_toNat_le, hcpu]
      exact ⟨Nat.le_add_right .., Nat.add_le_add_left (Nat.le_of_lt_succ
        (Nat.mod_lt frame_id.toNat (by decide : 60 > 0))) 30⟩
    memory_usage_pct := by
      rw [UInt8.le_iff_toNat_le, UInt8.le_iff_toNat_le, hmemory]
      exact ⟨Nat.le_add_right .., Nat.add_le_add_left (Nat.le_of_lt_succ
        (Nat.mod_lt frame_id.toNat (by decide : 45 > 0))) 40⟩ }

end Main

end Obcsw
