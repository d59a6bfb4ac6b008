import Obcsw.Configuration
import Obcsw.FaultDetector

/-!
# Thresholds and reports

What `evaluate` reports of a frame, against the six bounds of the configuration.

* Every violated bound has its own event, except that a temperature above the maximum hides
  the check against the minimum. `load` orders the battery bounds and not the temperature
  bounds, so a loaded configuration can have both temperature bounds violated at once
  (`reportsEach_iff`).
* The checks ask whether a measurement is outside, and a NaN is neither outside nor inside.
  Silence means in range unless the battery voltage or the temperature is a NaN
  (`silent_inRange_iff`).
-/

set_option linter.unusedSectionVars false

open Exceptions Program

namespace Obcsw.FaultDetector

/-! ## The events fired -/

/-- A callback that keeps the events. -/
def recordEvent (e : FaultEvent) : Obc (List FaultEvent) PUnit :=
  update (· ++ [e])

/-- The events that `evaluate` fires with a callback set. -/
def fired (cfg : SatelliteConfig) (frame : TelemetryFrame) : List FaultEvent :=
  ((evaluate ⟨cfg, some recordEvent⟩ frame).run []).state

theorem fired_eq (cfg : SatelliteConfig) (frame : TelemetryFrame) :
    fired cfg frame = faults cfg frame := by
  have hbody : ∀ e s, (recordEvent e).Returns s [] ⟨⟩ (s ++ [e]) := fun _ _ => rfl
  have hrun := Prog.Returns.forM hbody (faults cfg frame) []
  unfold Prog.Returns at hrun
  rw [fired, evaluate_eq, hrun, List.foldl_append_eq_append, List.nil_append]
  exact List.flatMap_singleton' _

/-! ## The six bounds -/

/-- The bounds that `evaluate` compares with, named as in the configuration. -/
inductive Bound
  | battery_voltage_min
  | battery_voltage_max
  | temperature_max
  | temperature_min
  | cpu_usage_max
  | memory_usage_max

/-- An event without its text. -/
structure Report where
  code : FaultCode
  measured_value : Binary64
  threshold_value : Binary64

def bounds : List Bound :=
  [.battery_voltage_min, .battery_voltage_max, .temperature_max, .temperature_min,
    .cpu_usage_max, .memory_usage_max]

/-- The order of the checks, by what they are about : battery, temperature, CPU, memory. -/
def checkOrder : FaultCode → ℕ
  | .NONE => 0
  | .LOW_BATTERY => 1
  | .OVER_TEMPERATURE | .UNDER_TEMPERATURE => 2
  | .CPU_OVERLOAD => 3
  | .MEMORY_OVERLOAD => 4

def reportOf (e : FaultEvent) : Report :=
  ⟨e.code, e.measured_value, e.threshold_value⟩

section Reports

variable (cfg : SatelliteConfig) (frame : TelemetryFrame)

def Bound.violated : Bound → Bool
  | .battery_voltage_min => frame.battery_voltage_v < cfg.battery_voltage_min_v
  | .battery_voltage_max => frame.battery_voltage_v > cfg.battery_voltage_max_v
  | .temperature_max => frame.obc_temp_c > cfg.temperature_max_c
  | .temperature_min => frame.obc_temp_c < cfg.temperature_min_c
  | .cpu_usage_max => frame.cpu_usage_pct > cfg.cpu_usage_max_pct
  | .memory_usage_max => frame.memory_usage_pct > cfg.memory_usage_max_pct

/-- What the violation of a bound is to be reported as. -/
def Bound.report : Bound → Report
  | .battery_voltage_min =>
    ⟨.LOW_BATTERY, frame.battery_voltage_v, cfg.battery_voltage_min_v⟩
  | .battery_voltage_max =>
    ⟨.LOW_BATTERY, frame.battery_voltage_v, cfg.battery_voltage_max_v⟩
  | .temperature_max => ⟨.OVER_TEMPERATURE, frame.obc_temp_c, cfg.temperature_max_c⟩
  | .temperature_min => ⟨.UNDER_TEMPERATURE, frame.obc_temp_c, cfg.temperature_min_c⟩
  | .cpu_usage_max =>
    ⟨.CPU_OVERLOAD, .ofNat frame.cpu_usage_pct.toNat, .ofNat cfg.cpu_usage_max_pct.toNat⟩
  | .memory_usage_max =>
    ⟨.MEMORY_OVERLOAD, .ofNat frame.memory_usage_pct.toNat,
      .ofNat cfg.memory_usage_max_pct.toNat⟩

/-- The reports of the violated bounds among some. -/
def due (bs : List Bound) : List Report :=
  (bs.filter (Bound.violated cfg frame)).map (Bound.report cfg frame)

/-- The events are, one to one, the reports of the violated bounds, in the order of the
checks. -/
def ReportsEach (events : List FaultEvent) : Prop :=
  (events.map reportOf).Perm (due cfg frame bounds) ∧
    events.Pairwise fun e e' => checkOrder e.code ≤ checkOrder e'.code

theorem due_append (bs bs' : List Bound) :
    due cfg frame (bs ++ bs') = due cfg frame bs ++ due cfg frame bs' := by
  rw [due, due, due, List.filter_append, List.map_append]

/-- Ordered battery bounds are not violated at once. -/
theorem battery_not_both (h : ¬cfg.battery_voltage_min_v ≥ cfg.battery_voltage_max_v) :
    ¬(frame.battery_voltage_v < cfg.battery_voltage_min_v ∧
      frame.battery_voltage_v > cfg.battery_voltage_max_v) := by
  rintro ⟨hlow, hhigh⟩
  refine h (Binary64.le_iff.mpr ⟨hhigh.1, hlow.2.1, ?_⟩)
  have hlow := hlow.2.2
  have hhigh := hhigh.2.2
  omega

theorem batteryFaults_reports (h : ¬(frame.battery_voltage_v < cfg.battery_voltage_min_v ∧
    frame.battery_voltage_v > cfg.battery_voltage_max_v)) :
    (batteryFaults cfg frame).map reportOf =
      due cfg frame [.battery_voltage_min, .battery_voltage_max] := by
  unfold batteryFaults due
  split_ifs with hlow hhigh
  · have hhigh : ¬frame.battery_voltage_v > cfg.battery_voltage_max_v := fun h' => h ⟨hlow, h'⟩
    simp [Bound.violated, Bound.report, reportOf, hlow, hhigh]
  · simp [Bound.violated, Bound.report, reportOf, hlow, hhigh]
  · simp [Bound.violated, hlow, hhigh]

theorem temperatureFaults_reports (h : ¬(frame.obc_temp_c > cfg.temperature_max_c ∧
    frame.obc_temp_c < cfg.temperature_min_c)) :
    (temperatureFaults cfg frame).map reportOf =
      due cfg frame [.temperature_max, .temperature_min] := by
  unfold temperatureFaults due
  split_ifs with hhigh hlow
  · have hlow : ¬frame.obc_temp_c < cfg.temperature_min_c := fun h' => h ⟨hhigh, h'⟩
    simp [Bound.violated, Bound.report, reportOf, hlow, hhigh]
  · simp [Bound.violated, Bound.report, reportOf, hlow, hhigh]
  · simp [Bound.violated, hlow, hhigh]

theorem resourceFaults_reports : (cpuFaults cfg frame ++ memoryFaults cfg frame).map reportOf =
    due cfg frame [.cpu_usage_max, .memory_usage_max] := by
  unfold cpuFaults memoryFaults due
  split_ifs with hcpu hmem hmem <;> simp [Bound.violated, Bound.report, reportOf, *]

/-- Away from a temperature on both wrong sides the events are the reports due, in order. -/
theorem faults_reports
    (hbattery : ¬cfg.battery_voltage_min_v ≥ cfg.battery_voltage_max_v)
    (htemp : ¬(frame.obc_temp_c > cfg.temperature_max_c ∧
      frame.obc_temp_c < cfg.temperature_min_c)) :
    (faults cfg frame).map reportOf = due cfg frame bounds := by
  rw [faults, List.map_append, List.map_append, resourceFaults_reports,
    temperatureFaults_reports cfg frame htemp,
    batteryFaults_reports cfg frame (battery_not_both cfg frame hbattery), ← due_append,
    ← due_append]
  rfl

/-- A temperature on both wrong sides is reported once and due twice. -/
theorem length_due_of_both (hbattery : ¬cfg.battery_voltage_min_v ≥ cfg.battery_voltage_max_v)
    (htemp : frame.obc_temp_c > cfg.temperature_max_c ∧
      frame.obc_temp_c < cfg.temperature_min_c) :
    (due cfg frame bounds).length = ((faults cfg frame).map reportOf).length + 1 := by
  have htemperature : (temperatureFaults cfg frame).length = 1 := by
    rw [temperatureFaults, if_pos htemp.1, List.length_singleton]
  have hdue : (due cfg frame [.temperature_max, .temperature_min]).length = 2 := by
    simp [due, Bound.violated, htemp.1, htemp.2]
  have hbatteries := congrArg List.length
    (batteryFaults_reports cfg frame (battery_not_both cfg frame hbattery))
  have hresources := congrArg List.length (resourceFaults_reports cfg frame)
  rw [show bounds = [.battery_voltage_min, .battery_voltage_max] ++
    [.temperature_max, .temperature_min] ++ [.cpu_usage_max, .memory_usage_max] from rfl,
    due_append, due_append]
  simp only [faults, List.length_map, List.length_append] at *
  omega

/-- Each check fires at most one event, and the checks follow each other. -/
theorem checkOrder_sublist :
    ((faults cfg frame).map fun e => checkOrder e.code).Sublist [1, 2, 3, 4] := by
  have hbattery : ((batteryFaults cfg frame).map fun e => checkOrder e.code).Sublist [1] := by
    unfold batteryFaults
    split_ifs <;> simp [checkOrder]
  have htemp : ((temperatureFaults cfg frame).map fun e => checkOrder e.code).Sublist [2] := by
    unfold temperatureFaults
    split_ifs <;> simp [checkOrder]
  have hcpu : ((cpuFaults cfg frame).map fun e => checkOrder e.code).Sublist [3] := by
    unfold cpuFaults
    split_ifs <;> simp [checkOrder]
  have hmem : ((memoryFaults cfg frame).map fun e => checkOrder e.code).Sublist [4] := by
    unfold memoryFaults
    split_ifs <;> simp [checkOrder]
  rw [faults, List.map_append, List.map_append, List.map_append]
  exact (hbattery.append htemp).append (hcpu.append hmem)

/-- The events come in the order of the checks. -/
theorem faults_ordered : (faults cfg frame).Pairwise fun e e' =>
    checkOrder e.code ≤ checkOrder e'.code := by
  have hsorted : [1, 2, 3, 4].Pairwise (· ≤ ·) := by
    decide
  exact List.pairwise_map.mp (hsorted.sublist (checkOrder_sublist cfg frame))

/-- With ordered battery bounds every violation has its own event, unless the temperature is
on both wrong sides. -/
theorem faults_reportsEach_iff
    (hbattery : ¬cfg.battery_voltage_min_v ≥ cfg.battery_voltage_max_v) :
    ReportsEach cfg frame (faults cfg frame) ↔
      ¬(frame.obc_temp_c > cfg.temperature_max_c ∧ frame.obc_temp_c < cfg.temperature_min_c) := by
  constructor
  · rintro ⟨hperm, -⟩ htemp
    have hlength := length_due_of_both cfg frame hbattery htemp
    rw [hperm.length_eq] at hlength
    omega
  · intro htemp
    refine ⟨?_, faults_ordered cfg frame⟩
    rw [faults_reports cfg frame hbattery htemp]

/-- Under a loaded configuration every violated bound is reported exactly once, in order,
unless the temperature is on both wrong sides. -/
theorem reportsEach_iff {L : YamlLibrary} {yaml_path : String}
    (hload : ConfigLoader.load L yaml_path = .ok cfg) :
    ReportsEach cfg frame (fired cfg frame) ↔
      ¬(frame.obc_temp_c > cfg.temperature_max_c ∧ frame.obc_temp_c < cfg.temperature_min_c) := by
  obtain ⟨root, -, -, hvalid, rfl⟩ := ConfigLoader.load_eq_ok hload
  rw [fired_eq]
  exact faults_reportsEach_iff _ frame hvalid.2

end Reports

/-! ### Frames to try -/

/-- A frame within the default thresholds, but for its temperature. -/
def frameAt (obc_temp_c : Binary64) : TelemetryFrame where
  battery_voltage_v := 7.4
  obc_temp_c := obc_temp_c
  cpu_usage_pct := 45
  memory_usage_pct := 50

/-- A document whose minimum temperature is above the default maximum of 85. -/
def coldDocument : Yaml :=
  ConfigLoader.thresholdDocument [("temperature_min_c", ConfigLoader.scalarOf "90")]

def coldConfig : SatelliteConfig :=
  ConfigLoader.configured ConfigLoader.decimalLibrary coldDocument

theorem load_cold : ConfigLoader.load (ConfigLoader.decimalLibrary.serving coldDocument)
    "satellite.yaml" = .ok coldConfig :=
  ConfigLoader.load_of_valid rfl (by decide +kernel) (by decide +kernel)

/-- At 87 degrees both temperature bounds of that document are violated, and one is
reported. -/
theorem cold_not_reportsEach :
    ConfigLoader.load (ConfigLoader.decimalLibrary.serving coldDocument) "satellite.yaml" =
        .ok coldConfig ∧
      coldConfig.temperature_min_c.isNaN = false ∧ coldConfig.temperature_max_c.isNaN = false ∧
      coldConfig.battery_voltage_min_v.isNaN = false ∧
      coldConfig.battery_voltage_max_v.isNaN = false ∧
      ¬ReportsEach coldConfig (frameAt 87.0) (fired coldConfig (frameAt 87.0)) := by
  refine ⟨load_cold, by decide +kernel, by decide +kernel, by decide +kernel, by decide +kernel,
    ?_⟩
  rw [fired_eq, faults_reportsEach_iff _ _ (by decide +kernel)]
  decide +kernel

/-- At 92 degrees the maximum alone is violated, and reported. -/
theorem cold_reportsEach : ReportsEach coldConfig (frameAt 92.0) (fired coldConfig (frameAt 92.0)) :=
  (reportsEach_iff coldConfig (frameAt 92.0) load_cold).mpr (by decide +kernel)

/-! ## Silence -/

/-- All four measurements are between their bounds, as true comparisons. -/
def InRange (cfg : SatelliteConfig) (frame : TelemetryFrame) : Prop :=
  (cfg.battery_voltage_min_v ≤ frame.battery_voltage_v ∧
    frame.battery_voltage_v ≤ cfg.battery_voltage_max_v) ∧
  (cfg.temperature_min_c ≤ frame.obc_temp_c ∧ frame.obc_temp_c ≤ cfg.temperature_max_c) ∧
  frame.cpu_usage_pct ≤ cfg.cpu_usage_max_pct ∧ frame.memory_usage_pct ≤ cfg.memory_usage_max_pct

section Silence

variable {cfg : SatelliteConfig} {frame : TelemetryFrame}

/-- A value that is not outside two bounds is between them, unless it is a NaN. -/
theorem between_iff {lo hi x : Binary64} (hlo : lo.isNaN = false) (hhi : hi.isNaN = false)
    (hlow : ¬x < lo) (hhigh : ¬x > hi) : (lo ≤ x ∧ x ≤ hi) ↔ x.isNaN = false := by
  constructor
  · exact fun h => h.1.2.1
  · intro hx
    exact ⟨(Binary64.le_iff_not_lt hlo hx).mpr hlow, (Binary64.le_iff_not_lt hx hhi).mpr hhigh⟩

/-- Without a violation, in range means that no measurement is a NaN. -/
theorem inRange_iff (hbattery : cfg.battery_voltage_min_v < cfg.battery_voltage_max_v)
    (htemp : cfg.temperature_min_c < cfg.temperature_max_c) (h : ¬Violates cfg frame) :
    InRange cfg frame ↔ frame.battery_voltage_v.isNaN = false ∧ frame.obc_temp_c.isNaN = false := by
  simp only [Violates, not_or] at h
  obtain ⟨hlow, hhigh, hhot, hcold, hcpu, hmem⟩ := h
  unfold InRange
  rw [between_iff hbattery.1 hbattery.2.1 hlow hhigh, between_iff htemp.1 htemp.2.1 hcold hhot]
  exact and_congr_right fun _ => and_iff_left ⟨UInt8.not_lt.mp hcpu, UInt8.not_lt.mp hmem⟩

/-- Nothing is fired when nothing is violated. -/
theorem fired_eq_nil (h : ¬Violates cfg frame) :
    fired cfg frame = [] := by
  rw [fired_eq]
  by_contra hne
  exact h ((faults_ne_nil_iff cfg frame).mp hne)

/-- Silence means in range, unless nothing is violated and the battery voltage or the
temperature is a NaN. -/
theorem silent_inRange_iff (hbattery : cfg.battery_voltage_min_v < cfg.battery_voltage_max_v)
    (htemp : cfg.temperature_min_c < cfg.temperature_max_c) :
    (fired cfg frame = [] → InRange cfg frame) ↔
      (frame.battery_voltage_v.isNaN = false ∧ frame.obc_temp_c.isNaN = false) ∨
        Violates cfg frame := by
  by_cases h : Violates cfg frame
  · have hfired : fired cfg frame ≠ [] := by
      rw [fired_eq]
      exact (faults_ne_nil_iff cfg frame).mpr h
    exact iff_of_true (fun hsilent => absurd hsilent hfired) (Or.inr h)
  · rw [inRange_iff hbattery htemp h, or_iff_left h]
    exact imp_iff_right (fired_eq_nil h)

end Silence

/-- A temperature that is a NaN is passed over in silence under the default thresholds. -/
theorem nan_silent :
    let cfg : SatelliteConfig := {}
    cfg.battery_voltage_min_v < cfg.battery_voltage_max_v ∧
      cfg.temperature_min_c < cfg.temperature_max_c ∧
      fired cfg (frameAt .quietNaN) = [] ∧ ¬InRange cfg (frameAt .quietNaN) :=
  ⟨by decide +kernel, by decide +kernel, fired_eq_nil (by decide +kernel),
    fun h => absurd h.2.1 (by decide +kernel)⟩

/-- At 25 degrees there is silence, and everything is in range. -/
theorem nominal_silent_inRange :
    fired {} (frameAt 25.0) = [] ∧ InRange {} (frameAt 25.0) := by
  have hsilent : fired {} (frameAt 25.0) = [] := fired_eq_nil (by decide +kernel)
  have hinRange := @silent_inRange_iff {} (frameAt 25.0) (by decide +kernel) (by decide +kernel)
  exact ⟨hsilent, hinRange.mpr (Or.inl (by decide +kernel)) hsilent⟩

end Obcsw.FaultDetector
