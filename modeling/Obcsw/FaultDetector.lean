import Obcsw.Effects

/-!
# FaultDetector

`evaluate` compares a frame with the thresholds of the configuration and calls the fault
callback for every violation it finds. The callback is a `std::function` : empty, or a
program over the variables `σ` that its captures can reach.

`faults` lists the events of a frame, and `evaluate_eq` says that `evaluate` calls the
callback on each of them in order.
-/

open Exceptions Program

namespace Obcsw

/-- Classification of detected faults. -/
inductive FaultCode
  | NONE
  | LOW_BATTERY
  | OVER_TEMPERATURE
  | UNDER_TEMPERATURE
  | CPU_OVERLOAD
  | MEMORY_OVERLOAD
  deriving DecidableEq, Repr

/-- The underlying value of the enumerator. -/
def FaultCode.toUInt32 : FaultCode → UInt32
  | NONE => 0
  | LOW_BATTERY => 1
  | OVER_TEMPERATURE => 2
  | UNDER_TEMPERATURE => 3
  | CPU_OVERLOAD => 4
  | MEMORY_OVERLOAD => 5

/-- What the fault callback receives. -/
structure FaultEvent where
  code : FaultCode
  message : String
  measured_value : Binary64
  threshold_value : Binary64

structure FaultDetector (σ : Type) where
  m_cfg : SatelliteConfig
  m_fault_cb : Option (FaultEvent → Obc σ PUnit) := none

namespace FaultDetector

variable {σ : Type}

def checkBattery (d : FaultDetector σ) (frame : TelemetryFrame) : Obc σ PUnit :=
  match d.m_fault_cb with
  | none => return
  | some m_fault_cb =>
    if frame.battery_voltage_v < d.m_cfg.battery_voltage_min_v then
      m_fault_cb {
        code := .LOW_BATTERY
        message := "Battery voltage below minimum threshold"
        measured_value := frame.battery_voltage_v
        threshold_value := d.m_cfg.battery_voltage_min_v }
    else if frame.battery_voltage_v > d.m_cfg.battery_voltage_max_v then
      m_fault_cb {
        code := .LOW_BATTERY
        message := "Battery voltage exceeds maximum threshold (overcharge)"
        measured_value := frame.battery_voltage_v
        threshold_value := d.m_cfg.battery_voltage_max_v }
    else return

def checkTemperature (d : FaultDetector σ) (frame : TelemetryFrame) : Obc σ PUnit :=
  match d.m_fault_cb with
  | none => return
  | some m_fault_cb =>
    if frame.obc_temp_c > d.m_cfg.temperature_max_c then
      m_fault_cb {
        code := .OVER_TEMPERATURE
        message := "OBC temperature exceeds maximum threshold"
        measured_value := frame.obc_temp_c
        threshold_value := d.m_cfg.temperature_max_c }
    else if frame.obc_temp_c < d.m_cfg.temperature_min_c then
      m_fault_cb {
        code := .UNDER_TEMPERATURE
        message := "OBC temperature below minimum threshold"
        measured_value := frame.obc_temp_c
        threshold_value := d.m_cfg.temperature_min_c }
    else return

def checkResources (d : FaultDetector σ) (frame : TelemetryFrame) : Obc σ PUnit :=
  match d.m_fault_cb with
  | none => return
  | some m_fault_cb => do
    if frame.cpu_usage_pct > d.m_cfg.cpu_usage_max_pct then
      m_fault_cb {
        code := .CPU_OVERLOAD
        message := "CPU usage exceeds maximum threshold"
        measured_value := .ofNat frame.cpu_usage_pct.toNat
        threshold_value := .ofNat d.m_cfg.cpu_usage_max_pct.toNat }
    if frame.memory_usage_pct > d.m_cfg.memory_usage_max_pct then
      m_fault_cb {
        code := .MEMORY_OVERLOAD
        message := "Memory usage exceeds maximum threshold"
        measured_value := .ofNat frame.memory_usage_pct.toNat
        threshold_value := .ofNat d.m_cfg.memory_usage_max_pct.toNat }

/-- Evaluate all subsystems in the frame. -/
def evaluate (d : FaultDetector σ) (frame : TelemetryFrame) : Obc σ PUnit := do
  d.checkBattery frame
  d.checkTemperature frame
  d.checkResources frame

/-! ## The events of a frame -/

section Faults

variable (cfg : SatelliteConfig) (frame : TelemetryFrame)

def batteryFaults : List FaultEvent :=
  if frame.battery_voltage_v < cfg.battery_voltage_min_v then
    [⟨.LOW_BATTERY, "Battery voltage below minimum threshold", frame.battery_voltage_v,
      cfg.battery_voltage_min_v⟩]
  else if frame.battery_voltage_v > cfg.battery_voltage_max_v then
    [⟨.LOW_BATTERY, "Battery voltage exceeds maximum threshold (overcharge)",
      frame.battery_voltage_v, cfg.battery_voltage_max_v⟩]
  else []

def temperatureFaults : List FaultEvent :=
  if frame.obc_temp_c > cfg.temperature_max_c then
    [⟨.OVER_TEMPERATURE, "OBC temperature exceeds maximum threshold", frame.obc_temp_c,
      cfg.temperature_max_c⟩]
  else if frame.obc_temp_c < cfg.temperature_min_c then
    [⟨.UNDER_TEMPERATURE, "OBC temperature below minimum threshold", frame.obc_temp_c,
      cfg.temperature_min_c⟩]
  else []

def cpuFaults : List FaultEvent :=
  if frame.cpu_usage_pct > cfg.cpu_usage_max_pct then
    [⟨.CPU_OVERLOAD, "CPU usage exceeds maximum threshold", .ofNat frame.cpu_usage_pct.toNat,
      .ofNat cfg.cpu_usage_max_pct.toNat⟩]
  else []

def memoryFaults : List FaultEvent :=
  if frame.memory_usage_pct > cfg.memory_usage_max_pct then
    [⟨.MEMORY_OVERLOAD, "Memory usage exceeds maximum threshold",
      .ofNat frame.memory_usage_pct.toNat, .ofNat cfg.memory_usage_max_pct.toNat⟩]
  else []

/-- The events of a frame, in the order they are fired. -/
def faults : List FaultEvent :=
  batteryFaults cfg frame ++ temperatureFaults cfg frame ++
    (cpuFaults cfg frame ++ memoryFaults cfg frame)

section Callback

variable (cb : FaultEvent → Obc σ PUnit)

theorem checkBattery_eq :
    checkBattery ⟨cfg, some cb⟩ frame = (batteryFaults cfg frame).forM cb := by
  unfold checkBattery batteryFaults
  split_ifs <;> simp

theorem checkTemperature_eq :
    checkTemperature ⟨cfg, some cb⟩ frame = (temperatureFaults cfg frame).forM cb := by
  unfold checkTemperature temperatureFaults
  split_ifs <;> simp

theorem checkResources_eq : checkResources ⟨cfg, some cb⟩ frame =
    (cpuFaults cfg frame ++ memoryFaults cfg frame).forM cb := by
  unfold checkResources cpuFaults memoryFaults
  split_ifs <;> simp

/-- `evaluate` calls the callback on the events of the frame, in order. -/
theorem evaluate_eq : evaluate ⟨cfg, some cb⟩ frame = (faults cfg frame).forM cb := by
  rw [evaluate, checkBattery_eq, checkTemperature_eq, checkResources_eq, faults]
  simp only [List.forM_eq_forM, List.forM_append, bind_assoc]

end Callback

/-- One of the six comparisons holds. -/
def Violates : Prop :=
  frame.battery_voltage_v < cfg.battery_voltage_min_v ∨
    frame.battery_voltage_v > cfg.battery_voltage_max_v ∨
    frame.obc_temp_c > cfg.temperature_max_c ∨ frame.obc_temp_c < cfg.temperature_min_c ∨
    frame.cpu_usage_pct > cfg.cpu_usage_max_pct ∨ frame.memory_usage_pct > cfg.memory_usage_max_pct

instance : Decidable (Violates cfg frame) :=
  inferInstanceAs (Decidable (_ ∨ _ ∨ _ ∨ _ ∨ _ ∨ _))

/-- The CPU or the memory is overloaded. -/
def Overloads : Prop :=
  frame.cpu_usage_pct > cfg.cpu_usage_max_pct ∨ frame.memory_usage_pct > cfg.memory_usage_max_pct

/-- Percentages compare as doubles as they do as bytes. -/
theorem ofNat_gt_ofNat {p q : UInt8} (h : p > q) :
    Binary64.ofNat p.toNat > Binary64.ofNat q.toNat := by
  refine (Binary64.ofNat_lt_ofNat ?_ ?_).mpr h
  · exact Nat.lt_trans q.toNat_lt (by decide)
  · exact Nat.lt_trans p.toNat_lt (by decide)

section Members

variable {cfg frame} {e : FaultEvent}

/-- What an event of each check carries. -/
theorem batteryFaults_of_mem (h : e ∈ batteryFaults cfg frame) : e.code = .LOW_BATTERY ∧
    (e.measured_value < e.threshold_value ∨ e.measured_value > e.threshold_value) := by
  unfold batteryFaults at h
  split_ifs at h with hlow hhigh
  · obtain rfl := List.mem_singleton.mp h
    exact ⟨rfl, Or.inl hlow⟩
  · obtain rfl := List.mem_singleton.mp h
    exact ⟨rfl, Or.inr hhigh⟩
  · cases h

theorem temperatureFaults_of_mem (h : e ∈ temperatureFaults cfg frame) :
    (e.code = .OVER_TEMPERATURE ∨ e.code = .UNDER_TEMPERATURE) ∧
      (e.measured_value < e.threshold_value ∨ e.measured_value > e.threshold_value) := by
  unfold temperatureFaults at h
  split_ifs at h with hhigh hlow
  · obtain rfl := List.mem_singleton.mp h
    exact ⟨Or.inl rfl, Or.inr hhigh⟩
  · obtain rfl := List.mem_singleton.mp h
    exact ⟨Or.inr rfl, Or.inl hlow⟩
  · cases h

theorem cpuFaults_of_mem (h : e ∈ cpuFaults cfg frame) : e.code = .CPU_OVERLOAD ∧
    frame.cpu_usage_pct > cfg.cpu_usage_max_pct ∧ e.measured_value > e.threshold_value := by
  unfold cpuFaults at h
  split_ifs at h with hcpu
  · obtain rfl := List.mem_singleton.mp h
    exact ⟨rfl, hcpu, ofNat_gt_ofNat hcpu⟩
  · cases h

theorem memoryFaults_of_mem (h : e ∈ memoryFaults cfg frame) : e.code = .MEMORY_OVERLOAD ∧
    frame.memory_usage_pct > cfg.memory_usage_max_pct ∧ e.measured_value > e.threshold_value := by
  unfold memoryFaults at h
  split_ifs at h with hmem
  · obtain rfl := List.mem_singleton.mp h
    exact ⟨rfl, hmem, ofNat_gt_ofNat hmem⟩
  · cases h

theorem mem_faults : e ∈ faults cfg frame ↔
    (e ∈ batteryFaults cfg frame ∨ e ∈ temperatureFaults cfg frame) ∨
      e ∈ cpuFaults cfg frame ∨ e ∈ memoryFaults cfg frame := by
  simp only [faults, List.mem_append]

end Members

theorem batteryFaults_ne_nil_iff : batteryFaults cfg frame ≠ [] ↔
    frame.battery_voltage_v < cfg.battery_voltage_min_v ∨
      frame.battery_voltage_v > cfg.battery_voltage_max_v := by
  unfold batteryFaults
  split_ifs <;> simp [*]

theorem temperatureFaults_ne_nil_iff : temperatureFaults cfg frame ≠ [] ↔
    frame.obc_temp_c > cfg.temperature_max_c ∨ frame.obc_temp_c < cfg.temperature_min_c := by
  unfold temperatureFaults
  split_ifs <;> simp [*]

theorem cpuFaults_ne_nil_iff :
    cpuFaults cfg frame ≠ [] ↔ frame.cpu_usage_pct > cfg.cpu_usage_max_pct := by
  unfold cpuFaults
  split_ifs <;> simp [*]

theorem memoryFaults_ne_nil_iff :
    memoryFaults cfg frame ≠ [] ↔ frame.memory_usage_pct > cfg.memory_usage_max_pct := by
  unfold memoryFaults
  split_ifs <;> simp [*]

theorem faults_ne_nil_iff : faults cfg frame ≠ [] ↔ Violates cfg frame := by
  have happend : faults cfg frame ≠ [] ↔
      (batteryFaults cfg frame ≠ [] ∨ temperatureFaults cfg frame ≠ []) ∨
        cpuFaults cfg frame ≠ [] ∨ memoryFaults cfg frame ≠ [] := by
    simp only [faults, ne_eq, List.append_eq_nil_iff, not_and_or]
  rw [happend, batteryFaults_ne_nil_iff, temperatureFaults_ne_nil_iff, cpuFaults_ne_nil_iff,
    memoryFaults_ne_nil_iff, Violates, or_assoc, or_assoc, or_assoc]

/-- The events of an overload are the ones with its two codes. -/
theorem exists_overload_iff : (∃ e ∈ faults cfg frame,
    e.code = .CPU_OVERLOAD ∨ e.code = .MEMORY_OVERLOAD) ↔ Overloads cfg frame := by
  constructor
  · rintro ⟨e, he, hcode⟩
    rcases mem_faults.mp he with (h | h) | (h | h)
    · rw [(batteryFaults_of_mem h).1] at hcode
      exact absurd hcode (by decide)
    · rcases (temperatureFaults_of_mem h).1 with hc | hc <;> rw [hc] at hcode <;>
        exact absurd hcode (by decide)
    · exact Or.inl (cpuFaults_of_mem h).2.1
    · exact Or.inr (memoryFaults_of_mem h).2.1
  · rintro (hcpu | hmem)
    · obtain ⟨e, he⟩ :=
        List.exists_mem_of_ne_nil _ ((cpuFaults_ne_nil_iff cfg frame).mpr hcpu)
      exact ⟨e, mem_faults.mpr (Or.inr (Or.inl he)), Or.inl (cpuFaults_of_mem he).1⟩
    · obtain ⟨e, he⟩ :=
        List.exists_mem_of_ne_nil _ ((memoryFaults_ne_nil_iff cfg frame).mpr hmem)
      exact ⟨e, mem_faults.mpr (Or.inr (Or.inr he)), Or.inr (memoryFaults_of_mem he).1⟩

/-- No event is fired with code `NONE`. -/
theorem toUInt32_ne_zero_of_mem {e : FaultEvent} (h : e ∈ faults cfg frame) :
    e.code.toUInt32 ≠ 0 := by
  rcases mem_faults.mp h with (h | h) | (h | h)
  · rw [(batteryFaults_of_mem h).1]
    decide
  · rcases (temperatureFaults_of_mem h).1 with hc | hc <;> rw [hc] <;> decide
  · rw [(cpuFaults_of_mem h).1]
    decide
  · rw [(memoryFaults_of_mem h).1]
    decide

/-- Every event carries a measured value on the wrong side of its threshold. -/
theorem measured_of_mem {e : FaultEvent} (h : e ∈ faults cfg frame) :
    e.measured_value < e.threshold_value ∨ e.measured_value > e.threshold_value := by
  rcases mem_faults.mp h with (h | h) | (h | h)
  · exact (batteryFaults_of_mem h).2
  · exact (temperatureFaults_of_mem h).2
  · exact Or.inr (cpuFaults_of_mem h).2.2
  · exact Or.inr (memoryFaults_of_mem h).2.2

end Faults

end FaultDetector

end Obcsw
