import Obcsw.Survival

/-!
# Two processes compared

Two processes that measure the same are compared at the calls of `enqueue` that have returned.
Nothing but the configuration tells their frames apart : not the uplink strings, not the
answers of the queue, the sockets or the other threads (`unswayed`). And with wider thresholds
the second one is never the first to raise a fault or to enter safe mode (`relaxed`).
-/

set_option linter.unusedSectionVars false

open Exceptions Program

namespace Obcsw

namespace Process

open Main
open FaultDetector (faults Violates Overloads)

/-! ## Frames -/

/-- The frame without the name of the satellite and the flags. -/
def readings (f : TelemetryFrame) : TelemetryFrame :=
  { f with satellite_id := [], fault_active := false, safe_mode := false, last_fault_code := 0 }

/-- The thresholds of `cfg'` let everything pass that those of `cfg` do. -/
structure Wider (cfg cfg' : SatelliteConfig) : Prop where
  battery_voltage_min_v : cfg'.battery_voltage_min_v ≤ cfg.battery_voltage_min_v
  battery_voltage_max_v : cfg.battery_voltage_max_v ≤ cfg'.battery_voltage_max_v
  temperature_min_c : cfg'.temperature_min_c ≤ cfg.temperature_min_c
  temperature_max_c : cfg.temperature_max_c ≤ cfg'.temperature_max_c
  cpu_usage_max_pct : cfg.cpu_usage_max_pct ≤ cfg'.cpu_usage_max_pct
  memory_usage_max_pct : cfg.memory_usage_max_pct ≤ cfg'.memory_usage_max_pct

section Frames

variable {cfg cfg' : SatelliteConfig} {f f' : TelemetryFrame}

theorem violates_of_wider (h : Wider cfg cfg') (hsame : readings f = readings f')
    (hf : Violates cfg' f') : Violates cfg f := by
  have hf' : Violates cfg' (readings f) := by
    rw [hsame]
    exact hf
  rcases hf' with hlow | hhigh | hhot | hcold | hcpu | hmem
  · exact Or.inl (Binary64.lt_of_lt_of_le hlow h.battery_voltage_min_v)
  · exact Or.inr (Or.inl (Binary64.lt_of_le_of_lt h.battery_voltage_max_v hhigh))
  · exact Or.inr (Or.inr (Or.inl (Binary64.lt_of_le_of_lt h.temperature_max_c hhot)))
  · exact Or.inr (Or.inr (Or.inr (Or.inl (Binary64.lt_of_lt_of_le hcold h.temperature_min_c))))
  · have hover := UInt8.lt_of_le_of_lt h.cpu_usage_max_pct hcpu
    exact Or.inr (Or.inr (Or.inr (Or.inr (Or.inl hover))))
  · have hover := UInt8.lt_of_le_of_lt h.memory_usage_max_pct hmem
    exact Or.inr (Or.inr (Or.inr (Or.inr (Or.inr hover))))

theorem overloads_of_wider (h : Wider cfg cfg') (hsame : readings f = readings f')
    (hf : Overloads cfg' f') : Overloads cfg f := by
  have hf' : Overloads cfg' (readings f) := by
    rw [hsame]
    exact hf
  rcases hf' with hcpu | hmem
  · exact Or.inl (UInt8.lt_of_le_of_lt h.cpu_usage_max_pct hcpu)
  · exact Or.inr (UInt8.lt_of_le_of_lt h.memory_usage_max_pct hmem)

end Frames

/-! ## Runs -/

section Runs

variable {cfg cfg' : SatelliteConfig}

theorem measuredFrom_take (frame_id : UInt64) (ticks : List Tick) (n : ℕ) :
    (measuredFrom cfg frame_id ticks).take n = measuredFrom cfg frame_id (ticks.take n) := by
  induction ticks generalizing frame_id n with
  | nil => simp [measuredFrom]
  | cons tick ticks ih =>
    cases n with
    | zero => rfl
    | succ n => rw [measuredFrom, List.take_succ_cons, List.take_succ_cons, measuredFrom, ih]

variable (cfg cfg') in
/-- What a frame shows of the measurements alone, runs with the same measurements share. -/
theorem measuredFrom_map {α : Type} (r : TelemetryFrame → α)
    (hr : ∀ m frame_id, r (generateFrame m frame_id cfg.satellite_name) =
      r (generateFrame m frame_id cfg'.satellite_name)) (frame_id : UInt64) :
    ∀ {ticks ticks' : List Tick}, ticks.map Tick.measure = ticks'.map Tick.measure →
      (measuredFrom cfg frame_id ticks).map r = (measuredFrom cfg' frame_id ticks').map r
  | [], [], _ => rfl
  | tick :: ticks, tick' :: ticks', h => by
    obtain ⟨hfirst, hrest⟩ := List.cons.inj h
    have hframe : r (measured cfg frame_id tick) = r (measured cfg' frame_id tick') := by
      unfold measured
      rw [hfirst, hr]
    rw [measuredFrom, measuredFrom, List.map_cons, List.map_cons, hframe,
      measuredFrom_map r hr (frame_id + 1) hrest]

/-- The frame of the `n`-th completed call, by the frames generated up to it. -/
theorem frame_of_call {L : JsonLibrary} {uplinks : List Uplink} {s : State cfg}
    (h : (system cfg L uplinks).Reachable s) {n : ℕ} {f : TelemetryFrame} {enqueued : Bool}
    (hcall : (calls s.downlink.log)[n]? = some (f, enqueued)) :
    ∃ gs g, measuredFrom cfg 0 (s.ticks.take (n + 1)) = gs ++ [g] ∧ f = flagged cfg gs g := by
  rw [(books_reachable h).calls, List.getElem?_zip_eq_some] at hcall
  obtain ⟨g, hg, rfl, -⟩ := due_getElem? hcall.1
  refine ⟨(measuredFrom cfg 0 s.ticks).take n, g, ?_, rfl⟩
  rw [← measuredFrom_take, List.take_add_one, hg]
  rfl

end Runs

/-! ## The results -/

section Results

variable {cfg cfg' : SatelliteConfig} {L L' : JsonLibrary} {uplinks uplinks' : List Uplink}
  {s : State cfg} {s' : State cfg'} {n : ℕ} {f f' : TelemetryFrame} {enqueued enqueued' : Bool}

/-- What a process with the thresholds of `cfg'` reports, against one with those of `cfg`. -/
structure Relaxed (f f' : TelemetryFrame) : Prop where
  readings : readings f = readings f'
  fault_active : f'.fault_active = true → f.fault_active = true
  safe_mode : f'.safe_mode = true → f.safe_mode = true

/-- Frames with the same measurements before them, under wider thresholds. -/
theorem relaxed_flagged (hwider : Wider cfg cfg') {gs gs' : List TelemetryFrame}
    {g g' : TelemetryFrame} (h : (gs ++ [g]).map readings = (gs' ++ [g']).map readings) :
    Relaxed (flagged cfg gs g) (flagged cfg' gs' g') := by
  have hlast : readings g = readings g' := by
    have hlast := congrArg List.getLast? h
    simpa using hlast
  refine ⟨hlast, fun hactive => ?_, fun hsafe => ?_⟩
  · have hviolates : Violates cfg' g' := by
      rw [← FaultDetector.faults_ne_nil_iff]
      simpa [flagged] using hactive
    have hne := (FaultDetector.faults_ne_nil_iff cfg g).mpr
      (violates_of_wider hwider hlast hviolates)
    simpa [flagged] using hne
  · obtain ⟨g₀', hmem', hover⟩ := (any_overloads_iff (gs' ++ [g'])).mp hsafe
    have hread : readings g₀' ∈ (gs ++ [g]).map readings := by
      rw [h]
      exact List.mem_map_of_mem hmem'
    obtain ⟨g₀, hmem, hsame⟩ := List.mem_map.mp hread
    exact (any_overloads_iff (gs ++ [g])).mpr ⟨g₀, hmem, overloads_of_wider hwider hsame hover⟩

/-- Under wider thresholds, a process that measures the same reports no fault and no safe mode
before another does. -/
theorem relaxed (hwider : Wider cfg cfg') (h : (system cfg L uplinks).Reachable s)
    (h' : (system cfg' L' uplinks').Reachable s')
    (hsame : (s.ticks.take (n + 1)).map Tick.measure = (s'.ticks.take (n + 1)).map Tick.measure)
    (hcall : (calls s.downlink.log)[n]? = some (f, enqueued))
    (hcall' : (calls s'.downlink.log)[n]? = some (f', enqueued')) : Relaxed f f' := by
  obtain ⟨gs, g, hgs, rfl⟩ := frame_of_call h hcall
  obtain ⟨gs', g', hgs', rfl⟩ := frame_of_call h' hcall'
  refine relaxed_flagged hwider ?_
  rw [← hgs, ← hgs']
  exact measuredFrom_map cfg cfg' readings (fun _ _ => rfl) 0 hsame

/-- The measurements and the configuration decide over the frames : strings from the ground,
the library, the answers of the queue and of the sockets, and the other threads do not. -/
theorem unswayed {s' : State cfg} (h : (system cfg L uplinks).Reachable s)
    (h' : (system cfg L' uplinks').Reachable s')
    (hsame : (s.ticks.take (n + 1)).map Tick.measure = (s'.ticks.take (n + 1)).map Tick.measure)
    (hcall : (calls s.downlink.log)[n]? = some (f, enqueued))
    (hcall' : (calls s'.downlink.log)[n]? = some (f', enqueued')) : f = f' := by
  obtain ⟨gs, g, hgs, rfl⟩ := frame_of_call h hcall
  obtain ⟨gs', g', hgs', rfl⟩ := frame_of_call h' hcall'
  have hframes : gs ++ [g] = gs' ++ [g'] := by
    have hmap := measuredFrom_map cfg cfg id (fun _ _ => rfl) 0 hsame
    rwa [List.map_id, List.map_id, hgs, hgs'] at hmap
  obtain ⟨rfl, hlast⟩ := List.append_inj' hframes rfl
  obtain rfl := List.singleton_inj.mp hlast
  rfl

end Results

/-! ## Instances -/

/-- A process after its first call of `enqueue`. -/
theorem exists_firstCall (cfg : SatelliteConfig) (uplinks : List Uplink)
    (hdepth : 0 < cfg.telemetry_max_frame_queue_depth.toNat) :
    ∃ (s : State cfg) (f : TelemetryFrame),
      (system cfg TelemetrySerializer.nominalLibrary uplinks).Reachable s ∧
        s.ticks = [.simulated {} true] ∧ (calls s.downlink.log)[0]? = some (f, true) := by
  obtain ⟨s, f, hr, -, hticks, -, hdown⟩ :=
    exists_enqueued cfg TelemetrySerializer.nominalLibrary uplinks hdepth
  refine ⟨s, f, hr, hticks, ?_⟩
  rw [hdown]
  rfl

/-- A processor limit of 20 against the default of 90. -/
theorem relaxed_first : ∃ (s : State { cpu_usage_max_pct := 20 }) (s' : State {})
    (f f' : TelemetryFrame), (calls s.downlink.log)[0]? = some (f, true) ∧
      (calls s'.downlink.log)[0]? = some (f', true) ∧ Relaxed f f' := by
  obtain ⟨s, f, hr, hticks, hcall⟩ := exists_firstCall { cpu_usage_max_pct := 20 } [] (by decide)
  obtain ⟨s', f', hr', hticks', hcall'⟩ := exists_firstCall {} [] (by decide)
  refine ⟨s, s', f, f', hcall, hcall', relaxed ?_ hr hr' ?_ hcall hcall'⟩
  · constructor <;> decide +kernel
  · rw [hticks, hticks']

/-- A string that is not JSON changes nothing. -/
theorem unswayed_first : ∃ (s s' : State {}) (f : TelemetryFrame),
    (system {} TelemetrySerializer.nominalLibrary []).Reachable s ∧
      (system {} TelemetrySerializer.nominalLibrary [⟨bytes "noise", 0⟩]).Reachable s' ∧
      (calls s.downlink.log)[0]? = some (f, true) ∧
      (calls s'.downlink.log)[0]? = some (f, true) := by
  obtain ⟨s, f, hr, hticks, hcall⟩ := exists_firstCall {} [] (by decide)
  obtain ⟨s', f', hr', hticks', hcall'⟩ :=
    exists_firstCall {} [⟨bytes "noise", 0⟩] (by decide)
  obtain rfl : f = f' := unswayed hr hr' (by rw [hticks, hticks']) hcall hcall'
  exact ⟨s, s', f, hr, hr', hcall, hcall'⟩

end Process

end Obcsw
