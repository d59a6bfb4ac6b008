import Obcsw.Comparison
import Obcsw.SimulatedFrame

/-!
# The process on its simulation

`Process` leaves the measurements of a frame to chance. Here `main` computes them from its own
`t_s`, and chance keeps the wall clock, the sockets, the signals and the threads. The process
under it is one of the runs of `Process` (`process_reachable`), in which the `n`-th frame is the
one of the `n`-th second count (`follows_reachable`).

So every frame is in the ranges of the simulation, whatever happens (`simulates`). Thresholds
that leave these ranges alone, as the default ones do, are never violated, and the process never
enters safe mode (`nominal`). Its measurements being finite, every datagram decodes to its frame
(`echoes`). The uptime of its frames does not go back, and counts whole seconds exactly
(`uptimes`).
-/

set_option linter.unusedSectionVars false

open Exceptions Program

namespace Obcsw

namespace Simulated

open Main
open Process (calls downlinkNext)

/-! ## The process -/

/-- The process with the seconds of `main`. -/
structure State (cfg : SatelliteConfig) where
  process : Process.State cfg := {}
  t_s : Binary64 := 0.0

/-- What happens next. -/
inductive Label
  /-- `main` starts an iteration at this time of the wall clock. -/
  | iterate (timestamp_ms : UInt64)
  /-- Anything but the start of an iteration. -/
  | other (l : Process.Label)

section Process

variable {cfg : SatelliteConfig} (M : MathLibrary) (L : JsonLibrary) (uplinks : List Uplink)

/-- One step. -/
def next (s : State cfg) : Label → Option (State cfg)
  | .iterate timestamp_ms =>
    (Process.next L uplinks s.process
      (.iterate (simulate M timestamp_ms s.t_s).measure)).map fun p => ⟨p, s.t_s + dt_s cfg⟩
  | .other (.iterate _) => none
  | .other l => (Process.next L uplinks s.process l).map fun p => { s with process := p }

variable (cfg) in
/-- The process, from the point where the subsystems are built. -/
def system : Transitions (State cfg) Label :=
  .ofPartial {} (next M L uplinks)

variable {M L uplinks} {s s' : State cfg}

/-- Everything a step can do. -/
theorem next_cases {l : Label} (h : next M L uplinks s l = some s') :
    (∃ timestamp_ms, Process.next L uplinks s.process
      (.iterate (simulate M timestamp_ms s.t_s).measure) = some s'.process ∧
        s'.t_s = s.t_s + dt_s cfg) ∨
    (∃ k, (∀ measure, k ≠ .iterate measure) ∧
      Process.next L uplinks s.process k = some s'.process ∧ s'.t_s = s.t_s) := by
  cases l with
  | iterate timestamp_ms =>
    obtain ⟨p, hp, rfl⟩ := Option.map_eq_some_iff.mp h
    exact Or.inl ⟨timestamp_ms, hp, rfl⟩
  | other k =>
    refine Or.inr ⟨k, ?_⟩
    cases k with
    | iterate measure => cases h
    | main | downlink | signal =>
      obtain ⟨p, hp, rfl⟩ := Option.map_eq_some_iff.mp h
      exact ⟨by rintro measure ⟨⟩, hp, rfl⟩

/-- The process on its simulation is a run of the process on any measurements. -/
theorem process_reachable (h : (system cfg M L uplinks).Reachable s) :
    (Process.system cfg L uplinks).Reachable s.process := by
  refine h.induct (I := fun s => (Process.system cfg L uplinks).Reachable s.process)
    (fun s hs => ?_) fun s l s' _ hs hstep => ?_
  · obtain rfl : s = {} := hs
    exact Transitions.reachable_of_initial rfl
  · rcases next_cases hstep with ⟨_, hp, -⟩ | ⟨_, -, hp, -⟩ <;> exact hs.step hp

/-! ## The measurements -/

/-- The measurements of the iterations started, in order. -/
def started (p : Process.State cfg) : List (UInt64 → Measurements) :=
  p.ticks.map Tick.measure ++ match p.pc with
    | .enqueueing measure => [measure]
    | _ => []

/-- The measurements of the iteration that a step starts. -/
def fresh : Process.Label → List (UInt64 → Measurements)
  | .iterate measure => [measure]
  | _ => []

/-- Only the start of an iteration adds measurements. -/
theorem started_of_step {p p' : Process.State cfg} {k : Process.Label}
    (hr : (Process.system cfg L uplinks).Reachable p) (h : Process.next L uplinks p k = some p') :
    started p' = started p ++ fresh k := by
  obtain ⟨-, hend, hstep⟩ := Process.step_of_next h
  cases hstep with
  | downlink l d hl hd =>
    have hresumes := Process.resumes_of_step (Process.knows_reachable hr) hend hl
      (Process.downlink_reachable hr) (Downlink.step_of_next hd).2
    clear h
    revert hresumes
    generalize ({ p with downlink := d } : Process.State cfg).resume
      (d.log.drop p.downlink.log.length) = p'
    intro hresumes
    cases hresumes with
    | still => exact (List.append_nil _).symm
    | answered measure frame enqueued hpc =>
      simp [started, fresh, Process.State.answered, hpc]
    | started hpc | failed hpc | stopped hpc | destroyed hpc => simp [started, fresh, hpc]
  | iterate measure es vars frame d hpc => simp [started, fresh, Process.State.ran, hpc]
  | iterateThrows measure es vars e hpc hup hrun => exact absurd hrun Main.prepare_not_throws
  | start d hpc | inject es vars hpc | injectThrows es vars e hpc | stop d hpc
  | conclude enqueued es vars hpc | concludeThrows enqueued es vars e hpc | report d hpc =>
    simp [started, fresh, Process.State.ran, hpc]
  | signal => exact (List.append_nil _).symm

/-- The measurements are the simulated ones, at the seconds so far. -/
structure Follows (M : MathLibrary) (s : State cfg) : Prop where
  measures : ∀ n measure, (started s.process)[n]? = some measure →
    ∃ timestamp_ms, measure = (simulate M timestamp_ms (Main.t_s cfg n)).measure
  seconds : s.t_s = Main.t_s cfg (started s.process).length

theorem follows_reachable (h : (system cfg M L uplinks).Reachable s) : Follows M s := by
  refine h.induct (fun s hs => ?_) fun s l s' hr hs hstep => ?_
  · obtain rfl : s = {} := hs
    have hnone : started ({} : Process.State cfg) = [] := rfl
    refine ⟨fun n measure hn => ?_, ?_⟩
    · rw [hnone] at hn
      cases hn
    · rw [hnone, List.length_nil, Main.t_s]
  · rcases next_cases hstep with ⟨timestamp_ms, hp, ht⟩ | ⟨k, hk, hp, ht⟩
    · have hstarted := started_of_step (process_reachable hr) hp
      rw [fresh] at hstarted
      refine ⟨fun n measure hn => ?_, ?_⟩
      · rw [hstarted] at hn
        rcases Nat.lt_or_ge n (started s.process).length with hlt | hge
        · rw [List.getElem?_append_left hlt] at hn
          exact hs.measures n measure hn
        · rw [List.getElem?_append_right hge, List.getElem?_singleton] at hn
          split at hn
          · next hlast =>
            obtain rfl : n = (started s.process).length := by omega
            obtain rfl := Option.some.inj hn
            exact ⟨timestamp_ms, by rw [hs.seconds]⟩
          · cases hn
      · rw [hstarted, List.length_append, List.length_singleton, Main.t_s, ht, hs.seconds]
    · have hstarted := started_of_step (process_reachable hr) hp
      have hfresh : fresh k = [] := by
        cases k with
        | iterate measure => exact absurd rfl (hk measure)
        | _ => rfl
      rw [hfresh, List.append_nil] at hstarted
      exact ⟨by rw [hstarted]; exact hs.measures, by rw [hstarted, ht]; exact hs.seconds⟩

/-- The frame of the `n`-th call, but for its flags, is the one generated at the `n`-th second
count. -/
theorem exists_generated (h : (system cfg M L uplinks).Reachable s) {n : ℕ} {g : TelemetryFrame}
    (hg : (measuredFrom cfg 0 s.process.ticks)[n]? = some g) : ∃ timestamp_ms, g =
      generateFrame ((simulate M timestamp_ms (Main.t_s cfg n)).measure (.ofNat n)) (.ofNat n)
        cfg.satellite_name := by
  rw [measuredFrom_getElem?, UInt64.zero_add] at hg
  obtain ⟨tick, htick, rfl⟩ := Option.map_eq_some_iff.mp hg
  have hstarted : (started s.process)[n]? = some tick.measure := by
    have hlt := (List.getElem?_eq_some_iff.mp htick).1
    rw [started, List.getElem?_append_left (by rwa [List.length_map]), List.getElem?_map, htick]
    rfl
  obtain ⟨timestamp_ms, hmeasure⟩ := (follows_reachable h).measures n _ hstarted
  exact ⟨timestamp_ms, by rw [measured, hmeasure]⟩

theorem inRange_measured (hM : M.Lawful) (h : (system cfg M L uplinks).Reachable s) :
    ∀ g ∈ measuredFrom cfg 0 s.process.ticks, InRange g := by
  intro g hg
  obtain ⟨n, hn⟩ := List.mem_iff_getElem?.mp hg
  obtain ⟨timestamp_ms, rfl⟩ := exists_generated h hn
  exact inRange_generateFrame hM (t_s_within cfg n).1 timestamp_ms _ _

end Process

/-! ## The results -/

section Results

variable {cfg : SatelliteConfig} {M : MathLibrary} {L : JsonLibrary} {uplinks : List Uplink}
  {s : State cfg} {m n : ℕ} {f f' : TelemetryFrame} {enqueued enqueued' : Bool}

/-- The flags have no part in the ranges. -/
theorem inRange_flagged {hist : List TelemetryFrame} {g : TelemetryFrame} (hg : InRange g) :
    InRange (flagged cfg hist g) :=
  ⟨hg.1, hg.2, hg.3, hg.4, hg.5, hg.6, hg.7, hg.8, hg.9⟩

/-- The frame of the `n`-th call is the `n`-th generated one, with its flags. -/
theorem exists_flagged (h : (system cfg M L uplinks).Reachable s)
    (hcall : (calls s.process.downlink.log)[n]? = some (f, enqueued)) :
    ∃ g, (measuredFrom cfg 0 s.process.ticks)[n]? = some g ∧
      f = flagged cfg ((measuredFrom cfg 0 s.process.ticks).take n) g := by
  rw [(Process.books_reachable (process_reachable h)).calls, List.getElem?_zip_eq_some] at hcall
  obtain ⟨g, hg, hf, -⟩ := Process.due_getElem? hcall.1
  exact ⟨g, hg, hf⟩

/-- Every frame that `main` calls `enqueue` with is in the ranges of the simulation. -/
theorem simulates (hM : M.Lawful) (h : (system cfg M L uplinks).Reachable s)
    (hcall : (calls s.process.downlink.log)[n]? = some (f, enqueued)) : InRange f := by
  obtain ⟨g, hg, rfl⟩ := exists_flagged h hcall
  exact inRange_flagged (inRange_measured hM h g (List.mem_of_getElem? hg))

/-! ### Thresholds -/

/-- The thresholds leave the ranges of the simulation alone. -/
structure Tolerant (cfg : SatelliteConfig) : Prop where
  battery_voltage_min_v : ¬6.6 < cfg.battery_voltage_min_v
  battery_voltage_max_v : ¬cfg.battery_voltage_max_v < 8.3
  temperature_min_c : ¬10.0 < cfg.temperature_min_c
  temperature_max_c : ¬cfg.temperature_max_c < 40.0
  cpu_usage_max_pct : 89 ≤ cfg.cpu_usage_max_pct
  memory_usage_max_pct : 84 ≤ cfg.memory_usage_max_pct

/-- Nothing in range violates such thresholds. -/
theorem Tolerant.not_violates (hcfg : Tolerant cfg) {g : TelemetryFrame} (hg : InRange g) :
    ¬FaultDetector.Violates cfg g := by
  rintro (hlow | hhigh | hhot | hcold | hcpu | hmemory)
  · exact hcfg.battery_voltage_min_v
      ⟨by decide +kernel, hlow.2.1, hg.battery_voltage_v.low.trans_lt hlow.2.2⟩
  · exact hcfg.battery_voltage_max_v
      ⟨hhigh.1, by decide +kernel, hhigh.2.2.trans_le hg.battery_voltage_v.high⟩
  · exact hcfg.temperature_max_c
      ⟨hhot.1, by decide +kernel, hhot.2.2.trans_le hg.obc_temp_c.high⟩
  · exact hcfg.temperature_min_c
      ⟨by decide +kernel, hcold.2.1, hg.obc_temp_c.low.trans_lt hcold.2.2⟩
  · exact absurd (UInt8.le_trans hg.cpu_usage_pct.2 hcfg.cpu_usage_max_pct)
      (UInt8.not_le.mpr hcpu)
  · exact absurd (UInt8.le_trans hg.memory_usage_pct.2 hcfg.memory_usage_max_pct)
      (UInt8.not_le.mpr hmemory)

theorem Tolerant.faults_eq_nil (hcfg : Tolerant cfg) {g : TelemetryFrame} (hg : InRange g) :
    FaultDetector.faults cfg g = [] := by
  by_contra hne
  exact hcfg.not_violates hg ((FaultDetector.faults_ne_nil_iff cfg g).mp hne)

/-- Under such thresholds no frame says that there is, or ever was, a fault or an overload. -/
theorem nominal (hM : M.Lawful) (hcfg : Tolerant cfg) (h : (system cfg M L uplinks).Reachable s)
    (hcall : (calls s.process.downlink.log)[n]? = some (f, enqueued)) :
    f.fault_active = false ∧ f.safe_mode = false ∧ f.last_fault_code = 0 := by
  obtain ⟨g, hg, rfl⟩ := exists_flagged h hcall
  have hgs := inRange_measured hM h
  have hhistory : history cfg ((measuredFrom cfg 0 s.process.ticks).take n ++ [g]) = [] := by
    refine List.flatMap_eq_nil_iff.mpr fun g' hg' => hcfg.faults_eq_nil (hgs g' ?_)
    rcases List.mem_append.mp hg' with hg' | hg'
    · exact List.mem_of_mem_take hg'
    · rw [List.mem_singleton.mp hg']
      exact List.mem_of_getElem? hg
  have hnow := hcfg.faults_eq_nil (hgs g (List.mem_of_getElem? hg))
  refine ⟨?_, ?_, ?_⟩
  · simp only [flagged, hnow]
    rfl
  · simp only [flagged, hhistory]
    rfl
  · simp only [flagged, hhistory]
    rfl

/-! ### Datagrams -/

/-- A frame in range has no double that JSON cannot write. -/
theorem finite_of_inRange (hf : InRange f) :
    (TelemetrySerializer.doubles f).all Binary64.isFinite = true := by
  simp [TelemetrySerializer.doubles, hf.battery_voltage_v.finite, hf.battery_current_ma.finite,
    hf.solar_input_w.finite, hf.obc_temp_c.finite, hf.battery_temp_c.finite,
    hf.payload_temp_c.finite]

/-- Every datagram decodes to its frame. -/
theorem echoes (hM : M.Lawful) (hL : L.Lawful) (h : (system cfg M L uplinks).Reachable s)
    {fd : ℤ} {payload : Bytes} (hhanded : .handed fd f payload ∈ s.process.downlink.log) :
    TelemetrySerializer.fromJson L payload = .ok f := by
  have hprocess := process_reachable h
  have hdown := Process.downlink_reachable hprocess
  have haccepted := (Downlink.handed_isPrefix hdown).subset
    (List.mem_filterMap.mpr ⟨.handed fd f payload, hhanded, rfl⟩)
  have hdue := (Process.accepted_sublist (Process.books_reachable hprocess)).subset haccepted
  obtain ⟨n, hn⟩ := List.mem_iff_getElem?.mp hdue
  obtain ⟨g, hg, rfl, -⟩ := Process.due_getElem? hn
  have hf : InRange (flagged cfg ((measuredFrom cfg 0 s.process.ticks).take n) g) :=
    inRange_flagged (inRange_measured hM h g (List.mem_of_getElem? hg))
  have htext := (Downlink.texts_reachable hdown).handed fd _ payload hhanded
  rw [TelemetrySerializer.fromJson_toJson hL _ htext, if_pos (finite_of_inRange hf)]

/-! ### Uptimes -/

/-- What the uptimes of two frames say. -/
structure Uptimes (cfg : SatelliteConfig) (m n : ℕ) (f f' : TelemetryFrame) : Prop where
  /-- They do not go back, until they have more than 64 bits. -/
  forward : m ≤ n → (Main.t_s cfg n).magnitude / 2 ^ 1074 < 2 ^ 64 → f.uptime_s ≤ f'.uptime_s
  /-- Whole seconds are counted exactly, until they have more than 53 bits. -/
  exact : ∀ k, cfg.telemetry_dispatch_interval_ms.toNat = 1000 * k → n * k < 2 ^ 53 →
    f'.uptime_s.toNat = n * k

theorem uptime_of_call (h : (system cfg M L uplinks).Reachable s)
    (hcall : (calls s.process.downlink.log)[n]? = some (f, enqueued)) :
    f.uptime_s = .ofNat (Binary64.toUnsigned M.undef 64 (Main.t_s cfg n)) := by
  obtain ⟨g, hg, rfl⟩ := exists_flagged h hcall
  obtain ⟨timestamp_ms, rfl⟩ := exists_generated h hg
  rfl

theorem units_t_s (cfg : SatelliteConfig) (n : ℕ) :
    (Main.t_s cfg n).units = (Main.t_s cfg n).magnitude := by
  have hzero : (0.0 : Binary64).units = 0 := by decide +kernel
  exact Binary64.units_of_nonneg (hzero.ge.trans (t_s_within cfg n).1.low)

/-- Seconds that fit are truncated. -/
theorem toNat_uptime (h : (system cfg M L uplinks).Reachable s)
    (hcall : (calls s.process.downlink.log)[n]? = some (f, enqueued))
    (hfits : (Main.t_s cfg n).magnitude / 2 ^ 1074 < 2 ^ 64) :
    f.uptime_s.toNat = (Main.t_s cfg n).magnitude / 2 ^ 1074 := by
  have hpos : 0 ≤ (Main.t_s cfg n).units := by
    rw [units_t_s]
    exact Int.natCast_nonneg _
  rw [uptime_of_call h hcall,
    Binary64.toUnsigned_of_fits M.undef (t_s_within cfg n).1.finite hpos hfits,
    UInt64.toNat_ofNat_of_lt' hfits]

theorem uptimes (h : (system cfg M L uplinks).Reachable s)
    (hcall : (calls s.process.downlink.log)[m]? = some (f, enqueued))
    (hcall' : (calls s.process.downlink.log)[n]? = some (f', enqueued')) :
    Uptimes cfg m n f f' := by
  constructor
  · intro hle hfits
    have hmono := t_s_mono cfg hle
    rw [units_t_s, units_t_s] at hmono
    have hmono' : (Main.t_s cfg m).magnitude / 2 ^ 1074 ≤ (Main.t_s cfg n).magnitude / 2 ^ 1074 :=
      Nat.div_le_div_right (by exact_mod_cast hmono)
    rw [UInt64.le_iff_toNat_le, toNat_uptime h hcall (hmono'.trans_lt hfits),
      toNat_uptime h hcall' hfits]
    exact hmono'
  · intro k hk hlt
    have hunits := (t_s_of_whole cfg hk hlt).2
    rw [units_t_s] at hunits
    have hmagnitude : (Main.t_s cfg n).magnitude = n * k * 2 ^ 1074 := by
      refine Int.natCast_inj.mp (hunits.trans ?_)
      rw [Nat.cast_mul (n * k), Nat.cast_pow, Nat.cast_ofNat]
    have hseconds : (Main.t_s cfg n).magnitude / 2 ^ 1074 = n * k := by
      rw [hmagnitude, Nat.mul_div_cancel _ (by positivity)]
    rw [toNat_uptime h hcall' (by rw [hseconds]; omega), hseconds]

end Results

/-! ## The first frames of the simulation -/

open TelemetrySerializer (frameTree toJson)
open Transitions (exec reachable_of_exec)

/-- The sines of the first two frames. -/
def sines : List (Binary64 × Binary64) := [
  (0.5, 0.479425538604203),
  (1.0, 0.8414709848078965),
  (0.00014544398148148147, 0.00014544398096869563),
  (0.0005817759259259259, 0.0005817758931076334),
  (0.5005817759259259, 0.47993601384896706),
  (1.000581775925926, 0.8417851772609521)]

/-- A sine, as far as the first two frames need one. -/
def earlySine : MathLibrary where
  sin x := (sines.lookup x).getD 0.0
  undef _ _ := 0

theorem earlySine_lawful : earlySine.Lawful where
  sin x _ := by
    have hsines : ∀ p ∈ sines, p.2.isFinite = true ∧ (-1.0 : Binary64).units ≤ p.2.units ∧
        p.2.units ≤ (1.0 : Binary64).units := by decide +kernel
    simp only [earlySine]
    cases hlookup : sines.lookup x with
    | none => constructor <;> decide +kernel
    | some y =>
      obtain ⟨l₁, l₂, hsplit, -⟩ := List.lookup_eq_some_iff.mp hlookup
      obtain ⟨hfinite, hlow, hhigh⟩ := hsines (x, y) (by simp [hsplit])
      exact ⟨hfinite, hlow, hhigh⟩

def earlyFrame : TelemetryFrame :=
  generateFrame ((simulate earlySine 1700000000000 0.0).measure 0) 0 (bytes "UNKNOWN")

def earlyText : Bytes :=
  bytes ("\x7b\"frame_id\":0,\"health_flags\":\x7b\"fault_active\":false,\"last_fault_code\":0,"
    ++ "\"safe_mode\":false\x7d,\"satellite_id\":\"UNKNOWN\",\"subsystems\":\x7b\"obc\":\x7b"
    ++ "\"cpu_usage_pct\":30,\"memory_usage_pct\":40,\"uptime_s\":0\x7d,\"power\":\x7b"
    ++ "\"battery_current_ma\":300.0,\"battery_voltage_v\":7.4,\"charge_pct\":50,"
    ++ "\"solar_input_w\":0.0\x7d,\"thermal\":\x7b\"battery_temp_c\":24.794255386042032,"
    ++ "\"obc_temp_c\":25.0,\"payload_temp_c\":46.82941969615793\x7d\x7d,"
    ++ "\"timestamp_ms\":1700000000000\x7d")

/-- The library that writes the frame as its text. -/
noncomputable def earlyLibrary : JsonLibrary :=
  .pinned (frameTree .float earlyFrame) earlyText

theorem earlyLibrary_lawful : earlyLibrary.Lawful :=
  JsonLibrary.pinned_lawful (by decide)

theorem toJson_earlyFrame : toJson earlyLibrary earlyFrame = .ok earlyText := by
  have hu : (frameTree .float earlyFrame).utf8 = true := by
    rw [TelemetrySerializer.utf8_frameTree]
    decide +kernel
  have hf : (frameTree .float earlyFrame).finite = true := by
    rw [TelemetrySerializer.finite_frameTree]
    decide +kernel
  rw [TelemetrySerializer.toJson_eq, JsonLibrary.dumpThrowing, earlyLibrary,
    JsonLibrary.dump_pinned_self hf hu]
  rfl

/-- An iteration, and the loop up to the point where it serializes the frame. -/
noncomputable def serializing : State {} :=
  (exec (next earlySine earlyLibrary []) {} (Process.takeOff.map .other ++
    [.iterate 1700000000000, .other (.downlink (.enqueue ())), .other .main,
      .other (.downlink (.loop 0)), .other (.downlink (.loop 0)),
      .other (.downlink (.loop 0))])).get (by decide +kernel)

/-- The frame serialized. -/
noncomputable def serialized : State {} :=
  { serializing with process := { serializing.process with
      downlink := serializing.process.downlink.toLoop 0 (.sending earlyFrame earlyText) } }

theorem next_serializing : next earlySine earlyLibrary [] serializing
    (.other (.downlink (.loop 0))) = some serialized := by
  have hterm : serializing.process.downlink.terminated = false := by decide +kernel
  have hend : serializing.process.pc.ended = false := by decide +kernel
  have hloop : serializing.process.downlink.loops 0 = .serializing earlyFrame := by decide +kernel
  simp [next, Process.next, Process.downlinkStep, downlinkNext, Downlink.next, Downlink.loopStep,
    Downlink.Label.isCall, hterm, hend, hloop, toJson_earlyFrame, Process.State.resume, serialized,
    Downlink.State.toLoop]

/-- The frame sent. -/
noncomputable def sent : State {} :=
  (next earlySine earlyLibrary [] serialized
    (.other (.downlink (.send 0 ⟨1, earlyText.length⟩)))).get (by decide +kernel)

theorem sent_reachable : (system {} earlySine earlyLibrary []).Reachable sent := by
  have hr : (system {} earlySine earlyLibrary []).Reachable serializing :=
    reachable_of_exec _ (Option.some_get _).symm
  exact (hr.step next_serializing).step (Option.some_get _).symm

theorem calls_sent : (calls sent.process.downlink.log)[0]? = some (earlyFrame, true) := by
  decide +kernel

theorem simulates_sent : InRange earlyFrame :=
  simulates earlySine_lawful sent_reachable calls_sent

theorem tolerant_default : Tolerant {} := by
  constructor <;> decide +kernel

theorem nominal_sent : earlyFrame.fault_active = false ∧ earlyFrame.safe_mode = false ∧
    earlyFrame.last_fault_code = 0 :=
  nominal earlySine_lawful tolerant_default sent_reachable calls_sent

/-- The frame and the text that an effect hands over. -/
def datagram : Downlink.Effect → Option (TelemetryFrame × Bytes)
  | .handed _ frame payload => some (frame, payload)
  | _ => none

theorem echoes_sent : TelemetrySerializer.fromJson earlyLibrary earlyText = .ok earlyFrame := by
  have hmem : (earlyFrame, earlyText) ∈ sent.process.downlink.log.filterMap datagram := by
    decide +kernel
  obtain ⟨e, he, hdatagram⟩ := List.mem_filterMap.mp hmem
  cases e with
  | handed fd frame payload =>
    obtain ⟨rfl, rfl⟩ := Prod.mk.inj (Option.some.inj hdatagram)
    exact echoes earlySine_lawful earlyLibrary_lawful sent_reachable he
  | _ => cases hdatagram

/-- The frame of the next second. -/
def laterFrame : TelemetryFrame :=
  generateFrame ((simulate earlySine 1700000001000 1.0).measure 1) 1 (bytes "UNKNOWN")

/-- Two iterations. -/
noncomputable def later : State {} :=
  (exec (next earlySine earlyLibrary []) {} (Process.takeOff.map .other ++
    [.iterate 1700000000000, .other (.downlink (.enqueue ())), .other .main,
      .iterate 1700000001000, .other (.downlink (.enqueue ()))])).get (by decide +kernel)

theorem uptimes_later : Uptimes {} 0 1 earlyFrame laterFrame := by
  have hr : (system {} earlySine earlyLibrary []).Reachable later :=
    reachable_of_exec _ (Option.some_get _).symm
  have hfirst : (calls later.process.downlink.log)[0]? = some (earlyFrame, true) := by
    decide +kernel
  have hsecond : (calls later.process.downlink.log)[1]? = some (laterFrame, true) := by
    decide +kernel
  exact uptimes hr hfirst hsecond

end Simulated

end Obcsw
