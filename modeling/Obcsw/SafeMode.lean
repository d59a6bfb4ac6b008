import Obcsw.Health

/-!
# The onset of safe mode

In the simulated mission the CPU usage climbs from 30 to 89 and starts again, and the memory
usage from 40 to 84. Safe mode is entered at the first frame above one of its thresholds and
never left, so a run is told by one number : the frame at which the first of the two usages
exceeds its threshold, if it ever does (`onset`).
-/

set_option linter.unusedSectionVars false

open Exceptions Program

namespace Obcsw

namespace Main

open FaultDetector (Overloads)

/-! ## The simulated usage -/

/-- A value that climbs from `a` by one and starts again after `p` steps exceeds `c` by the
step `n` when it exceeds `c` in its first period. -/
theorem exists_sawtooth_iff {a p c n : ℕ} (hp : 0 < p) :
    (∃ j ≤ n, c < a + j % p) ↔ c + 1 - a < p ∧ c + 1 - a ≤ n := by
  constructor
  · rintro ⟨j, hj, hc⟩
    have hlt := Nat.mod_lt j hp
    have hle := Nat.mod_le j p
    omega
  · rintro ⟨hlt, hle⟩
    refine ⟨c + 1 - a, hle, ?_⟩
    rw [Nat.mod_eq_of_lt hlt]
    omega

section Usage

variable (sim : Simulation) (frame_id : UInt64)

/-- The cast of the CPU usage keeps its value. -/
theorem toNat_cpu_usage_pct :
    (sim.measure frame_id).cpu_usage_pct.toNat = 30 + frame_id.toNat % 60 := by
  have hmod : (frame_id % 60).toNat = frame_id.toNat % 60 := UInt64.toNat_mod ..
  have hlt := Nat.mod_lt frame_id.toNat (show 60 > 0 by decide)
  rw [Simulation.measure, UInt64.toNat_toUInt8, UInt64.toNat_add, hmod]
  simp only [UInt64.reduceToNat]
  omega

/-- The cast of the memory usage keeps its value. -/
theorem toNat_memory_usage_pct :
    (sim.measure frame_id).memory_usage_pct.toNat = 40 + frame_id.toNat % 45 := by
  have hmod : (frame_id % 45).toNat = frame_id.toNat % 45 := UInt64.toNat_mod ..
  have hlt := Nat.mod_lt frame_id.toNat (show 45 > 0 by decide)
  rw [Simulation.measure, UInt64.toNat_toUInt8, UInt64.toNat_add, hmod]
  simp only [UInt64.reduceToNat]
  omega

end Usage

/-! ## The onset -/

section Onset

variable (cfg : SatelliteConfig)

/-- The first frame whose CPU usage exceeds its threshold. -/
def cpuOnset : Option ℕ :=
  if cfg.cpu_usage_max_pct.toNat < 89 then some (cfg.cpu_usage_max_pct.toNat - 29) else none

/-- The first frame whose memory usage exceeds its threshold. -/
def memoryOnset : Option ℕ :=
  if cfg.memory_usage_max_pct.toNat < 84 then some (cfg.memory_usage_max_pct.toNat - 39) else none

/-- The first frame with one of the two. -/
def onset : Option ℕ :=
  Option.merge min (cpuOnset cfg) (memoryOnset cfg)

/-- The usage at the frame `n` exceeds a threshold. -/
def Exceeds (n : ℕ) : Prop :=
  cfg.cpu_usage_max_pct.toNat < 30 + n % 60 ∨ cfg.memory_usage_max_pct.toNat < 40 + n % 45

variable {cfg}

theorem cpuOnset_iff {n : ℕ} : (∃ k ∈ cpuOnset cfg, k ≤ n) ↔
    ∃ j ≤ n, cfg.cpu_usage_max_pct.toNat < 30 + j % 60 := by
  rw [exists_sawtooth_iff (by decide), cpuOnset]
  split_ifs with h
  · simp only [Option.mem_some_iff, exists_eq_left']
    omega
  · simp only [Option.not_mem_none, false_and, exists_false, false_iff]
    omega

theorem memoryOnset_iff {n : ℕ} : (∃ k ∈ memoryOnset cfg, k ≤ n) ↔
    ∃ j ≤ n, cfg.memory_usage_max_pct.toNat < 40 + j % 45 := by
  rw [exists_sawtooth_iff (by decide), memoryOnset]
  split_ifs with h
  · simp only [Option.mem_some_iff, exists_eq_left']
    omega
  · simp only [Option.not_mem_none, false_and, exists_false, false_iff]
    omega

/-- The earlier of two onsets has been reached when one of them has. -/
theorem merge_min_iff {o o' : Option ℕ} {n : ℕ} :
    (∃ k ∈ Option.merge min o o', k ≤ n) ↔ (∃ k ∈ o, k ≤ n) ∨ ∃ k ∈ o', k ≤ n := by
  cases o <;> cases o' <;> simp [Option.merge]

/-- The onset has been reached at the frame `n` when a frame up to it exceeds a threshold. -/
theorem onset_iff {n : ℕ} : (∃ k ∈ onset cfg, k ≤ n) ↔ ∃ j ≤ n, Exceeds cfg j := by
  rw [onset, merge_min_iff, cpuOnset_iff, memoryOnset_iff]
  constructor
  · rintro (⟨j, hj, hover⟩ | ⟨j, hj, hover⟩)
    · exact ⟨j, hj, Or.inl hover⟩
    · exact ⟨j, hj, Or.inr hover⟩
  · rintro ⟨j, hj, hover | hover⟩
    · exact Or.inl ⟨j, hj, hover⟩
    · exact Or.inr ⟨j, hj, hover⟩

theorem onset_eq_none_iff : onset cfg = none ↔
    89 ≤ cfg.cpu_usage_max_pct.toNat ∧ 84 ≤ cfg.memory_usage_max_pct.toNat := by
  unfold onset cpuOnset memoryOnset
  split_ifs <;> simp [Option.merge] <;> omega

end Onset

/-! ## Runs of the program -/

/-- The ticks of a simulated mission. -/
def simulated (sims : List (Simulation × Bool)) : List Tick :=
  sims.map fun p => .simulated p.1 p.2

section Runs

variable {cfg : SatelliteConfig} {sims : List (Simulation × Bool)} {n : ℕ} {g : TelemetryFrame}

/-- The `n`-th frame of a mission overloads when the usage at `n` exceeds a threshold. -/
theorem overloads_iff (hlen : sims.length < 2 ^ 64)
    (h : (measuredFrom cfg 0 (simulated sims))[n]? = some g) :
    Overloads cfg g ↔ Exceeds cfg n := by
  rw [measuredFrom_getElem?, simulated, List.getElem?_map, UInt64.zero_add] at h
  obtain ⟨tick, htick, rfl⟩ := Option.map_eq_some_iff.mp h
  obtain ⟨p, hp, rfl⟩ := Option.map_eq_some_iff.mp htick
  obtain ⟨hn, -⟩ := List.getElem?_eq_some_iff.mp hp
  have hid : (UInt64.ofNat n).toNat = n := UInt64.toNat_ofNat_of_lt' (Nat.lt_trans hn hlen)
  have hcpu := toNat_cpu_usage_pct p.1 (UInt64.ofNat n)
  have hmem := toNat_memory_usage_pct p.1 (UInt64.ofNat n)
  rw [hid] at hcpu hmem
  rw [Exceeds, ← hcpu, ← hmem]
  rfl

theorem length_measuredFrom : ∀ (ticks : List Tick) (frame_id : UInt64),
    (measuredFrom cfg frame_id ticks).length = ticks.length
  | [], _ => rfl
  | _ :: ticks, frame_id => congrArg (· + 1) (length_measuredFrom ticks (frame_id + 1))

/-- A frame of the mission up to the `n`-th overloads when the onset has been reached. -/
theorem exists_overloads_iff (hlen : sims.length < 2 ^ 64) (hn : n < sims.length) :
    (∃ m ≤ n, ∃ g, (measuredFrom cfg 0 (simulated sims))[m]? = some g ∧ Overloads cfg g) ↔
      ∃ k ∈ onset cfg, k ≤ n := by
  rw [onset_iff]
  constructor
  · rintro ⟨m, hm, g, hg, hover⟩
    exact ⟨m, hm, (overloads_iff hlen hg).mp hover⟩
  · rintro ⟨m, hm, hover⟩
    have hlt : m < (measuredFrom cfg 0 (simulated sims)).length := by
      rw [length_measuredFrom, simulated, List.length_map]
      exact Nat.lt_of_le_of_lt hm hn
    have hg := List.getElem?_eq_getElem hlt
    exact ⟨m, hm, _, hg, (overloads_iff hlen hg).mpr hover⟩

end Runs

variable {cfg : SatelliteConfig}

/-- A run of the loop of `main` over a simulated mission. -/
def mission (cfg : SatelliteConfig) (L : JsonLibrary)
    (cmd_queue : CommandQueue cfg.command_max_queue_depth) (sims : List (Simulation × Bool)) :
    Outcome (MainState cfg) Event CppException PUnit :=
  (loop cfg (registerCommandHandlers L {}) (simulated sims)).run { cmd_queue := cmd_queue }

section Mission

variable {L : JsonLibrary} {cmd_queue : CommandQueue cfg.command_max_queue_depth}
  {sims : List (Simulation × Bool)} (hlen : sims.length < 2 ^ 64)

include hlen

/-- The `n`-th frame handed to the dispatcher has the id `n`, and is in safe mode when the
onset has been reached. -/
theorem enqueued_mission {n : ℕ} {f : TelemetryFrame}
    (hf : (Event.enqueued (mission cfg L cmd_queue sims).events)[n]? = some f) :
    f.frame_id.toNat = n ∧ (f.safe_mode = true ↔ ∃ k ∈ onset cfg, k ≤ n) := by
  have hhealthy := enqueued_healthy (harmless_registered L) (simulated sims) cmd_queue hf
  obtain ⟨g, hg, hid, hgen, -⟩ := hhealthy.generated
  have hframe : f.frame_id = g.frame_id := by rw [hgen]
  obtain ⟨hn, -⟩ := List.getElem?_eq_some_iff.mp hg
  rw [length_measuredFrom, simulated, List.length_map] at hn
  refine ⟨?_, ?_⟩
  · rw [hframe, hid]
    exact UInt64.toNat_ofNat_of_lt' (Nat.lt_trans hn hlen)
  · rw [← exists_overloads_iff hlen hn]
    exact hhealthy.safe_mode

/-- Without an onset the variable stays false. -/
theorem safe_mode_mission (hnone : onset cfg = none) :
    (mission cfg L cmd_queue sims).state.safe_mode = false := by
  obtain ⟨n, hn⟩ := loop_tracks (harmless_registered L) (simulated sims) (tracks_start cmd_queue)
  rw [mission, hn.safe_mode, Bool.eq_false_iff]
  intro hany
  obtain ⟨g, hg, hover⟩ := (any_overloads_iff _).mp hany
  obtain ⟨m, hm⟩ := List.mem_iff_getElem?.mp (List.mem_of_mem_take hg)
  obtain ⟨hlt, -⟩ := List.getElem?_eq_some_iff.mp hm
  rw [length_measuredFrom, simulated, List.length_map] at hlt
  obtain ⟨k, hk, -⟩ := (exists_overloads_iff hlen hlt).mp ⟨m, Nat.le_refl m, g, hm, hover⟩
  rw [hnone] at hk
  cases hk

end Mission

/-! ## The result -/

/-- Safe mode in a run over a simulated mission. -/
structure SafeModeSetsIn (cfg : SatelliteConfig)
    (run : Outcome (MainState cfg) Event CppException PUnit) : Prop where
  /-- The frames handed to the dispatcher have the ids 0, 1, 2 and so on. -/
  ids : ∀ (n : ℕ) f, (Event.enqueued run.events)[n]? = some f → f.frame_id.toNat = n
  never : 89 ≤ cfg.cpu_usage_max_pct.toNat ∧ 84 ≤ cfg.memory_usage_max_pct.toNat →
    run.state.safe_mode = false ∧ ∀ f ∈ Event.enqueued run.events, f.safe_mode = false
  /-- Below one of the two thresholds, every frame from the onset on is in safe mode. -/
  from_onset : ¬(89 ≤ cfg.cpu_usage_max_pct.toNat ∧ 84 ≤ cfg.memory_usage_max_pct.toNat) →
    ∃ k, onset cfg = some k ∧ ∀ f ∈ Event.enqueued run.events,
      (f.frame_id.toNat < k → f.safe_mode = false) ∧ (k ≤ f.frame_id.toNat → f.safe_mode = true)
  /-- The casts of the usages keep their values. -/
  casts : ∀ (sim : Simulation) (frame_id : UInt64),
    (sim.measure frame_id).cpu_usage_pct.toNat = 30 + frame_id.toNat % 60 ∧
      (sim.measure frame_id).memory_usage_pct.toNat = 40 + frame_id.toNat % 45

/-- Every mission of fewer than `2^64` frames enters safe mode at its onset. -/
theorem safeModeSetsIn (L : JsonLibrary) (cmd_queue : CommandQueue cfg.command_max_queue_depth)
    {sims : List (Simulation × Bool)} (hlen : sims.length < 2 ^ 64) :
    SafeModeSetsIn cfg (mission cfg L cmd_queue sims) where
  ids n f hf := (enqueued_mission hlen hf).1
  never hhigh := by
    have hnone := onset_eq_none_iff.mpr hhigh
    refine ⟨safe_mode_mission hlen hnone, fun f hf => ?_⟩
    obtain ⟨n, hn⟩ := List.mem_iff_getElem?.mp hf
    obtain ⟨-, hsafe⟩ := enqueued_mission hlen hn
    rw [hnone] at hsafe
    rw [Bool.eq_false_iff]
    intro htrue
    obtain ⟨k, hk, -⟩ := hsafe.mp htrue
    cases hk
  from_onset hlow := by
    rw [← onset_eq_none_iff, ← ne_eq, Option.ne_none_iff_exists'] at hlow
    obtain ⟨k, hk⟩ := hlow
    refine ⟨k, hk, fun f hf => ?_⟩
    obtain ⟨n, hn⟩ := List.mem_iff_getElem?.mp hf
    obtain ⟨hid, hsafe⟩ := enqueued_mission hlen hn
    rw [hk] at hsafe
    simp only [Option.mem_some_iff, exists_eq_left'] at hsafe
    rw [hid]
    refine ⟨fun hlt => ?_, fun hle => hsafe.mpr hle⟩
    rw [Bool.eq_false_iff]
    exact fun htrue => Nat.not_le.mpr hlt (hsafe.mp htrue)
  casts sim frame_id := ⟨toNat_cpu_usage_pct sim frame_id, toNat_memory_usage_pct sim frame_id⟩

/-- With a CPU threshold of 30 safe mode sets in at the second frame; with the shipped
thresholds it never does. -/
theorem safeModeSetsIn_low : SafeModeSetsIn { cpu_usage_max_pct := 30 }
      (mission { cpu_usage_max_pct := 30 } (.ofText [] .null) (.init _)
        [({}, true), ({}, true), ({}, false)]) ∧
    onset { cpu_usage_max_pct := 30 } = some 1 ∧ onset {} = none :=
  ⟨safeModeSetsIn _ _ (by decide), by decide, by decide⟩

end Main

end Obcsw
