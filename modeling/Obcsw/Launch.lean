import Obcsw.Configuration
import Obcsw.Survival

/-!
# From the file to the process

`main` reads its configuration before anything else, and goes on with the defaults when that
fails : whatever is in the file, it runs, with a configuration that passes the validation. What
the file decides is whether a dispatch loop can end the process. It can exactly when the
document loads, with a name that is not UTF-8 and a frame queue that takes a frame
(`launches`).
-/

set_option linter.unusedSectionVars false

open Exceptions Program

namespace Obcsw

namespace Process

open ConfigLoader (Key load configured sectioned valid)

section Launch

variable (Y : YamlLibrary) (yaml_path : String)

/-- The configuration of `main` : the loaded one, or the defaults. -/
def launched : SatelliteConfig :=
  (load Y yaml_path).toOption.getD {}

/-- The document has a name, and it is not UTF-8. -/
def NameNotUtf8 (root : Yaml) : Prop :=
  ∃ name, (root.findPath Key.satellite_name.path).bind (Yaml.string Y) = some name ∧
    validUtf8 name = false

/-- The file holds a document that loads with such a name, and a frame queue with room. -/
def Crashes : Prop :=
  ∃ root, Y.loadFile yaml_path = .ok root ∧ sectioned root = true ∧ valid (configured Y root) ∧
    NameNotUtf8 Y root ∧ 0 < (Key.telemetry_max_frame_queue_depth.value Y root).toNat

/-- The name of the merge is not UTF-8 only if the document says so. -/
theorem name_not_utf8_iff (root : Yaml) :
    validUtf8 (configured Y root).satellite_name = false ↔ NameNotUtf8 Y root := by
  change validUtf8 (Key.satellite_name.value Y root) = false ↔ _
  unfold Key.value NameNotUtf8 Yaml.asOr
  rw [show Key.satellite_name.convert = Yaml.string from rfl]
  cases (root.findPath Key.satellite_name.path).bind (Yaml.string Y) with
  | none => exact iff_of_false (by decide +kernel) (by simp)
  | some name => simp

/-- What `main` starts with, by what becomes of the file. -/
theorem launched_cases : (∃ root, Y.loadFile yaml_path = .ok root ∧ sectioned root = true ∧
      valid (configured Y root) ∧ load Y yaml_path = .ok (configured Y root) ∧
      launched Y yaml_path = configured Y root) ∨
    ∃ e, load Y yaml_path = .error e ∧ launched Y yaml_path = {} := by
  rcases ConfigLoader.load_cases Y yaml_path with ⟨root, hfile, hs, hv, hload⟩ | ⟨e, hload, -⟩
  · exact Or.inl ⟨root, hfile, hs, hv, hload, by rw [launched, hload]; rfl⟩
  · exact Or.inr ⟨e, hload, by rw [launched, hload]; rfl⟩

/-- Reading the configuration always returns. -/
theorem startup_returns : ∃ es, (startup (load Y yaml_path)).Returns ⟨⟩ es
    (launched Y yaml_path) ⟨⟩ ∧ (es = [] ↔ ∃ cfg, load Y yaml_path = .ok cfg) := by
  unfold Prog.Returns startup
  rcases launched_cases Y yaml_path with ⟨root, -, -, -, hload, hcfg⟩ | ⟨e, hload, hcfg⟩
  · refine ⟨[], ?_, iff_of_true rfl ⟨_, hload⟩⟩
    rw [hload, hcfg]
    exact tryCatch_of_ok rfl
  · refine ⟨[.cerr (bytes ("[MAIN] Config load failed: " ++ e.what ++ " — using defaults.\n"))],
      ?_, iff_of_false nofun ?_⟩
    · rw [hload, hcfg, tryCatch_of_caught rfl (by rw [if_pos e.isA_exception])]
      rfl
    · rintro ⟨cfg, hok⟩
      cases hok.symm.trans hload

/-- The process on a configuration file. -/
structure Launches (L : JsonLibrary) (uplinks : List Uplink) : Prop where
  /-- `main` gets its configuration from any file, with a report unless it loads. -/
  starts : ∃ es, (startup (load Y yaml_path)).Returns ⟨⟩ es (launched Y yaml_path) ⟨⟩ ∧
    (es = [] ↔ ∃ cfg, load Y yaml_path = .ok cfg)
  valid : valid (launched Y yaml_path)
  /-- The files on which a dispatch loop can end the process. -/
  crashes_iff : (∃ s, (system (launched Y yaml_path) L uplinks).Reachable s ∧
    s.downlink.terminated = true) ↔ Crashes Y yaml_path

theorem launches {L : JsonLibrary} (hL : L.Lawful) (uplinks : List Uplink) :
    Launches Y yaml_path L uplinks where
  starts := startup_returns Y yaml_path
  valid := by
    rcases launched_cases Y yaml_path with ⟨root, -, -, hv, -, hcfg⟩ | ⟨e, -, hcfg⟩
    · rw [hcfg]
      exact hv
    · rw [hcfg]
      exact ConfigLoader.valid_default
  crashes_iff := by
    constructor
    · rintro ⟨s, hr, hterm⟩
      obtain ⟨hname, hdepth⟩ := of_terminated hL hr hterm
      rcases launched_cases Y yaml_path with ⟨root, hfile, hs, hv, -, hcfg⟩ | ⟨e, -, hcfg⟩
      · rw [hcfg] at hname hdepth
        exact ⟨root, hfile, hs, hv, (name_not_utf8_iff Y root).mp hname, hdepth⟩
      · rw [hcfg] at hname
        exact absurd hname (by decide +kernel)
    · rintro ⟨root, hfile, hs, hv, hname, hdepth⟩
      have hcfg : launched Y yaml_path = configured Y root := by
        rw [launched, ConfigLoader.load_of_valid hfile hs hv]
        rfl
      refine exists_terminated hL ?_ ?_
      · rw [hcfg]
        exact (name_not_utf8_iff Y root).mpr hname
      · rw [hcfg]
        exact hdepth

end Launch

/-- A file that names the satellite with the byte 255 lets the process crash. -/
theorem launches_unencodable : ∃ s, (system (launched (ConfigLoader.decimalLibrary.serving
      (ConfigLoader.mapping [("satellite", ConfigLoader.mapping [("name", .scalar [255])])]))
      "satellite.yaml") TelemetrySerializer.nominalLibrary []).Reachable s ∧
    s.downlink.terminated = true := by
  refine (launches _ "satellite.yaml" TelemetrySerializer.nominalLibrary_lawful []).crashes_iff.mpr
    ⟨_, rfl, by decide +kernel, by decide +kernel, ⟨[255], rfl, by decide⟩, by decide +kernel⟩

end Process

end Obcsw
