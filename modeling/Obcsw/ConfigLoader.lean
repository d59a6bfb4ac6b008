import Obcsw.Records
import Obcsw.Yaml

/-!
# ConfigLoader

A YAML file to `SatelliteConfig`. `load` reads the document, merges the values it finds into
the defaults section by section (`readSatellite` to `readHealth`), and validates the result.

The defaults are written twice in the source, in the struct and as the fallback of each
`as<T>(fallback)`. `configured` is the merge with the struct's defaults alone, one value per
key of the table `keys`, and `read_cases` says what loading does with a document : when no
section it indexes is a scalar and `satellite` is there (`sectioned`), it validates
`configured`; otherwise it throws.
-/

set_option linter.unusedSectionVars false

open Exceptions

namespace Obcsw.ConfigLoader

/-! ## The code -/

section Code

variable (L : YamlLibrary)

/-- `node[k].as<T>(fallback)`. -/
def read {α : Type} (decode : Yaml → Option α) (node : Yaml) (k : String) (fallback : α) :
    Except CppException α := do
  return Yaml.asOr decode fallback (← node.index k)

/-- `if (auto section = node[k]) { ... }`. -/
def ifSection (node : Yaml) (k : String)
    (body : Yaml → SatelliteConfig → Except CppException SatelliteConfig)
    (cfg : SatelliteConfig) : Except CppException SatelliteConfig := do
  match ← node.index k with
  | none => return cfg
  | some sec => body sec cfg

def readSatellite (root : Yaml) (cfg : SatelliteConfig) : Except CppException SatelliteConfig := do
  match ← root.index "satellite" with
  | none => throw (runtime_error "ConfigLoader: missing 'satellite' section")
  | some sat =>
    let satellite_name ← read (Yaml.string L) sat "name" (bytes "UNKNOWN")
    let mission_id ← read (Yaml.string L) sat "mission_id" (bytes "UNKNOWN")
    let software_version ← read (Yaml.string L) sat "software_version" (bytes "0.0.0")
    return { cfg with satellite_name, mission_id, software_version }

def readUdp (udp : Yaml) (cfg : SatelliteConfig) : Except CppException SatelliteConfig := do
  let ground_station_ip ← read (Yaml.string L) udp "ground_station_ip" (bytes "127.0.0.1")
  let ground_station_port ← read (Yaml.u16 L) udp "ground_station_port" 5005
  let bind_port ← read (Yaml.u16 L) udp "bind_port" 5004
  return { cfg with ground_station_ip, ground_station_port, bind_port }

def readTelemetry (root : Yaml) : SatelliteConfig → Except CppException SatelliteConfig :=
  ifSection root "telemetry" fun tlm cfg => do
    let telemetry_dispatch_interval_ms ← read (Yaml.u32 L) tlm "dispatch_interval_ms" 1000
    let telemetry_max_frame_queue_depth ← read (Yaml.u32 L) tlm "max_frame_queue_depth" 64
    ifSection tlm "udp" (readUdp L)
      { cfg with telemetry_dispatch_interval_ms, telemetry_max_frame_queue_depth }

def readCommand (root : Yaml) : SatelliteConfig → Except CppException SatelliteConfig :=
  ifSection root "command" fun cmd cfg => do
    let command_max_queue_depth ← read (Yaml.u32 L) cmd "max_queue_depth" 32
    let command_timeout_ms ← read (Yaml.u32 L) cmd "command_timeout_ms" 5000
    return { cfg with command_max_queue_depth, command_timeout_ms }

def readThresholds (thr : Yaml) (cfg : SatelliteConfig) : Except CppException SatelliteConfig := do
  let battery_voltage_min_v ← read (Yaml.double L) thr "battery_voltage_min_v" 6.5
  let battery_voltage_max_v ← read (Yaml.double L) thr "battery_voltage_max_v" 8.4
  let temperature_min_c ← read (Yaml.double L) thr "temperature_min_c" (-20.0)
  let temperature_max_c ← read (Yaml.double L) thr "temperature_max_c" 85.0
  let cpu_usage_max_pct ← read (Yaml.u8 L) thr "cpu_usage_max_pct" 90
  let memory_usage_max_pct ← read (Yaml.u8 L) thr "memory_usage_max_pct" 85
  return { cfg with battery_voltage_min_v, battery_voltage_max_v, temperature_min_c,
                    temperature_max_c, cpu_usage_max_pct, memory_usage_max_pct }

def readHealth (root : Yaml) : SatelliteConfig → Except CppException SatelliteConfig :=
  ifSection root "health" fun health cfg => do
    let watchdog_interval_ms ← read (Yaml.u32 L) health "watchdog_interval_ms" 2000
    ifSection health "fault_thresholds" (readThresholds L) { cfg with watchdog_interval_ms }

/-- Basic validation. -/
def validate (cfg : SatelliteConfig) : Except CppException SatelliteConfig :=
  if cfg.ground_station_ip = [] then
    throw (runtime_error "ConfigLoader: ground_station_ip must not be empty")
  else if cfg.battery_voltage_min_v ≥ cfg.battery_voltage_max_v then
    throw (runtime_error "ConfigLoader: battery_voltage_min_v must be < max_v")
  else return cfg

/-- The part of `load` after the file is read. -/
def loadRoot (root : Yaml) : Except CppException SatelliteConfig := do
  let cfg ← readSatellite L root {}
  let cfg ← readTelemetry L root cfg
  let cfg ← readCommand L root cfg
  let cfg ← readHealth L root cfg
  validate cfg

/-- Load and validate the configuration from a YAML file. -/
def load (yaml_path : String) : Except CppException SatelliteConfig := do
  let root ← rethrowing .yaml_parser_exception
    (fun e => runtime_error
      ("ConfigLoader: YAML parse error in '" ++ yaml_path ++ "': " ++ e.what))
    (rethrowing .yaml_bad_file
      (fun e => runtime_error ("ConfigLoader: cannot open '" ++ yaml_path ++ "': " ++ e.what))
      (L.loadThrowing yaml_path))
  loadRoot L root

end Code

/-! ## The keys and their values -/

/-- A key that `load` reads : its path, the conversion of its type, and the field it sets. -/
structure Key (α : Type) where
  path : List String
  convert : YamlLibrary → Yaml → Option α
  field : SatelliteConfig → α

namespace Key

variable {α : Type}

/-- The field's default in the struct. -/
def dflt (key : Key α) : α :=
  key.field {}

/-- The value of a document at the key : the converted node, or the default. -/
def value (L : YamlLibrary) (root : Yaml) (key : Key α) : α :=
  Yaml.asOr (key.convert L) key.dflt (root.findPath key.path)

def satellite_name : Key Bytes :=
  ⟨["satellite", "name"], Yaml.string, (·.satellite_name)⟩

def mission_id : Key Bytes :=
  ⟨["satellite", "mission_id"], Yaml.string, (·.mission_id)⟩

def software_version : Key Bytes :=
  ⟨["satellite", "software_version"], Yaml.string, (·.software_version)⟩

def telemetry_dispatch_interval_ms : Key UInt32 :=
  ⟨["telemetry", "dispatch_interval_ms"], Yaml.u32, (·.telemetry_dispatch_interval_ms)⟩

def telemetry_max_frame_queue_depth : Key UInt32 :=
  ⟨["telemetry", "max_frame_queue_depth"], Yaml.u32, (·.telemetry_max_frame_queue_depth)⟩

def ground_station_ip : Key Bytes :=
  ⟨["telemetry", "udp", "ground_station_ip"], Yaml.string, (·.ground_station_ip)⟩

def ground_station_port : Key UInt16 :=
  ⟨["telemetry", "udp", "ground_station_port"], Yaml.u16, (·.ground_station_port)⟩

def bind_port : Key UInt16 :=
  ⟨["telemetry", "udp", "bind_port"], Yaml.u16, (·.bind_port)⟩

def command_max_queue_depth : Key UInt32 :=
  ⟨["command", "max_queue_depth"], Yaml.u32, (·.command_max_queue_depth)⟩

def command_timeout_ms : Key UInt32 :=
  ⟨["command", "command_timeout_ms"], Yaml.u32, (·.command_timeout_ms)⟩

def watchdog_interval_ms : Key UInt32 :=
  ⟨["health", "watchdog_interval_ms"], Yaml.u32, (·.watchdog_interval_ms)⟩

/-- The key of one fault threshold. -/
def threshold (name : String) (convert : YamlLibrary → Yaml → Option α)
    (field : SatelliteConfig → α) : Key α :=
  ⟨["health", "fault_thresholds", name], convert, field⟩

def battery_voltage_min_v : Key Binary64 :=
  threshold "battery_voltage_min_v" Yaml.double (·.battery_voltage_min_v)

def battery_voltage_max_v : Key Binary64 :=
  threshold "battery_voltage_max_v" Yaml.double (·.battery_voltage_max_v)

def temperature_min_c : Key Binary64 :=
  threshold "temperature_min_c" Yaml.double (·.temperature_min_c)

def temperature_max_c : Key Binary64 :=
  threshold "temperature_max_c" Yaml.double (·.temperature_max_c)

def cpu_usage_max_pct : Key UInt8 :=
  threshold "cpu_usage_max_pct" Yaml.u8 (·.cpu_usage_max_pct)

def memory_usage_max_pct : Key UInt8 :=
  threshold "memory_usage_max_pct" Yaml.u8 (·.memory_usage_max_pct)

end Key

open Key in
/-- The keys, in the order they are read. -/
def keys : List ((α : Type) × Key α) :=
  [⟨_, satellite_name⟩, ⟨_, mission_id⟩, ⟨_, software_version⟩,
    ⟨_, telemetry_dispatch_interval_ms⟩, ⟨_, telemetry_max_frame_queue_depth⟩,
    ⟨_, ground_station_ip⟩, ⟨_, ground_station_port⟩, ⟨_, bind_port⟩,
    ⟨_, command_max_queue_depth⟩, ⟨_, command_timeout_ms⟩, ⟨_, watchdog_interval_ms⟩,
    ⟨_, battery_voltage_min_v⟩, ⟨_, battery_voltage_max_v⟩, ⟨_, temperature_min_c⟩,
    ⟨_, temperature_max_c⟩, ⟨_, cpu_usage_max_pct⟩, ⟨_, memory_usage_max_pct⟩]

/-- The sections that a document may leave out. -/
def optionalSections : List (List String) :=
  [["telemetry"], ["telemetry", "udp"], ["command"], ["health"], ["health", "fault_thresholds"]]

/-- The sections `load` indexes, the document itself among them. -/
def sections : List (List String) :=
  [] :: ["satellite"] :: optionalSections

/-- What stands at the path, if anything, can be indexed. -/
def indexable (root : Yaml) (path : List String) : Bool :=
  (root.findPath path).all fun n => !n.isScalar

/-- The document has a `satellite` section and no scalar for a section. -/
def sectioned (root : Yaml) : Bool :=
  (root.findPath ["satellite"]).isSome && sections.all (indexable root)

section Configured

variable (L : YamlLibrary) (root : Yaml)

/-- The struct's defaults, with the values of the document in their place. -/
def configured : SatelliteConfig where
  satellite_name := Key.satellite_name.value L root
  mission_id := Key.mission_id.value L root
  software_version := Key.software_version.value L root
  telemetry_dispatch_interval_ms := Key.telemetry_dispatch_interval_ms.value L root
  telemetry_max_frame_queue_depth := Key.telemetry_max_frame_queue_depth.value L root
  ground_station_ip := Key.ground_station_ip.value L root
  ground_station_port := Key.ground_station_port.value L root
  bind_port := Key.bind_port.value L root
  command_max_queue_depth := Key.command_max_queue_depth.value L root
  command_timeout_ms := Key.command_timeout_ms.value L root
  watchdog_interval_ms := Key.watchdog_interval_ms.value L root
  battery_voltage_min_v := Key.battery_voltage_min_v.value L root
  battery_voltage_max_v := Key.battery_voltage_max_v.value L root
  temperature_min_c := Key.temperature_min_c.value L root
  temperature_max_c := Key.temperature_max_c.value L root
  cpu_usage_max_pct := Key.cpu_usage_max_pct.value L root
  memory_usage_max_pct := Key.memory_usage_max_pct.value L root

/-- Every field of the merge is the value at its key. -/
theorem field_configured : ∀ k ∈ keys, k.2.field (configured L root) = k.2.value L root := by
  simp only [keys, List.forall_mem_cons]
  exact ⟨rfl, rfl, rfl, rfl, rfl, rfl, rfl, rfl, rfl, rfl, rfl, rfl, rfl, rfl, rfl, rfl, rfl,
    fun _ h => (List.not_mem_nil h).elim⟩

/-- Two documents with the same value at every key merge alike. -/
theorem configured_congr {root₁ root₂ : Yaml}
    (h : ∀ k ∈ keys, k.2.value L root₁ = k.2.value L root₂) :
    configured L root₁ = configured L root₂ := by
  simp only [keys, List.forall_mem_cons] at h
  simp only [configured, h]

end Configured

/-! ## What loading does -/

/-- `x` gives `c` if `p` holds, and throws a `std::runtime_error` otherwise. -/
def Gives {α : Type} (p : Bool) (c : α) (x : Except CppException α) : Prop :=
  if p then x = .ok c else Throws .runtime_error x

section Gives

variable {α β : Type} {p q : Bool} {a : α} {b : β} {x : Except CppException α}

theorem gives_ok (a : α) : Gives true a (.ok a) :=
  rfl

theorem Gives.congr {p' : Bool} {a' : α} (h : Gives p a x) (hp : p = p')
    (ha : p' = true → a = a') : Gives p' a' x := by
  subst hp
  cases p with
  | false => exact h
  | true => rwa [← ha rfl]

theorem Gives.bind {f : α → Except CppException β} (hx : Gives p a x)
    (hf : p = true → Gives q b (f a)) : Gives (p && q) b (x >>= f) := by
  cases p with
  | false => exact Throws.bind hx f
  | true =>
    rw [show x = .ok a from hx, Bool.true_and]
    exact hf rfl

end Gives

section Load

variable (L : YamlLibrary) {α : Type} (decode : Yaml → Option α) (fallback : α) (k : String)
variable (node root : Yaml) (cfg : SatelliteConfig)

theorem index_gives : Gives (!node.isScalar) (node.find k) (node.index k) := by
  rw [Yaml.index_eq]
  cases node.isScalar
  · exact gives_ok _
  · exact throws_error rfl

variable {node} in
theorem read_ok (h : node.isScalar = false) :
    read decode node k fallback = .ok (Yaml.asOr decode fallback (node.find k)) := by
  rw [read, Yaml.index_eq, h]
  rfl

variable {node} in
theorem read_throws (h : node.isScalar = true) :
    Throws .runtime_error (read decode node k fallback) := by
  rw [read, Yaml.index_eq, h]
  exact throws_error rfl

section IfSection

variable {k node} (body : Yaml → SatelliteConfig → Except CppException SatelliteConfig)

/-- A section that is absent is passed over, one that is there gives what its body gives. -/
theorem ifSection_gives {c : SatelliteConfig} {p : Yaml → Bool} (hnode : node.isScalar = false)
    (hnone : node.find k = none → cfg = c)
    (hsome : ∀ sec, node.find k = some sec → Gives (p sec) c (body sec cfg)) :
    Gives ((node.find k).all p) c (ifSection node k body cfg) := by
  rw [ifSection, Yaml.index_eq, hnode]
  cases hsec : node.find k with
  | none =>
    rw [← hnone hsec]
    exact gives_ok cfg
  | some sec => exact hsome sec hsec

end IfSection

/-! ### The sections -/

theorem readUdp_gives (udp : Yaml) : Gives (!udp.isScalar)
    { cfg with
      ground_station_ip :=
        Yaml.asOr (Yaml.string L) (bytes "127.0.0.1") (udp.find "ground_station_ip")
      ground_station_port := Yaml.asOr (Yaml.u16 L) 5005 (udp.find "ground_station_port")
      bind_port := Yaml.asOr (Yaml.u16 L) 5004 (udp.find "bind_port") }
    (readUdp L udp cfg) := by
  unfold readUdp
  cases h : udp.isScalar with
  | true => exact Throws.bind (read_throws _ _ _ h) _
  | false =>
    simp only [read_ok _ _ _ h, ok_bind]
    exact gives_ok _

theorem readThresholds_gives (thr : Yaml) : Gives (!thr.isScalar)
    { cfg with
      battery_voltage_min_v := Yaml.asOr (Yaml.double L) 6.5 (thr.find "battery_voltage_min_v")
      battery_voltage_max_v := Yaml.asOr (Yaml.double L) 8.4 (thr.find "battery_voltage_max_v")
      temperature_min_c := Yaml.asOr (Yaml.double L) (-20.0) (thr.find "temperature_min_c")
      temperature_max_c := Yaml.asOr (Yaml.double L) 85.0 (thr.find "temperature_max_c")
      cpu_usage_max_pct := Yaml.asOr (Yaml.u8 L) 90 (thr.find "cpu_usage_max_pct")
      memory_usage_max_pct := Yaml.asOr (Yaml.u8 L) 85 (thr.find "memory_usage_max_pct") }
    (readThresholds L thr cfg) := by
  unfold readThresholds
  cases h : thr.isScalar with
  | true => exact Throws.bind (read_throws _ _ _ h) _
  | false =>
    simp only [read_ok _ _ _ h, ok_bind]
    exact gives_ok _

/-- The merge with the satellite section alone. -/
def identified : SatelliteConfig where
  satellite_name := Key.satellite_name.value L root
  mission_id := Key.mission_id.value L root
  software_version := Key.software_version.value L root

/-- The merge of the sections before the command section. -/
def withTelemetry : SatelliteConfig :=
  { identified L root with
    telemetry_dispatch_interval_ms := Key.telemetry_dispatch_interval_ms.value L root
    telemetry_max_frame_queue_depth := Key.telemetry_max_frame_queue_depth.value L root
    ground_station_ip := Key.ground_station_ip.value L root
    ground_station_port := Key.ground_station_port.value L root
    bind_port := Key.bind_port.value L root }

/-- The merge of the sections before the health section. -/
def withCommand : SatelliteConfig :=
  { withTelemetry L root with
    command_max_queue_depth := Key.command_max_queue_depth.value L root
    command_timeout_ms := Key.command_timeout_ms.value L root }

theorem indexable_cons (ks : List String) :
    indexable root (k :: ks) = (root.find k).all fun n => indexable n ks := by
  unfold indexable
  rw [Yaml.findPath_cons]
  cases root.find k <;> rfl

/-- A section and what is below it, read in that section. -/
theorem indexable_section (ks : List String) :
    (indexable root [k] && indexable root (k :: ks)) =
      (root.find k).all fun n => !n.isScalar && indexable n ks := by
  rw [indexable_cons, indexable_cons]
  cases root.find k <;> rfl

variable {k} in
/-- The value at a key below the section `k`, read in that section. -/
theorem value_of_find {key : Key α} {sec : Yaml} {ks : List String} (hpath : key.path = k :: ks)
    (hsec : root.find k = some sec) :
    key.value L root = Yaml.asOr (key.convert L) key.dflt (sec.findPath ks) := by
  rw [Key.value, hpath, Yaml.findPath_cons, hsec, Option.bind_some]

variable {k} in
/-- A key of an absent section has its default. -/
theorem value_of_find_none {key : Key α} {ks : List String} (hpath : key.path = k :: ks)
    (hsec : root.find k = none) : key.value L root = key.dflt := by
  rw [Key.value, hpath, Yaml.findPath_cons, hsec, Option.bind_none, Yaml.asOr_none]

theorem readSatellite_gives : Gives
    (!root.isScalar && ((root.find "satellite").isSome && indexable root ["satellite"]))
    (identified L root) (readSatellite L root {}) := by
  unfold readSatellite
  refine (index_gives "satellite" root).bind fun _ => ?_
  rw [indexable_cons]
  cases hsat : root.find "satellite" with
  | none => exact throws_error rfl
  | some sat =>
    cases h : sat.isScalar with
    | true =>
      simp only [Option.all_some, indexable, Yaml.findPath_nil, h]
      exact Throws.bind (read_throws _ _ _ h) _
    | false =>
      simp only [read_ok _ _ _ h, ok_bind, Option.all_some, indexable, Yaml.findPath_nil, h]
      refine (gives_ok _).congr rfl fun _ => ?_
      unfold identified
      iterate 3 rw [value_of_find L root rfl hsat]
      simp only [Yaml.findPath_singleton]
      rfl

theorem readTelemetry_gives (hroot : root.isScalar = false) : Gives
    (indexable root ["telemetry"] && indexable root ["telemetry", "udp"])
    (withTelemetry L root) (readTelemetry L root (identified L root)) := by
  unfold readTelemetry withTelemetry
  rw [indexable_section]
  refine ifSection_gives _ _ hroot (fun htlm => ?_) fun tlm htlm => ?_
  · iterate 5 rw [value_of_find_none L root rfl htlm]
    rfl
  · iterate 5 rw [value_of_find L root rfl htlm]
    cases h : tlm.isScalar with
    | true => exact Throws.bind (read_throws _ _ _ h) _
    | false =>
      simp only [read_ok _ _ _ h, ok_bind, indexable_cons, Yaml.findPath_cons "udp",
        Yaml.findPath_singleton]
      refine ifSection_gives _ _ h (fun hudp => ?_) fun udp hudp => ?_
      · rw [hudp]
        rfl
      · rw [hudp]
        exact readUdp_gives L _ udp

theorem readCommand_gives (hroot : root.isScalar = false) : Gives
    (indexable root ["command"])
    (withCommand L root) (readCommand L root (withTelemetry L root)) := by
  unfold readCommand withCommand
  rw [indexable_cons]
  refine ifSection_gives _ _ hroot (fun hcmd => ?_) fun cmd hcmd => ?_
  · iterate 2 rw [value_of_find_none L root rfl hcmd]
    rfl
  · iterate 2 rw [value_of_find L root rfl hcmd]
    cases h : cmd.isScalar with
    | true =>
      simp only [indexable, Yaml.findPath_nil, Option.all_some, h]
      exact Throws.bind (read_throws _ _ _ h) _
    | false =>
      simp only [read_ok _ _ _ h, ok_bind, indexable, Yaml.findPath_nil, Option.all_some, h]
      exact (gives_ok _).congr rfl fun _ => by simp only [Yaml.findPath_singleton]; rfl

theorem readHealth_gives (hroot : root.isScalar = false) : Gives
    (indexable root ["health"] && indexable root ["health", "fault_thresholds"])
    (configured L root) (readHealth L root (withCommand L root)) := by
  rw [show configured L root = { withCommand L root with
    watchdog_interval_ms := Key.watchdog_interval_ms.value L root
    battery_voltage_min_v := Key.battery_voltage_min_v.value L root
    battery_voltage_max_v := Key.battery_voltage_max_v.value L root
    temperature_min_c := Key.temperature_min_c.value L root
    temperature_max_c := Key.temperature_max_c.value L root
    cpu_usage_max_pct := Key.cpu_usage_max_pct.value L root
    memory_usage_max_pct := Key.memory_usage_max_pct.value L root } from rfl]
  unfold readHealth
  rw [indexable_section]
  refine ifSection_gives _ _ hroot (fun hhealth => ?_) fun health hhealth => ?_
  · iterate 7 rw [value_of_find_none L root rfl hhealth]
    rfl
  · iterate 7 rw [value_of_find L root rfl hhealth]
    cases h : health.isScalar with
    | true => exact Throws.bind (read_throws _ _ _ h) _
    | false =>
      simp only [read_ok _ _ _ h, ok_bind, indexable_cons, Yaml.findPath_cons "fault_thresholds",
        Yaml.findPath_singleton]
      refine ifSection_gives _ _ h (fun hthr => ?_) fun thr hthr => ?_
      · rw [hthr]
        rfl
      · rw [hthr]
        exact readThresholds_gives L _ thr

/-! ### The sections together -/

theorem sections_give : Gives (sectioned root) (configured L root)
    (readSatellite L root {} >>= readTelemetry L root >>= readCommand L root >>=
      readHealth L root) := by
  have hsat := readSatellite_gives L root
  cases hroot : root.isScalar with
  | true =>
    rw [hroot] at hsat
    refine (show Gives false (configured L root) _ from ?_).congr ?_ fun _ => rfl
    · exact ((Throws.bind hsat _).bind _).bind _
    · simp [sectioned, sections, indexable, hroot]
  | false =>
    refine (((hsat.bind fun _ => readTelemetry_gives L root hroot).bind fun _ =>
      readCommand_gives L root hroot).bind fun _ => readHealth_gives L root hroot).congr ?_
      fun _ => rfl
    simp only [sectioned, sections, optionalSections, List.all_cons, List.all_nil, hroot,
      Yaml.findPath_singleton, show indexable root [] = !root.isScalar from rfl, Bool.not_false,
      Bool.true_and, Bool.and_true, Bool.and_assoc]

/-! ### Loading -/

theorem loadRoot_eq_bind : loadRoot L root =
    readSatellite L root {} >>= readTelemetry L root >>= readCommand L root >>=
      readHealth L root >>= validate := by
  simp only [loadRoot, bind_assoc]

variable {L root} {yaml_path : String}

/-- Loading validates the merge of a sectioned document. -/
theorem loadRoot_eq (h : sectioned root = true) :
    loadRoot L root = validate (configured L root) := by
  have hs := sections_give L root
  rw [h] at hs
  rw [loadRoot_eq_bind, show _ = Except.ok _ from hs, ok_bind]

theorem loadRoot_throws (h : sectioned root = false) : Throws .runtime_error (loadRoot L root) := by
  have hs := sections_give L root
  rw [h] at hs
  rw [loadRoot_eq_bind]
  exact Throws.bind hs _

/-- Loading goes by the values at the keys alone, once both documents are sectioned. -/
theorem loadRoot_congr {root₁ root₂ : Yaml} (h₁ : sectioned root₁ = true)
    (h₂ : sectioned root₂ = true) (h : ∀ k ∈ keys, k.2.value L root₁ = k.2.value L root₂) :
    loadRoot L root₁ = loadRoot L root₂ := by
  rw [loadRoot_eq h₁, loadRoot_eq h₂, configured_congr L h]

/-- What `validate` lets through. -/
def valid (cfg : SatelliteConfig) : Prop :=
  cfg.ground_station_ip ≠ [] ∧ ¬cfg.battery_voltage_min_v ≥ cfg.battery_voltage_max_v

instance : Decidable (valid cfg) :=
  inferInstanceAs (Decidable (_ ∧ _))

variable {cfg} in
theorem validate_of_valid (h : valid cfg) : validate cfg = .ok cfg := by
  rw [validate, if_neg h.1, if_neg h.2]
  rfl

variable {cfg} in
theorem validate_throws (h : ¬valid cfg) : Throws .runtime_error (validate cfg) := by
  unfold validate
  split_ifs with hip hbattery
  · exact throws_error rfl
  · exact throws_error rfl
  · exact absurd ⟨hip, hbattery⟩ h

theorem load_of_ok (h : L.loadFile yaml_path = .ok root) : load L yaml_path = loadRoot L root := by
  rw [load, YamlLibrary.loadThrowing, h]
  rfl

theorem load_of_error {e : YamlFailure} (h : L.loadFile yaml_path = .error e) :
    Throws .runtime_error (load L yaml_path) := by
  rw [load, YamlLibrary.loadThrowing, h]
  cases e with
  | bad_file w => exact throws_error rfl
  | parser_exception w => exact throws_error rfl
  | exception w => exact throws_error (YamlFailure.isA_runtime_error (.exception w))

/-- What `load` returns is the valid merge of a sectioned document, and every failure is a
`std::runtime_error`. -/
theorem load_cases (L : YamlLibrary) (yaml_path : String) :
    (∃ root, L.loadFile yaml_path = .ok root ∧ sectioned root = true ∧
      valid (configured L root) ∧ load L yaml_path = .ok (configured L root)) ∨
    Throws .runtime_error (load L yaml_path) := by
  cases hfile : L.loadFile yaml_path with
  | error e => exact Or.inr (load_of_error hfile)
  | ok root =>
    rw [load_of_ok hfile]
    cases hs : sectioned root with
    | false => exact Or.inr (loadRoot_throws hs)
    | true =>
      rw [loadRoot_eq hs]
      by_cases hv : valid (configured L root)
      · exact Or.inl ⟨root, rfl, hs, hv, validate_of_valid hv⟩
      · exact Or.inr (validate_throws hv)

theorem load_of_valid (hfile : L.loadFile yaml_path = .ok root) (hs : sectioned root = true)
    (hv : valid (configured L root)) : load L yaml_path = .ok (configured L root) := by
  rw [load_of_ok hfile, loadRoot_eq hs, validate_of_valid hv]

variable {cfg} in
/-- A configuration comes from a valid merge of a sectioned document. -/
theorem load_eq_ok (h : load L yaml_path = .ok cfg) :
    ∃ root, L.loadFile yaml_path = .ok root ∧ sectioned root = true ∧
      valid (configured L root) ∧ cfg = configured L root := by
  rcases load_cases L yaml_path with ⟨root, hfile, hs, hv, hload⟩ | hthrow
  · exact ⟨root, hfile, hs, hv, Except.ok.inj (h.symm.trans hload)⟩
  · rw [h] at hthrow
    exact absurd hthrow (not_throws_ok cfg)

end Load

end Obcsw.ConfigLoader
