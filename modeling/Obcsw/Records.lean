import Obcsw.Json

/-!
# Records

The plain records the subsystems pass to each other : `SatelliteConfig`, loaded once at
startup, and `TelemetryFrame`, one snapshot of all telemetry values. The fields and their
defaults are those of the source. A `std::string` is `Bytes` and a `double` is `Binary64`.
-/

namespace Obcsw

/-- Central configuration of the on-board computer. -/
structure SatelliteConfig where
  satellite_name : Bytes := bytes "UNKNOWN"
  mission_id : Bytes := bytes "UNKNOWN"
  software_version : Bytes := bytes "0.0.0"
  telemetry_dispatch_interval_ms : UInt32 := 1000
  telemetry_max_frame_queue_depth : UInt32 := 64
  ground_station_ip : Bytes := bytes "127.0.0.1"
  ground_station_port : UInt16 := 5005
  bind_port : UInt16 := 5004
  command_max_queue_depth : UInt32 := 32
  command_timeout_ms : UInt32 := 5000
  watchdog_interval_ms : UInt32 := 2000
  battery_voltage_min_v : Binary64 := 6.5
  battery_voltage_max_v : Binary64 := 8.4
  temperature_min_c : Binary64 := -20.0
  temperature_max_c : Binary64 := 85.0
  cpu_usage_max_pct : UInt8 := 90
  memory_usage_max_pct : UInt8 := 85

/-- One snapshot of all subsystem telemetry values. -/
structure TelemetryFrame where
  frame_id : UInt64 := 0
  timestamp_ms : UInt64 := 0
  satellite_id : Bytes := []
  battery_voltage_v : Binary64 := 0.0
  battery_current_ma : Binary64 := 0.0
  solar_input_w : Binary64 := 0.0
  charge_pct : UInt8 := 0
  obc_temp_c : Binary64 := 0.0
  battery_temp_c : Binary64 := 0.0
  payload_temp_c : Binary64 := 0.0
  cpu_usage_pct : UInt8 := 0
  memory_usage_pct : UInt8 := 0
  uptime_s : UInt64 := 0
  fault_active : Bool := false
  safe_mode : Bool := false
  last_fault_code : UInt32 := 0
  deriving DecidableEq

end Obcsw
