import Obcsw.Configuration

/-!
# Settings

The keys of a configuration file are independent of each other : to write, change or remove
the node at one key changes the one field of that key, to what the node converts to or to the
default, and no other; the rest is up to the validation (`edits`).

So every configuration that passes the validation can be loaded, as long as each of its fields
is a default or can be written down (`loads_iff`).
-/

set_option linter.unusedSectionVars false

open Exceptions

namespace Obcsw.ConfigLoader

section Settings

variable {L : YamlLibrary} {d : Yaml} {cfg : SatelliteConfig} {yaml_path : String}

/-! ## One key -/

/-- The document with this node at the path, or with nothing there. -/
def edited (d : Yaml) (path : List String) : Option Yaml → Yaml
  | some v => d.setPath path v
  | none => d.removePath path

/-- `cfg'` is `cfg` but for the field of the key, which is what the node converts to, or the
default. -/
structure Changed (L : YamlLibrary) (cfg cfg' : SatelliteConfig) {α : Type} (key : Key α)
    (node : Option Yaml) : Prop where
  there : key.field cfg' = Yaml.asOr (key.convert L) key.dflt node
  elsewhere : ∀ k ∈ keys, k ≠ ⟨α, key⟩ → k.2.field cfg' = k.2.field cfg

/-- The fields of the keys are all there is to a configuration. -/
theorem eq_of_fields {cfg' : SatelliteConfig} (h : ∀ k ∈ keys, k.2.field cfg' = k.2.field cfg) :
    cfg' = cfg := by
  simp only [keys, List.forall_mem_cons, Key.satellite_name, Key.mission_id,
    Key.software_version, Key.telemetry_dispatch_interval_ms,
    Key.telemetry_max_frame_queue_depth, Key.ground_station_ip, Key.ground_station_port,
    Key.bind_port, Key.command_max_queue_depth, Key.command_timeout_ms,
    Key.watchdog_interval_ms, Key.threshold, Key.battery_voltage_min_v,
    Key.battery_voltage_max_v, Key.temperature_min_c, Key.temperature_max_c,
    Key.cpu_usage_max_pct, Key.memory_usage_max_pct] at h
  cases cfg
  cases cfg'
  simp_all only

/-- A document stays sectioned whatever stands at a key. -/
theorem sectioned_edited {k : (α : Type) × Key α} (hk : k ∈ keys) (hd : sectioned d = true)
    (node : Option Yaml) : sectioned (edited d k.2.path node) = true := by
  cases node with
  | none => exact sectioned_removePath (mem_optionalPaths hk) hd
  | some v =>
    refine sectioned_setPath (mem_optionalPaths hk) hd fun s hs rest hrest => ?_
    exact absurd ⟨rest, hrest.symm⟩ (key_not_above_section k hk s hs)

/-- The value at the edited key. -/
theorem value_edited_self {k : (α : Type) × Key α} (hk : k ∈ keys) (node : Option Yaml) :
    k.2.value L (edited d k.2.path node) = Yaml.asOr (k.2.convert L) k.2.dflt node := by
  cases node with
  | none =>
    rw [edited, value_removePath (mem_optionalPaths hk) hk, if_pos (List.prefix_refl _),
      Yaml.asOr_none]
  | some v =>
    have hself := Yaml.findPath_setPath_append v k.2.path [] d
    rw [List.append_nil, Yaml.findPath_nil] at hself
    rw [edited, Key.value, hself]

/-- The value at another key. -/
theorem value_edited_of_ne {k k' : (α : Type) × Key α} (hk : k ∈ keys) (hk' : k' ∈ keys)
    (hne : k' ≠ k) (node : Option Yaml) :
    k'.2.value L (edited d k.2.path node) = k'.2.value L d := by
  have hnot : ¬k.2.path <+: k'.2.path := fun h => hne (key_unique hk hk' h).symm
  cases node with
  | none => rw [edited, value_removePath (mem_optionalPaths hk) hk', if_neg hnot]
  | some v => exact value_setPath (mem_optionalPaths hk) hk' hnot

/-- The merge of an edited document. -/
theorem changed_configured {α : Type} {key : Key α} (hk : ⟨α, key⟩ ∈ keys) (node : Option Yaml) :
    Changed L (configured L d) (configured L (edited d key.path node)) key node where
  there := (field_configured L _ _ hk).trans (value_edited_self hk node)
  elsewhere k hk' hne := by
    rw [field_configured L _ k hk', field_configured L _ k hk']
    exact value_edited_of_ne hk hk' hne node

/-- An edit of one key of a loaded document changes its field, and the file is refused only if
the changed configuration is not valid. -/
theorem edits (hload : load (L.serving d) yaml_path = .ok cfg) {α : Type} {key : Key α}
    (hk : ⟨α, key⟩ ∈ keys) (node : Option Yaml) : ∃ cfg', Changed L cfg cfg' key node ∧
      (valid cfg' → load (L.serving (edited d key.path node)) yaml_path = .ok cfg') ∧
      (¬valid cfg' →
        Throws .runtime_error (load (L.serving (edited d key.path node)) yaml_path)) := by
  obtain ⟨root, hfile, hs, -, rfl⟩ := load_eq_ok hload
  obtain rfl : d = root := Except.ok.inj hfile
  have hs' := sectioned_edited hk hs node
  refine ⟨configured L (edited d key.path node), changed_configured hk node, ?_, ?_⟩
  · intro hv
    rw [load_serving, loadRoot_eq hs']
    exact validate_of_valid hv
  · intro hv
    rw [load_serving, loadRoot_eq hs']
    exact validate_throws hv

/-- A queue depth written into a document with a port. -/
theorem edits_depth : ∃ cfg', Changed decimalLibrary
    (configured decimalLibrary (portDocument "6000")) cfg' Key.command_max_queue_depth
      (some (scalarOf "8")) ∧ (valid cfg' → load (decimalLibrary.serving (edited
        (portDocument "6000") Key.command_max_queue_depth.path (some (scalarOf "8"))))
          "satellite.yaml" = .ok cfg') := by
  have hload : load (decimalLibrary.serving (portDocument "6000")) "satellite.yaml" =
      .ok (configured decimalLibrary (portDocument "6000")) :=
    load_of_valid rfl (by decide +kernel) (by decide +kernel)
  have hk : ⟨_, Key.command_max_queue_depth⟩ ∈ keys := by simp [keys]
  obtain ⟨cfg', hchanged, hloads, -⟩ := edits hload hk (some (scalarOf "8"))
  exact ⟨cfg', hchanged, hloads⟩

/-! ## All keys -/

/-- A value of the key's field that a document can give : the default, or what some node
converts to. -/
def Expressible (L : YamlLibrary) {α : Type} (key : Key α) (x : α) : Prop :=
  x = key.dflt ∨ ∃ node, key.convert L node = some x

/-- Every value of a document is one. -/
theorem expressible_value {α : Type} (key : Key α) (d : Yaml) :
    Expressible L key (key.value L d) := by
  rw [Key.value]
  cases hnode : (d.findPath key.path).bind (key.convert L) with
  | none => exact Or.inl (by rw [Yaml.asOr, hnode, Option.getD_none])
  | some x =>
    obtain ⟨node, -, hconvert⟩ := Option.bind_eq_some_iff.mp hnode
    exact Or.inr ⟨node, by rw [Yaml.asOr, hnode, Option.getD_some, hconvert]⟩

/-- The document with nothing but an empty satellite section. -/
def blank : Yaml :=
  mapping [("satellite", .null)]

/-- Key by key, a document is given the values of a configuration. -/
theorem exists_document (h : ∀ k ∈ keys, Expressible L k.2 (k.2.field cfg)) :
    ∀ ks : List ((α : Type) × Key α), ks ⊆ keys → ks.Nodup → ∃ d, sectioned d = true ∧
      ∀ k ∈ ks, k.2.value L d = k.2.field cfg
  | [], _, _ => ⟨blank, by decide +kernel, fun _ hk => absurd hk List.not_mem_nil⟩
  | k :: ks, hsub, hnodup => by
    obtain ⟨hk, hrest⟩ := List.cons_subset.mp hsub
    obtain ⟨hfresh, hnodup⟩ := List.nodup_cons.mp hnodup
    obtain ⟨d, hd, hvalues⟩ := exists_document h ks hrest hnodup
    -- a default is written by removing the key, another value by its node
    have hnode : ∃ node, Yaml.asOr (k.2.convert L) k.2.dflt node = k.2.field cfg := by
      rcases h k hk with hdflt | ⟨v, hv⟩
      · exact ⟨none, hdflt.symm⟩
      · exact ⟨some v, by rw [Yaml.asOr_some, hv, Option.getD_some]⟩
    obtain ⟨node, hnode⟩ := hnode
    refine ⟨edited d k.2.path node, sectioned_edited hk hd node, fun k' hk' => ?_⟩
    rcases List.mem_cons.mp hk' with rfl | hk'
    · rw [value_edited_self hk node, hnode]
    · rw [value_edited_of_ne hk (hrest hk') (ne_of_mem_of_not_mem hk' hfresh) node,
        hvalues k' hk']

/-- The configurations that a document can give. -/
theorem loads_iff : (∃ d, load (L.serving d) yaml_path = .ok cfg) ↔
    valid cfg ∧ ∀ k ∈ keys, Expressible L k.2 (k.2.field cfg) := by
  constructor
  · rintro ⟨d, hload⟩
    obtain ⟨root, -, -, hv, rfl⟩ := load_eq_ok hload
    refine ⟨hv, fun k hk => ?_⟩
    change Expressible L k.2 (k.2.field (configured L root))
    rw [field_configured L root k hk]
    exact expressible_value k.2 root
  · rintro ⟨hv, h⟩
    have hnodup : keys.Nodup := by
      refine keys_apart.imp ?_
      rintro k _ hapart rfl
      exact hapart.1 (List.prefix_refl _)
    obtain ⟨d, hd, hvalues⟩ := exists_document h keys (List.Subset.refl _) hnodup
    have heq : configured L d = cfg := eq_of_fields fun k hk =>
      (field_configured L d k hk).trans (hvalues k hk)
    refine ⟨d, ?_⟩
    rw [load_serving, loadRoot_eq hd, heq]
    exact validate_of_valid hv

end Settings

end Obcsw.ConfigLoader
