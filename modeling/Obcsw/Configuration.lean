import Mathlib.Data.List.Pairwise
import Obcsw.ConfigLoader

/-!
# What a configuration file gives

Three readings of `ConfigLoader.load` over every document.

* Validity : `load` refuses an empty `ground_station_ip` and ordered battery bounds the wrong
  way round, but `min >= max` is false as soon as one bound is a NaN, so a bound written
  `.nan` passes (`load_valid_iff`).
* Values : a scalar that converts is used, one that does not is treated as if the key were
  absent (`load_scalar`).
* Defaults : leaving a key or an optional section out, and writing the struct's default
  there, load alike (`load_default`).
-/

set_option linter.unusedSectionVars false

open Exceptions

namespace Obcsw.ConfigLoader

/-! ## Validity -/

/-- What `load` promises : a failure is a `std::runtime_error`, and a configuration has an
address and ordered battery bounds. -/
def LoadsValid : Except CppException SatelliteConfig → Prop
  | .error e => e.isA .runtime_error = true
  | .ok cfg => cfg.ground_station_ip ≠ [] ∧ cfg.battery_voltage_min_v < cfg.battery_voltage_max_v

section Validity

variable (L : YamlLibrary) (root : Yaml)

/-- The document has a scalar at the key that reads as a NaN. -/
def ReadsNaN (key : Key Binary64) : Prop :=
  ∃ text x, root.findPath key.path = some (.scalar text) ∧ L.toDouble text = some x ∧
    x.isNaN = true

/-- The document has `ground_station_ip`, and it reads as the empty string. -/
def ReadsEmptyIp : Prop :=
  (root.findPath Key.ground_station_ip.path).bind (Yaml.string L) = some []

/-- The file holds a document that gets through to the validation with an address, and with a
NaN for a battery bound. -/
def NaNBoundPasses (yaml_path : String) : Prop :=
  ∃ root, L.loadFile yaml_path = .ok root ∧ sectioned root = true ∧ ¬ReadsEmptyIp L root ∧
    (ReadsNaN L root Key.battery_voltage_min_v ∨ ReadsNaN L root Key.battery_voltage_max_v)

/-- A double of the merge is a NaN only if the document says so. -/
theorem value_isNaN_iff {key : Key Binary64} (hconvert : key.convert = Yaml.double)
    (hdflt : key.dflt.isNaN = false) :
    (key.value L root).isNaN = true ↔ ReadsNaN L root key := by
  unfold Key.value ReadsNaN
  rw [hconvert]
  cases root.findPath key.path with
  | none => simp [hdflt]
  | some n =>
    cases n with
    | scalar text =>
      cases hx : L.toDouble text with
      | none => simp [Yaml.double, Yaml.ofScalar, hx, hdflt]
      | some x => simp [Yaml.double, Yaml.ofScalar, hx]
    | _ => simp [Yaml.double, Yaml.ofScalar, hdflt]

theorem value_ip_eq_nil_iff :
    Key.ground_station_ip.value L root = [] ↔ ReadsEmptyIp L root := by
  unfold Key.value ReadsEmptyIp Yaml.asOr
  rw [show Key.ground_station_ip.convert = Yaml.string from rfl]
  cases (root.findPath Key.ground_station_ip.path).bind (Yaml.string L) with
  | none => exact iff_of_false (by decide +kernel) (by simp)
  | some ip => simp

/-- A merge that passes the validation has ordered battery bounds unless one reads as a NaN. -/
theorem lt_or_reads_nan (hv : valid (configured L root)) :
    (configured L root).battery_voltage_min_v < (configured L root).battery_voltage_max_v ∨
      ReadsNaN L root Key.battery_voltage_min_v ∨ ReadsNaN L root Key.battery_voltage_max_v := by
  rw [← value_isNaN_iff L root rfl (by decide +kernel),
    ← value_isNaN_iff L root rfl (by decide +kernel)]
  rcases Binary64.not_le_iff.mp hv.2 with h | h | h
  · exact Or.inl h
  · exact Or.inr (Or.inr h)
  · exact Or.inr (Or.inl h)

/-- A NaN for a battery bound passes the validation. -/
theorem valid_of_reads_nan (hip : ¬ReadsEmptyIp L root)
    (hnan : ReadsNaN L root Key.battery_voltage_min_v ∨
      ReadsNaN L root Key.battery_voltage_max_v) :
    valid (configured L root) ∧
      ¬(configured L root).battery_voltage_min_v < (configured L root).battery_voltage_max_v := by
  rw [← value_isNaN_iff L root rfl (by decide +kernel),
    ← value_isNaN_iff L root rfl (by decide +kernel)] at hnan
  rw [← value_ip_eq_nil_iff] at hip
  rcases hnan with h | h
  · exact ⟨⟨hip, Binary64.not_le_iff.mpr (Or.inr (Or.inr h))⟩, Binary64.not_lt_of_isNaN_left h⟩
  · exact ⟨⟨hip, Binary64.not_le_iff.mpr (Or.inr (Or.inl h))⟩, Binary64.not_lt_of_isNaN_right h⟩

/-- `load` keeps its promise on every file but those with a NaN for a battery bound. -/
theorem load_valid_iff (yaml_path : String) :
    LoadsValid (load L yaml_path) ↔ ¬NaNBoundPasses L yaml_path := by
  rcases load_cases L yaml_path with ⟨root, hfile, hs, hv, hload⟩ | ⟨e, hload, he⟩
  · rw [hload]
    constructor
    · rintro ⟨-, hlt⟩ ⟨root', hfile', -, hip, hnan⟩
      obtain rfl : root = root' := Except.ok.inj (hfile.symm.trans hfile')
      exact (valid_of_reads_nan L root hip hnan).2 hlt
    · intro hpass
      rcases lt_or_reads_nan L root hv with hlt | hnan
      · exact ⟨hv.1, hlt⟩
      · have hip : ¬ReadsEmptyIp L root := by
          rw [← value_ip_eq_nil_iff]
          exact hv.1
        exact absurd ⟨root, hfile, hs, hip, hnan⟩ hpass
  · rw [hload]
    refine iff_of_true he ?_
    rintro ⟨root, hfile, hs, hip, hnan⟩
    rw [load_of_valid hfile hs (valid_of_reads_nan L root hip hnan).1] at hload
    cases hload

end Validity

/-! ### Documents to try -/

/-- The natural that decimal digits denote. -/
def decimal (text : Bytes) : Option ℕ :=
  if text.isEmpty || text.any (fun b => b < 48 || 57 < b) then none
  else some (text.foldl (fun n b => 10 * n + (b.toNat - 48)) 0)

/-- `decimal`, for what fits `bits` bits. -/
def decimalBelow (bits : ℕ) (text : Bytes) : Option ℕ :=
  (decimal text).filter (· < 2 ^ bits)

/-- Without files; numbers are decimal naturals or `.nan`. -/
def decimalLibrary : YamlLibrary where
  loadFile _ := .error (.bad_file "bad file")
  nullString := some (bytes "null")
  toU8 text := (decimalBelow 8 text).map .ofNat
  toU16 text := (decimalBelow 16 text).map .ofNat
  toU32 text := (decimalBelow 32 text).map .ofNat
  toDouble text := if text = bytes ".nan" then some .quietNaN else (decimal text).map .ofNat

/-- The mapping of string keys to values. -/
def mapping (fields : List (String × Yaml)) : Yaml :=
  .map (fields.map fun field => (.scalar (bytes field.1), field.2))

def scalarOf (s : String) : Yaml :=
  .scalar (bytes s)

/-- A document with these thresholds. -/
def thresholdDocument (thresholds : List (String × Yaml)) : Yaml :=
  mapping [("satellite", mapping [("name", scalarOf "LOFT-1")]),
    ("health", mapping [("fault_thresholds", mapping thresholds)])]

/-- A document with this port. -/
def portDocument (port : String) : Yaml :=
  mapping [("satellite", mapping [("name", scalarOf "LOFT-1")]),
    ("telemetry", mapping [("udp", mapping [("ground_station_port", scalarOf port)])])]

/-- `battery_voltage_min_v: .nan` is loaded. -/
theorem load_nan_not_valid : ¬LoadsValid (load (decimalLibrary.serving
    (thresholdDocument [("battery_voltage_min_v", scalarOf ".nan")])) "satellite.yaml") := by
  rw [load_of_valid rfl (by decide +kernel) (by decide +kernel)]
  exact fun h => absurd h.2 (by decide +kernel)

/-! ## Changed documents -/

/-- The keys and sections that a document may leave out. -/
def optionalPaths : List (List String) :=
  keys.map (·.2.path) ++ optionalSections

section Change

variable {L : YamlLibrary} {d v : Yaml} {p : List String} {yaml_path : String}

/-- No key is a section, nor leads into one. -/
theorem key_not_above_section : ∀ k ∈ keys, ∀ s ∈ sections, ¬k.2.path <+: s := by
  decide +kernel

/-- A key above an optional path is that path. -/
theorem optional_above_key :
    ∀ p ∈ optionalPaths, ∀ k ∈ keys, k.2.path <+: p → p <+: k.2.path := by
  decide +kernel

/-- The satellite section is not optional. -/
theorem not_prefix_satellite : ∀ p ∈ optionalPaths, ¬p <+: ["satellite"] := by
  decide +kernel

theorem ne_nil_of_optional (hp : p ∈ optionalPaths) : p ≠ [] := by
  rintro rfl
  exact not_prefix_satellite [] hp List.nil_prefix

theorem load_serving : load (L.serving d) yaml_path = loadRoot L d :=
  load_of_ok rfl

theorem sectioned_iff : sectioned d = true ↔
    (d.findPath ["satellite"]).isSome = true ∧ ∀ s ∈ sections, indexable d s = true := by
  rw [sectioned, Bool.and_eq_true, List.all_eq_true]

theorem indexable_eq_of_map {root₁ root₂ : Yaml} {s : List String}
    (h : (root₁.findPath s).map Yaml.isScalar = (root₂.findPath s).map Yaml.isScalar) :
    indexable root₁ s = indexable root₂ s := by
  unfold indexable
  cases h₁ : root₁.findPath s <;> cases h₂ : root₂.findPath s <;> simp_all

/-- Removing what is optional leaves a sectioned document. -/
theorem sectioned_removePath (hp : p ∈ optionalPaths) (hd : sectioned d = true) :
    sectioned (d.removePath p) = true := by
  have hsat := not_prefix_satellite p hp
  rw [sectioned_iff] at hd ⊢
  constructor
  · have hmap := Yaml.isScalar_findPath_removePath d hsat
    rw [← Option.isSome_map, hmap, Option.isSome_map]
    exact hd.1
  · intro s hs
    by_cases hps : p <+: s
    · obtain ⟨rest, rfl⟩ := hps
      rw [indexable, Yaml.findPath_removePath_append rest d (ne_nil_of_optional hp)]
      rfl
    · rw [indexable_eq_of_map (Yaml.isScalar_findPath_removePath d hps)]
      exact hd.2 s hs

/-- Setting what is optional leaves a sectioned document, if the sections of the new value
can be indexed. -/
theorem sectioned_setPath (hp : p ∈ optionalPaths) (hd : sectioned d = true)
    (hv : ∀ s ∈ sections, ∀ rest, s = p ++ rest → indexable v rest = true) :
    sectioned (d.setPath p v) = true := by
  have hsat := not_prefix_satellite p hp
  rw [sectioned_iff] at hd ⊢
  constructor
  · by_cases hbefore : ["satellite"] <+: p
    · obtain ⟨rest, rfl⟩ := hbefore
      cases rest with
      | nil => exact absurd (List.prefix_refl _) hsat
      | cons k rest =>
        obtain ⟨es, hes⟩ := Yaml.findPath_setPath_before v k rest ["satellite"] d
        rw [hes]
        rfl
    · rw [Yaml.findPath_setPath_beside v d hsat hbefore]
      exact hd.1
  · intro s hs
    by_cases hps : p <+: s
    · obtain ⟨rest, rfl⟩ := hps
      rw [indexable, Yaml.findPath_setPath_append]
      exact hv _ hs rest rfl
    by_cases hsp : s <+: p
    · obtain ⟨rest, rfl⟩ := hsp
      cases rest with
      | nil => exact absurd (by rw [List.append_nil]) hps
      | cons k rest =>
        obtain ⟨es, hes⟩ := Yaml.findPath_setPath_before v k rest s d
        rw [indexable, hes]
        rfl
    · rw [indexable, Yaml.findPath_setPath_beside v d hps hsp]
      exact hd.2 s hs

/-- What the removal leaves at a key : the default below the path, all else as it was. -/
theorem value_removePath (hp : p ∈ optionalPaths) {k : (α : Type) × Key α} (hk : k ∈ keys) :
    k.2.value L (d.removePath p) = if p <+: k.2.path then k.2.dflt else k.2.value L d := by
  split_ifs with hpk
  · obtain ⟨rest, hrest⟩ := hpk
    rw [Key.value, ← hrest, Yaml.findPath_removePath_append rest d (ne_nil_of_optional hp),
      Yaml.asOr_none]
  · rw [Key.value, Yaml.findPath_removePath_beside d hpk
      (fun hkp => hpk (optional_above_key p hp k hk hkp)), Key.value]

/-- What the new value leaves at a key outside its path. -/
theorem value_setPath (hp : p ∈ optionalPaths) {k : (α : Type) × Key α} (hk : k ∈ keys)
    (hpk : ¬p <+: k.2.path) : k.2.value L (d.setPath p v) = k.2.value L d := by
  rw [Key.value, Yaml.findPath_setPath_beside v d hpk
    (fun hkp => hpk (optional_above_key p hp k hk hkp)), Key.value]

/-- Neither key is the other, nor a section of it. -/
def Apart (k k' : (α : Type) × Key α) : Prop :=
  ¬k.2.path <+: k'.2.path ∧ ¬k'.2.path <+: k.2.path

instance : DecidableRel Apart :=
  fun _ _ => inferInstanceAs (Decidable (_ ∧ _))

instance : Std.Symm Apart :=
  ⟨fun _ _ => And.symm⟩

theorem keys_apart : keys.Pairwise Apart := by
  decide +kernel

theorem key_unique {k k' : (α : Type) × Key α} (hk : k ∈ keys) (hk' : k' ∈ keys)
    (h : k.2.path <+: k'.2.path) : k = k' := by
  by_contra hne
  exact (keys_apart.forall hk hk' hne).1 h

theorem mem_optionalPaths {k : (α : Type) × Key α} (hk : k ∈ keys) :
    k.2.path ∈ optionalPaths :=
  List.mem_append_left _ (List.mem_map_of_mem hk)

end Change

/-! ## Values -/

/-- Every scalar under a key of a loaded document is the field's value at the field's type. -/
def UsedOrRejected (L : YamlLibrary) (yaml_path : String) : Prop :=
  ∀ cfg root, load L yaml_path = .ok cfg → L.loadFile yaml_path = .ok root →
    ∀ k ∈ keys, ∀ text, root.findPath k.2.path = some (.scalar text) →
      k.2.convert L (.scalar text) = some (k.2.field cfg)

theorem ground_station_port_mem : ⟨_, Key.ground_station_port⟩ ∈ keys := by
  simp [keys]

/-- A port out of range is replaced by the default. -/
theorem load_port_replaced :
    ¬UsedOrRejected (decimalLibrary.serving (portDocument "70000")) "satellite.yaml" := by
  intro h
  have hport := h _ _ (load_of_valid rfl (by decide +kernel) (by decide +kernel)) rfl
    ⟨_, Key.ground_station_port⟩ ground_station_port_mem (bytes "70000") rfl
  exact absurd hport (by decide +kernel)

/-- A scalar that converts is the field's value; one that does not leaves the default there,
and the document loads as it does without the key. -/
theorem load_scalar {L : YamlLibrary} {yaml_path : String} {cfg : SatelliteConfig} {root : Yaml}
    (hload : load L yaml_path = .ok cfg) (hfile : L.loadFile yaml_path = .ok root)
    {α : Type} {key : Key α} (hk : ⟨α, key⟩ ∈ keys) {text : Bytes}
    (hscalar : root.findPath key.path = some (.scalar text)) :
    (∀ x, key.convert L (.scalar text) = some x → key.field cfg = x) ∧
    (key.convert L (.scalar text) = none → key.field cfg = key.dflt ∧
      load (L.serving (root.removePath key.path)) yaml_path = .ok cfg) := by
  obtain ⟨root', hfile', hs, hv, rfl⟩ := load_eq_ok hload
  obtain rfl : root = root' := Except.ok.inj (hfile.symm.trans hfile')
  have hvalue : key.value L root = (key.convert L (.scalar text)).getD key.dflt := by
    rw [Key.value, hscalar, Yaml.asOr_some]
  rw [show key.field (configured L root) = key.value L root from field_configured L root _ hk,
    hvalue]
  constructor
  · intro x hx
    rw [hx, Option.getD_some]
  · intro hnone
    rw [hnone, Option.getD_none] at hvalue ⊢
    refine ⟨rfl, ?_⟩
    have hp : key.path ∈ optionalPaths := mem_optionalPaths hk
    rw [← hload, load_serving, load_of_ok hfile]
    refine loadRoot_congr (sectioned_removePath hp hs) hs fun k' hk' => ?_
    rw [value_removePath hp hk']
    split_ifs with hpk
    · obtain rfl := key_unique hk hk' hpk
      exact hvalue.symm
    · rfl

/-- The port out of range, as `load_scalar` has it. -/
theorem load_scalar_port :
    let d := portDocument "70000"
    ∃ cfg, load (decimalLibrary.serving d) "satellite.yaml" = .ok cfg ∧
      cfg.ground_station_port = 5005 ∧
      load ((decimalLibrary.serving d).serving (d.removePath Key.ground_station_port.path))
        "satellite.yaml" = .ok cfg := by
  intro d
  have hload : load (decimalLibrary.serving d) "satellite.yaml" = _ :=
    load_of_valid rfl (by decide +kernel) (by decide +kernel)
  have hscalar : d.findPath Key.ground_station_port.path = some (.scalar (bytes "70000")) := rfl
  obtain ⟨hfield, hremoved⟩ :=
    (load_scalar hload rfl ground_station_port_mem hscalar).2 (by decide +kernel)
  have hport : ∀ cfg, Key.ground_station_port.field cfg = cfg.ground_station_port := fun _ => rfl
  have hdflt : Key.ground_station_port.dflt = 5005 := by decide +kernel
  rw [hport, hdflt] at hfield
  exact ⟨_, hload, hfield, hremoved⟩

/-! ## Defaults -/

/-- The documents that the defaults are about : `satellite` is a mapping, and every other
section, where there is one, a mapping or a null. -/
def Recognised (d : Yaml) : Prop :=
  (∃ es, d.findPath ["satellite"] = some (.map es)) ∧
    ∀ s ∈ optionalSections, ∀ n, d.findPath s = some n → n = .null ∨ ∃ es, n = .map es

/-- What `v` holds for the keys below the path are the struct's defaults, and no section of
it is a scalar. -/
def HoldsDefaults (L : YamlLibrary) (p : List String) (v : Yaml) : Prop :=
  (∀ k ∈ keys, ∀ rest n, k.2.path = p ++ rest → v.findPath rest = some n →
    k.2.convert L n = some k.2.dflt) ∧
  ∀ s ∈ sections, ∀ rest, s = p ++ rest → indexable v rest = true

section Defaults

variable {L : YamlLibrary} {d v : Yaml} {p : List String} {yaml_path : String}

theorem Recognised.sectioned (hd : Recognised d) : sectioned d = true := by
  obtain ⟨⟨es, hsat⟩, hsections⟩ := hd
  rw [sectioned_iff]
  refine ⟨by rw [hsat]; rfl, fun s hs => ?_⟩
  rcases List.mem_cons.mp hs with rfl | hs
  · cases d with
    | map es => rfl
    | _ => simp [Yaml.findPath, Yaml.find] at hsat
  rcases List.mem_cons.mp hs with rfl | hs
  · rw [indexable, hsat]
    rfl
  · unfold indexable
    cases hn : d.findPath s with
    | none => rfl
    | some n => rcases hsections s hs n hn with rfl | ⟨es, rfl⟩ <;> rfl

/-- Leaving out and writing down the defaults load alike. -/
theorem load_removePath (hd : sectioned d = true) (hp : p ∈ optionalPaths)
    (hv : HoldsDefaults L p v) : load (L.serving (d.removePath p)) yaml_path =
      load (L.serving (d.setPath p v)) yaml_path := by
  rw [load_serving, load_serving]
  refine loadRoot_congr (sectioned_removePath hp hd) (sectioned_setPath hp hd hv.2) fun k hk => ?_
  rw [value_removePath hp hk]
  split_ifs with hpk
  · obtain ⟨rest, hrest⟩ := hpk
    rw [Key.value, ← hrest, Yaml.findPath_setPath_append]
    cases hn : v.findPath rest with
    | none => rfl
    | some n => rw [Yaml.asOr_some, hv.1 k hk rest n hrest.symm hn, Option.getD_some]
  · rw [value_setPath hp hk hpk]

/-- A scalar that converts to a key's default holds it. -/
theorem holdsDefaults_scalar {k : (α : Type) × Key α} (hk : k ∈ keys) {text : Bytes}
    (h : k.2.convert L (.scalar text) = some k.2.dflt) :
    HoldsDefaults L k.2.path (.scalar text) := by
  constructor
  · intro k' hk' rest n hrest hn
    obtain rfl := key_unique hk hk' ⟨rest, hrest.symm⟩
    obtain rfl : rest = [] := List.self_eq_append_right.mp hrest
    rw [Yaml.findPath_nil, Option.some.injEq] at hn
    rw [← hn, h]
  · rintro s hs rest rfl
    exact absurd (List.prefix_append _ _) (key_not_above_section k hk _ hs)

/-- A section without entries holds the defaults of its keys. -/
theorem holdsDefaults_of_empty {s : List String} (hs : s ∈ optionalSections)
    (hv : v = .null ∨ v = .map []) : HoldsDefaults L s v := by
  have hempty : ∀ k rest, v.findPath (k :: rest) = none := by
    rcases hv with rfl | rfl <;> exact fun _ _ => rfl
  constructor
  · intro k hk rest n hrest hn
    cases rest with
    | nil =>
      have hmem : s ∈ sections := List.mem_cons_of_mem _ (List.mem_cons_of_mem _ hs)
      rw [List.append_nil] at hrest
      exact absurd (hrest ▸ List.prefix_refl _) (key_not_above_section k hk s hmem)
    | cons k' rest =>
      rw [hempty] at hn
      cases hn
  · rintro _ - rest -
    cases rest with
    | nil => rcases hv with rfl | rfl <;> rfl
    | cons k' rest => rw [indexable, hempty]; rfl

theorem mem_optionalPaths_of_section {s : List String} (hs : s ∈ optionalSections) :
    s ∈ optionalPaths :=
  List.mem_append_right _ hs

/-- The defaults pass the validation. -/
theorem valid_default : valid {} := by
  decide +kernel

/-- A document with only a satellite section leaves everything else at the defaults. -/
theorem load_satellite_only (es : List (Yaml × Yaml)) :
    load (L.serving (mapping [("satellite", .map es)])) yaml_path =
      .ok { ({} : SatelliteConfig) with
        satellite_name := Yaml.asOr (Yaml.string L) (bytes "UNKNOWN")
          ((Yaml.map es).find "name")
        mission_id := Yaml.asOr (Yaml.string L) (bytes "UNKNOWN")
          ((Yaml.map es).find "mission_id")
        software_version := Yaml.asOr (Yaml.string L) (bytes "0.0.0")
          ((Yaml.map es).find "software_version") } := by
  have hself : (Yaml.scalar (bytes "satellite")).isKey "satellite" = true := by
    simp [Yaml.isKey]
  have hsat : (mapping [("satellite", .map es)]).find "satellite" = some (.map es) := by
    simp [mapping, Yaml.find, Yaml.findEntry, hself]
  have hother : ∀ k, "satellite" ≠ k → (mapping [("satellite", .map es)]).find k = none := by
    intro k hne
    simp [mapping, Yaml.find, Yaml.findEntry, Yaml.isKey_eq_false hne hself]
  have htlm := hother "telemetry" (by decide)
  have hcmd := hother "command" (by decide)
  have hhealth := hother "health" (by decide)
  have hs : sectioned (mapping [("satellite", .map es)]) = true := by
    simp only [sectioned, sections, optionalSections, indexable, List.all_cons, List.all_nil,
      Yaml.findPath_nil, Yaml.findPath_cons, hsat, htlm, hcmd, hhealth]
    rfl
  rw [load_serving, loadRoot_eq hs, configured]
  iterate 3 rw [value_of_find L _ rfl hsat]
  iterate 5 rw [value_of_find_none L _ rfl htlm]
  iterate 2 rw [value_of_find_none L _ rfl hcmd]
  iterate 7 rw [value_of_find_none L _ rfl hhealth]
  simp only [Yaml.findPath_singleton]
  exact validate_of_valid valid_default

/-- The fallbacks of the code and the defaults of the struct agree : a key or an optional
section left out is the same as one set to the struct's defaults, an optional section that is
absent, null or empty is the same, and a document with only a satellite section gives the
struct's defaults for all other fields. -/
theorem load_default (L : YamlLibrary) (hd : Recognised d) (yaml_path : String) :
    (∀ k ∈ keys, ∀ text, k.2.convert L (.scalar text) = some k.2.dflt →
      load (L.serving (d.removePath k.2.path)) yaml_path =
        load (L.serving (d.setPath k.2.path (.scalar text))) yaml_path) ∧
    (∀ s ∈ optionalSections, ∀ v, HoldsDefaults L s v →
      load (L.serving (d.removePath s)) yaml_path =
        load (L.serving (d.setPath s v)) yaml_path) ∧
    (∀ s ∈ optionalSections,
      load (L.serving (d.removePath s)) yaml_path =
        load (L.serving (d.setPath s .null)) yaml_path ∧
      load (L.serving (d.removePath s)) yaml_path =
        load (L.serving (d.setPath s (.map []))) yaml_path) ∧
    ∀ es, load (L.serving (mapping [("satellite", .map es)])) yaml_path =
      .ok { ({} : SatelliteConfig) with
        satellite_name := Yaml.asOr (Yaml.string L) (bytes "UNKNOWN")
          ((Yaml.map es).find "name")
        mission_id := Yaml.asOr (Yaml.string L) (bytes "UNKNOWN")
          ((Yaml.map es).find "mission_id")
        software_version := Yaml.asOr (Yaml.string L) (bytes "0.0.0")
          ((Yaml.map es).find "software_version") } := by
  have hs := hd.sectioned
  refine ⟨fun k hk text h => ?_, fun s hsec v hv => ?_, fun s hsec => ⟨?_, ?_⟩, fun es => ?_⟩
  · exact load_removePath hs (mem_optionalPaths hk) (holdsDefaults_scalar hk h)
  · exact load_removePath hs (mem_optionalPaths_of_section hsec) hv
  · exact load_removePath hs (mem_optionalPaths_of_section hsec)
      (holdsDefaults_of_empty hsec (Or.inl rfl))
  · exact load_removePath hs (mem_optionalPaths_of_section hsec)
      (holdsDefaults_of_empty hsec (Or.inr rfl))
  · exact load_satellite_only es

end Defaults

/-- A command section that spells its defaults out. -/
def commandDefaults : Yaml :=
  mapping [("max_queue_depth", scalarOf "32"), ("command_timeout_ms", scalarOf "5000")]

theorem holdsDefaults_command : HoldsDefaults decimalLibrary ["command"] commandDefaults := by
  have hkeys : ∀ k ∈ keys, ["command"] <+: k.2.path →
      Key.command_max_queue_depth.path <+: k.2.path ∨
        Key.command_timeout_ms.path <+: k.2.path := by
    decide +kernel
  have hsections : ∀ s ∈ sections, ["command"] <+: s → s = ["command"] := by
    decide +kernel
  constructor
  · intro k hk rest n hrest hn
    rcases hkeys k hk ⟨rest, hrest.symm⟩ with hkey | hkey
    · obtain rfl := @key_unique ⟨_, Key.command_max_queue_depth⟩ k (by simp [keys]) hk hkey
      obtain rfl : ["max_queue_depth"] = rest := (List.cons.inj hrest).2
      obtain rfl : scalarOf "32" = n := Option.some.inj hn
      decide +kernel
    · obtain rfl := @key_unique ⟨_, Key.command_timeout_ms⟩ k (by simp [keys]) hk hkey
      obtain rfl : ["command_timeout_ms"] = rest := (List.cons.inj hrest).2
      obtain rfl : scalarOf "5000" = n := Option.some.inj hn
      decide +kernel
  · rintro s hs rest rfl
    obtain rfl : rest = [] := by simpa using hsections _ hs (List.prefix_append _ _)
    rfl

/-- The agreement on a document with a port, for the command section and for that port. -/
theorem load_default_command :
    let d := portDocument "6000"
    load (decimalLibrary.serving (d.removePath ["command"])) "satellite.yaml" =
        load (decimalLibrary.serving (d.setPath ["command"] commandDefaults))
          "satellite.yaml" ∧
      load (decimalLibrary.serving (d.removePath Key.ground_station_port.path))
          "satellite.yaml" =
        load (decimalLibrary.serving
          (d.setPath Key.ground_station_port.path (scalarOf "5005"))) "satellite.yaml" := by
  intro d
  have hd : Recognised d := by
    refine ⟨⟨_, rfl⟩, ?_⟩
    have habsent : ∀ s, d.findPath s = none → ∀ n, d.findPath s = some n →
        n = .null ∨ ∃ es, n = .map es := by
      intro s hs n hn
      rw [hs] at hn
      cases hn
    simp only [optionalSections, List.forall_mem_cons]
    exact ⟨fun n hn => Or.inr ⟨_, (Option.some.inj hn).symm⟩,
      fun n hn => Or.inr ⟨_, (Option.some.inj hn).symm⟩, habsent _ rfl, habsent _ rfl,
      habsent _ rfl, fun _ h => (List.not_mem_nil h).elim⟩
  have h := load_default decimalLibrary hd "satellite.yaml"
  exact ⟨h.2.1 _ (by decide) _ holdsDefaults_command,
    h.1 _ ground_station_port_mem _ (by decide +kernel)⟩

end Obcsw.ConfigLoader
