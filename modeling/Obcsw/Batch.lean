import Obcsw.TelemetrySerializer

/-!
# Batches

`batchToJson` serializes each frame, parses the text again and writes the array of the parsed
trees. A frame's tree has its doubles nulled by the first `dump`, and a nulled tree is written
and parsed back as it is, so the second round trip changes nothing : the batch is the array of
what its frames are alone (`batchEncodes`).
-/

set_option linter.unusedSectionVars false

open Exceptions

namespace Obcsw

namespace TelemetrySerializer

/-! ## The trees of a batch -/

/-- The tree that the text of a frame parses to. -/
def written (f : TelemetryFrame) : Json :=
  (frameTree .float f).nullify

/-- The frame is one that `dump` writes. -/
def Encodable (f : TelemetryFrame) : Prop :=
  validUtf8 f.satellite_id = true

section Written

variable (f : TelemetryFrame) (fs : List TelemetryFrame)

theorem canonical_written : (written f).canonical = true := by
  rw [written, Json.canonical_nullify, canonical_frameTree]

theorem utf8_written : (written f).utf8 = validUtf8 f.satellite_id := by
  rw [written, Json.utf8_nullify, utf8_frameTree]

/-- The array of a batch is a tree that `parse` gives back. -/
theorem canonical_batch : (Json.array (fs.map written)).canonical = true := by
  rw [Json.canonical, Json.everywhere_array, Bool.true_and, List.all_map]
  exact List.all_eq_true.mpr fun f _ => canonical_written f

theorem finite_batch : (Json.array (fs.map written)).finite = true := by
  rw [Json.finite, Json.everywhere_array, Bool.true_and, List.all_map]
  exact List.all_eq_true.mpr fun f _ => Json.finite_nullify _

variable {fs}

theorem utf8_batch (h : ∀ f ∈ fs, Encodable f) : (Json.array (fs.map written)).utf8 = true := by
  rw [Json.utf8, Json.everywhere_array, Bool.true_and, List.all_map]
  exact List.all_eq_true.mpr fun f hf => (utf8_written f).trans (h f hf)

end Written

/-! ## Encoding -/

section Encoding

variable {L : JsonLibrary} (hL : L.Lawful) {f : TelemetryFrame} {fs gs : List TelemetryFrame}
  {s : Bytes}

include hL

/-- What `batchToJson` pushes for a frame. -/
theorem reparse_of_encodable (h : Encodable f) :
    (toJson L f >>= fun s => L.parseThrowing s) = .ok (written f) := by
  obtain ⟨s, hs⟩ := (toJson_ok_iff hL f).mpr h
  rw [hs, ok_bind, JsonLibrary.parseThrowing, parse_toJson hL f hs]
  rfl

/-- A batch of frames that `dump` writes is the text of the array of their trees. -/
theorem batchToJson_of_encodable (h : ∀ f ∈ fs, Encodable f) :
    ∃ s, batchToJson L fs = .ok s ∧ L.parse s = .ok (.array (fs.map written)) := by
  obtain ⟨s, hs⟩ := (hL.dump_ok_iff _).mpr (utf8_batch h)
  refine ⟨s, ?_, hL.parse_dump _ s (canonical_batch fs) (finite_batch fs) hs⟩
  have harr : (fs.mapM fun f => do L.parseThrowing (← toJson L f)) = .ok (fs.map written) :=
    mapM_eq_map fun f hf => reparse_of_encodable hL (h f hf)
  rw [batchToJson, harr, ok_bind, JsonLibrary.dumpThrowing, hs]
  rfl

/-- A frame that `dump` does not write spoils its batch. -/
theorem batchToJson_of_not_encodable (hf : f ∈ fs) (h : ¬Encodable f) :
    ∃ e, batchToJson L fs = .error e := by
  obtain ⟨e, he⟩ := (toJson_error_iff hL f).mpr (Bool.eq_false_iff.mpr h)
  have hstep : ∃ e, (do L.parseThrowing (← toJson L f)) = .error e := by
    rw [he]
    exact ⟨e, rfl⟩
  have harr : ∃ e, (fs.mapM fun f => do L.parseThrowing (← toJson L f)) = .error e :=
    mapM_throws hf hstep
  obtain ⟨e', he'⟩ := harr
  rw [batchToJson, he']
  exact ⟨e', rfl⟩

theorem encodable_of_batch (h : batchToJson L fs = .ok s) : ∀ f ∈ fs, Encodable f := by
  intro f hf
  by_contra hnot
  obtain ⟨e, he⟩ := batchToJson_of_not_encodable hL hf hnot
  rw [h] at he
  cases he

theorem parse_batchToJson (h : batchToJson L fs = .ok s) :
    L.parse s = .ok (.array (fs.map written)) := by
  obtain ⟨s', hs', hparse⟩ := batchToJson_of_encodable hL (encodable_of_batch hL h)
  rw [h] at hs'
  obtain rfl := Except.ok.inj hs'
  exact hparse

/-- An element of a batch, written alone, decodes to its frame. -/
theorem fromJson_dump_written (h : Encodable f) (hfin : ∀ d ∈ doubles f, d.isFinite = true) :
    (L.dumpThrowing (written f) >>= fromJson L) = .ok f := by
  obtain ⟨s, hs⟩ := (toJson_ok_iff hL f).mpr h
  have hdump : L.dumpThrowing (written f) = .ok s := by
    rw [← hs, toJson_eq, written, JsonLibrary.dumpThrowing, JsonLibrary.dumpThrowing,
      hL.dump_nullify]
  rw [hdump, ok_bind, fromJson_toJson hL f hs, if_pos (List.all_eq_true.mpr hfin)]

theorem batchToJson_error_iff :
    (∃ e, batchToJson L fs = .error e) ↔ ∃ f ∈ fs, validUtf8 f.satellite_id = false := by
  constructor
  · rintro ⟨e, he⟩
    by_contra hnone
    have hall : ∀ f ∈ fs, Encodable f := by
      intro f hf
      by_contra hinvalid
      exact hnone ⟨f, hf, Bool.eq_false_iff.mpr hinvalid⟩
    obtain ⟨s, hs, -⟩ := batchToJson_of_encodable hL hall
    rw [he] at hs
    cases hs
  · rintro ⟨f, hf, hinvalid⟩
    exact batchToJson_of_not_encodable hL hf (Bool.eq_false_iff.mp hinvalid)

/-- The elements of a batch, written one by one, decode to its frames. -/
theorem mapM_written (hall : ∀ f ∈ fs, Encodable f)
    (hfin : ∀ f ∈ fs, ∀ d ∈ doubles f, d.isFinite = true) :
    ((fs.map written).mapM fun x => do fromJson L (← L.dumpThrowing x)) = .ok fs := by
  rw [List.mapM_map]
  have hback := mapM_eq_map fun f hf => fromJson_dump_written hL (hall f hf) (hfin f hf)
  exact hback.trans (congrArg _ (List.map_id fs))

/-- Two batches that encode do so together. -/
theorem batchToJson_append {t : Bytes} (hs : batchToJson L fs = .ok s)
    (ht : batchToJson L gs = .ok t) : ∃ u, batchToJson L (fs ++ gs) = .ok u ∧
      L.parse u = .ok (.array (fs.map written ++ gs.map written)) := by
  have hall : ∀ f ∈ fs ++ gs, Encodable f := by
    intro f hf
    rcases List.mem_append.mp hf with hf | hf
    · exact encodable_of_batch hL hs f hf
    · exact encodable_of_batch hL ht f hf
  rw [← List.map_append]
  exact batchToJson_of_encodable hL hall

end Encoding

/-! ## The result -/

/-- The encoding of a batch is the encoding of its elements. -/
structure BatchEncodes (L : JsonLibrary) (fs : List TelemetryFrame) : Prop where
  fails_iff : (∃ e, batchToJson L fs = .error e) ↔ ∃ f ∈ fs, validUtf8 f.satellite_id = false
  /-- The text parses to an array with one element for each frame, in order, and the element
  is what the text of the frame alone parses to. -/
  elementwise : ∀ s, batchToJson L fs = .ok s → ∃ xs, L.parse s = .ok (.array xs) ∧
    List.Forall₂ (fun f x => ∃ t, toJson L f = .ok t ∧ L.parse t = .ok x) fs xs
  /-- The elements, written one by one, decode to the frames. -/
  back : ∀ s xs, batchToJson L fs = .ok s → L.parse s = .ok (.array xs) →
    (∀ f ∈ fs, ∀ d ∈ doubles f, d.isFinite = true) →
    (xs.mapM fun x => do fromJson L (← L.dumpThrowing x)) = .ok fs
  /-- Two batches in one are the concatenation of their arrays. -/
  append : ∀ gs s t, batchToJson L fs = .ok s → batchToJson L gs = .ok t →
    ∃ u xs ys, batchToJson L (fs ++ gs) = .ok u ∧ L.parse s = .ok (.array xs) ∧
      L.parse t = .ok (.array ys) ∧ L.parse u = .ok (.array (xs ++ ys))

theorem batchEncodes {L : JsonLibrary} (hL : L.Lawful) (fs : List TelemetryFrame) :
    BatchEncodes L fs where
  fails_iff := batchToJson_error_iff hL
  elementwise := by
    intro s hs
    refine ⟨fs.map written, parse_batchToJson hL hs, ?_⟩
    rw [List.forall₂_map_right_iff]
    refine List.forall₂_same.mpr fun f hf => ?_
    obtain ⟨t, ht⟩ := (toJson_ok_iff hL f).mpr (encodable_of_batch hL hs f hf)
    exact ⟨t, ht, parse_toJson hL f ht⟩
  back := by
    intro s xs hs hparse hfin
    rw [parse_batchToJson hL hs] at hparse
    obtain rfl := Json.array.inj (Except.ok.inj hparse)
    exact mapM_written hL (encodable_of_batch hL hs) hfin
  append := by
    intro gs s t hs ht
    obtain ⟨u, hu, hparse⟩ := batchToJson_append hL hs ht
    exact ⟨u, fs.map written, gs.map written, hu, parse_batchToJson hL hs,
      parse_batchToJson hL ht, hparse⟩

/-- The nominal frame twice. -/
theorem batchEncodes_nominalFrame : BatchEncodes nominalLibrary [nominalFrame, nominalFrame] ∧
    ∃ s, batchToJson nominalLibrary [nominalFrame, nominalFrame] = .ok s := by
  refine ⟨batchEncodes nominalLibrary_lawful _, ?_⟩
  have hall : ∀ f ∈ [nominalFrame, nominalFrame], Encodable f := by
    intro f hf
    rw [List.mem_pair, or_self] at hf
    subst hf
    exact show validUtf8 nominalFrame.satellite_id = true by decide
  obtain ⟨s, hs, -⟩ := batchToJson_of_encodable nominalLibrary_lawful hall
  exact ⟨s, hs⟩

end TelemetrySerializer

end Obcsw
