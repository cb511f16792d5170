import HorrorScope.Trs.Open

/-!
# The files that `open` accepts

The trace file format on its own, without reference to the parser: framed records in any
order, five of them known, closed by a trace block record and the traces. `open`
(`src/acq/Trace.py:172–224`) reads such a file completely when every record it does not
know has a value; at an unknown record without one it leaves its loop.
-/

namespace HorrorScope.Trs

open HorrorScope.Base

/-! ### The format -/

/-- The value that a header records under a tag. -/
def recorded (rs : List Record) (tag : UInt8) : Option Nat :=
  (rs.find? (·.tag = tag)).map fun r ↦ leValue r.value

/-- A well-formed trace file. Records may have their length in short or long form; the
known ones appear at most once, in any place. -/
structure TraceFile where
  records : List Record
  /-- The length field of the record that ends the header. -/
  ending : List UInt8
  block : List UInt8
  numberOfTraces : Nat
  numberOfSamples : Nat
  dtype : Dtype
  framed : ∀ r ∈ records, ∃ a, LengthField r.lengthField r.value.length a
  tags : ∀ r ∈ records, r.tag ≠ 0 ∧ r.tag ≠ Tag.traceBlock
  widths : ∀ r ∈ records, ∀ w, knownWidth r.tag = some w → r.value.length = w
  once : records.Pairwise fun r q ↦ (knownWidth r.tag).isSome → r.tag ≠ q.tag
  count : recorded records Tag.numberOfTraces = some numberOfTraces
  samples : recorded records Tag.numerOfSamplesPerTrace = some numberOfSamples
  coding : recorded records Tag.sampleCoding = some dtype.coding
  ends : ∃ a, LengthField ending 0 a
  traces : block.length = numberOfTraces * (numberOfSamples * codingByteSize dtype.coding +
    (recorded records Tag.dataSpace).getD 0 + (recorded records Tag.titleSpace).getD 0)

namespace TraceFile

variable (w : TraceFile)

/-- The recorded title space, zero when there is none. -/
def titleSpace : Nat := (recorded w.records Tag.titleSpace).getD 0

/-- The recorded data space, zero when there is none. -/
def dataSpace : Nat := (recorded w.records Tag.dataSpace).getD 0

/-- The bytes of one trace. -/
def traceSpace : Nat :=
  w.numberOfSamples * codingByteSize w.dtype.coding + w.dataSpace + w.titleSpace

/-- The record that ends the header. -/
def endRecord : Record := ⟨Tag.traceBlock, w.ending, []⟩

/-- The bytes up to the traces. -/
def header : List UInt8 := w.records.flatMap Record.encode ++ w.endRecord.encode

/-- The bytes of the file. -/
def file : List UInt8 := w.header ++ w.block

/-- Every field of the object has its recorded value. -/
structure Parsed (obj : TraceSet) : Prop where
  numberOfTraces : obj.numberOfTraces = some w.numberOfTraces
  numberOfSamplesPerTrace : obj.numberOfSamplesPerTrace = some w.numberOfSamples
  sampleCoding : obj.sampleCoding = some w.dtype.coding
  sampleCodingByteSize : obj.sampleCodingByteSize = some (codingByteSize w.dtype.coding)
  titleSpace : obj.titleSpace = w.titleSpace
  dataSpace : obj.dataSpace = w.dataSpace
  sampleSpace : obj.sampleSpace = some (w.numberOfSamples * codingByteSize w.dtype.coding)
  traceSpace : obj.traceSpace = some w.traceSpace
  traceBlockSpace : obj.traceBlockSpace = w.numberOfTraces * w.traceSpace
  traceBlockOffset : obj.traceBlockOffset = some w.header.length

end TraceFile

/-! ### The fields behind the records -/

private theorem recorded_cons (r : Record) (rs : List Record) (tag : UInt8) :
    recorded (r :: rs) tag = if r.tag = tag then some (leValue r.value) else recorded rs tag := by
  by_cases h : r.tag = tag <;> simp [recorded, h]

private theorem field_foldl {α : Type} {rs : List Record} (tag : UInt8) (f : Nat → α)
    (field : TraceSet → α)
    (hfield : ∀ self r, field (TraceSet.applyRecord self r) =
      if r.tag = tag then f (leValue r.value) else field self)
    (hknown : (knownWidth tag).isSome)
    (honce : rs.Pairwise fun r q ↦ (knownWidth r.tag).isSome → r.tag ≠ q.tag) (self : TraceSet) :
    field (rs.foldl TraceSet.applyRecord self) =
      ((recorded rs tag).map f).getD (field self) := by
  induction rs generalizing self with
  | nil => rfl
  | cons r rs ih =>
    obtain ⟨hr, hrs⟩ := List.pairwise_cons.mp honce
    rw [List.foldl_cons, ih hrs, hfield, recorded_cons]
    by_cases h : r.tag = tag
    · -- no record behind this one has the tag
      have hnone : recorded rs tag = none := by
        rw [recorded, Option.map_eq_none_iff, List.find?_eq_none]
        intro q hq
        rw [← h] at hknown ⊢
        simpa using (hr q hq hknown).symm
      rw [if_pos h, if_pos h, hnone]
      rfl
    · rw [if_neg h, if_neg h]

namespace TraceFile

variable (w : TraceFile)

/-- The object in front of the record that ends the header. -/
def scanned : TraceSet := w.records.foldl TraceSet.applyRecord {}

private theorem numberOfTraces_scanned : w.scanned.numberOfTraces = some w.numberOfTraces := by
  have h := field_foldl Tag.numberOfTraces some TraceSet.numberOfTraces
    (fun self r ↦ by rw [TraceSet.applyRecord_eq]) rfl w.once {}
  rwa [w.count] at h

private theorem numberOfSamplesPerTrace_scanned :
    w.scanned.numberOfSamplesPerTrace = some w.numberOfSamples := by
  have h := field_foldl Tag.numerOfSamplesPerTrace some TraceSet.numberOfSamplesPerTrace
    (fun self r ↦ by rw [TraceSet.applyRecord_eq]) rfl w.once {}
  rwa [w.samples] at h

private theorem sampleCoding_scanned : w.scanned.sampleCoding = some w.dtype.coding := by
  have h := field_foldl Tag.sampleCoding some TraceSet.sampleCoding
    (fun self r ↦ by rw [TraceSet.applyRecord_eq]) rfl w.once {}
  rwa [w.coding] at h

private theorem sampleCodingByteSize_scanned :
    w.scanned.sampleCodingByteSize = some (codingByteSize w.dtype.coding) := by
  have h := field_foldl Tag.sampleCoding (fun val ↦ some (codingByteSize val))
    TraceSet.sampleCodingByteSize (fun self r ↦ by rw [TraceSet.applyRecord_eq]) rfl w.once {}
  rwa [w.coding] at h

private theorem titleSpace_scanned : w.scanned.titleSpace = w.titleSpace := by
  have h := field_foldl Tag.titleSpace id TraceSet.titleSpace
    (fun self r ↦ by rw [TraceSet.applyRecord_eq, id]) rfl w.once {}
  rwa [Option.map_id] at h

private theorem dataSpace_scanned : w.scanned.dataSpace = w.dataSpace := by
  have h := field_foldl Tag.dataSpace id TraceSet.dataSpace
    (fun self r ↦ by rw [TraceSet.applyRecord_eq, id]) rfl w.once {}
  rwa [Option.map_id] at h

end TraceFile

/-! ### Files that are read completely -/

/-- A record that `open` knows, or one with a value that a single read can skip. -/
def Record.Skippable (r : Record) : Prop :=
  knownWidth r.tag = none → r.value ≠ [] ∧ r.value.length < 2 ^ 63

/-- Whether a record can be skipped can be computed. -/
instance (r : Record) : Decidable r.Skippable := inferInstanceAs (Decidable (_ → _))

namespace TraceFile

variable {w : TraceFile}

private theorem scanned_of_skippable {r : Record} (hr : r ∈ w.records) (hs : r.Skippable) :
    ∃ a, r.Scanned a := by
  obtain ⟨a, ha⟩ := w.framed r hr
  obtain ⟨hzero, hblock⟩ := w.tags r hr
  refine ⟨a, ⟨ha, ?_⟩, hblock, w.widths r hr, fun hk ↦ ⟨hzero, (hs hk).1⟩⟩
  cases hk : knownWidth r.tag with
  | none => exact (hs hk).2
  | some n =>
    rw [w.widths r hr n hk]
    unfold knownWidth at hk
    split_ifs at hk <;> (cases hk; decide)

variable (w)

/-- The object after the whole header. -/
def located : TraceSet :=
  w.scanned.located w.numberOfSamples (codingByteSize w.dtype.coding) w.numberOfTraces
    w.header.length

private theorem parsed_located (f : ByteFile) : w.Parsed (w.located.withHandle f) := by
  have hspace : w.numberOfSamples * codingByteSize w.dtype.coding + w.scanned.dataSpace +
      w.scanned.titleSpace = w.traceSpace := by
    rw [w.dataSpace_scanned, w.titleSpace_scanned, traceSpace]
  exact {
    numberOfTraces := w.numberOfTraces_scanned
    numberOfSamplesPerTrace := w.numberOfSamplesPerTrace_scanned
    sampleCoding := w.sampleCoding_scanned
    sampleCodingByteSize := w.sampleCodingByteSize_scanned
    titleSpace := w.titleSpace_scanned
    dataSpace := w.dataSpace_scanned
    sampleSpace := rfl
    traceSpace := congrArg some hspace
    traceBlockSpace := congrArg (w.numberOfTraces * ·) hspace
    traceBlockOffset := rfl }

variable {w}

private theorem open_of_skippable (h : ∀ r ∈ w.records, r.Skippable) :
    ∃ f, ({} : TraceSet).open w.file = .ok (w.located.withHandle f) := by
  obtain ⟨a, ha⟩ := w.ends
  let f : ByteFile := ⟨w.file, 0⟩
  have hrest : f.rest = w.records.flatMap Record.encode ++ (w.endRecord.encode ++ w.block) := by
    change w.file = _
    rw [file, header, List.append_assoc]
  have hheader : (w.records.flatMap Record.encode).length + 2 + a = w.header.length := by
    have hend : w.endRecord.encode.length = 2 + a + 0 := Record.length_encode ha
    rw [header, List.length_append, hend]
    omega
  have hrecords := TraceSet.openLoop_records {} w.records
    (fun r hr ↦ scanned_of_skippable hr (h r hr)) hrest (Nat.zero_le _)
  have hspace : w.scanned.traceBlockSpace ≤ w.block.length := by
    rw [scanned, TraceSet.traceBlockSpace_foldl]
    exact Nat.zero_le _
  have hend := ByteFile.rest_advance hrest
  have hblock := TraceSet.openLoop_block w.scanned w.numberOfSamplesPerTrace_scanned
    w.sampleCodingByteSize_scanned w.numberOfTraces_scanned ha hend (pos_lt_bound hend hspace)
  simp only [ByteFile.size_seek, ByteFile.pos_seek, ByteFile.seek_seek, show f.pos = 0 from rfl,
    Nat.zero_add, hheader] at hblock hrecords
  -- the bytes behind the header are the traces, so the loop bound is reached
  have hdone : f.size - w.located.traceBlockSpace ≤ w.header.length := by
    have hsize : f.size = w.header.length + w.block.length := List.length_append
    have hspace : w.located.traceBlockSpace = w.block.length :=
      (w.parsed_located f).traceBlockSpace.trans w.traces.symm
    omega
  exact ⟨_, hrecords.trans (hblock.trans (TraceSet.openLoop_done hdone))⟩

/-! ### Files that are not -/

private theorem openLoop_not_skippable {self out : TraceSet} {f : ByteFile} {r : Record} {a : Nat}
    {fileSize offset : Nat} {ys : List UInt8} (hr : LengthField r.lengthField r.value.length a)
    (hblock : r.tag ≠ Tag.traceBlock) (hskip : ¬ r.Skippable) (h : f.rest = r.encode ++ ys)
    (hs : offset < fileSize - self.traceBlockSpace)
    (hout : TraceSet.openLoop fileSize self f offset = .ok out) :
    out.traceBlockOffset = self.traceBlockOffset := by
  obtain ⟨ht, hl, -⟩ := read_header_of_rest hr h
  have hbad : knownWidth r.tag = none ∧ (r.value = [] ∨ 2 ^ 63 ≤ r.value.length) := by
    unfold Record.Skippable at hskip
    grind
  obtain ⟨hk, hbad⟩ := hbad
  rw [TraceSet.openLoop, dif_pos hs, ht] at hout
  simp only [ok_bind, hl, TraceSet.openRecord_unknown _ _ hblock hk] at hout
  split_ifs at hout with hzero
  · cases hout
    rfl
  · have hlong : ¬ r.value.length < 2 ^ 63 := by
      rcases hbad with hnil | hlong
      · rw [hnil] at hzero
        exact absurd (Or.inr rfl) hzero
      · omega
    rw [skip, if_neg hlong] at hout
    cases hout

private theorem openLoop_records_not_skippable {rs : List Record} {self out : TraceSet}
    {f : ByteFile} {ys : List UInt8} (hrs : ∀ r ∈ rs, r ∈ w.records)
    (hskip : ∃ r ∈ rs, ¬ r.Skippable) (h : f.rest = rs.flatMap Record.encode ++ ys)
    (hs : self.traceBlockSpace = 0)
    (hout : TraceSet.openLoop f.size self f f.pos = .ok out) :
    out.traceBlockOffset = self.traceBlockOffset := by
  induction rs generalizing self f with
  | nil => obtain ⟨r, hr, -⟩ := hskip; cases hr
  | cons r rs ih =>
    have hr : r ∈ w.records := hrs r List.mem_cons_self
    have h1 : f.rest = r.encode ++ (rs.flatMap Record.encode ++ ys) := by
      rw [h, List.flatMap_cons, List.append_assoc]
    have hlt : f.pos < f.size - self.traceBlockSpace := by
      apply pos_lt_bound h1
      rw [hs]
      exact Nat.zero_le _
    by_cases hsk : r.Skippable
    · obtain ⟨a, ha⟩ := scanned_of_skippable hr hsk
      rw [TraceSet.openLoop_record ha h1 hlt] at hout
      have hskip' : ∃ r ∈ rs, ¬ r.Skippable := by
        obtain ⟨q, hq, hqs⟩ := hskip
        rcases List.mem_cons.mp hq with rfl | hq
        · exact absurd hsk hqs
        · exact ⟨q, hq, hqs⟩
      have hi := ih (f := f.seek (f.pos + r.encode.length))
        (fun q hq ↦ hrs q (List.mem_cons_of_mem r hq)) hskip' (ByteFile.rest_advance h1)
        (by rw [TraceSet.traceBlockSpace_applyRecord, hs]) hout
      rw [hi, TraceSet.traceBlockOffset_applyRecord]
    · obtain ⟨a, ha⟩ := w.framed r hr
      exact openLoop_not_skippable ha (w.tags r hr).2 hsk h1 hlt hout

private theorem not_parsed (hskip : ∃ r ∈ w.records, ¬ r.Skippable) :
    ¬ ∃ self, ({} : TraceSet).open w.file = .ok self ∧ w.Parsed self := by
  rintro ⟨self, hself, hparsed⟩
  have hrest : (ByteFile.mk w.file 0).rest =
      w.records.flatMap Record.encode ++ (w.endRecord.encode ++ w.block) := by
    change w.file = _
    rw [file, header, List.append_assoc]
  have hnone := openLoop_records_not_skippable (fun r hr ↦ hr) hskip hrest rfl hself
  rw [hparsed.traceBlockOffset] at hnone
  cases hnone

end TraceFile

/-- `open` on a fresh object reads a well-formed file completely exactly when each record it does
not know has a value, of at most as many bytes as a file can have. -/
theorem open_parsed_iff (w : TraceFile) :
    (∃ self, ({} : TraceSet).open w.file = .ok self ∧ w.Parsed self) ↔
      ∀ r ∈ w.records, r.Skippable := by
  constructor
  · intro h
    by_contra hall
    have hskip : ∃ r ∈ w.records, ¬ r.Skippable := by simpa using hall
    exact TraceFile.not_parsed hskip h
  · intro h
    obtain ⟨f, hf⟩ := TraceFile.open_of_skippable h
    exact ⟨_, hf, w.parsed_located f⟩

/-- One trace of two 16-bit samples and a title of one byte. The title space has a long length, and
a description (`0x47`) with this value stands in front of the coding. -/
def describedFile (description : List UInt8) (h : description.length < 0x80) : TraceFile where
  records := [⟨Tag.titleSpace, [0x82, 1, 0], [1]⟩, .short Tag.numberOfTraces [1, 0, 0, 0],
    .short 0x47 description, .short Tag.numerOfSamplesPerTrace [2, 0, 0, 0],
    .short Tag.sampleCoding [2]]
  ending := [0]
  block := [0x41, 5, 0, 6, 0]
  numberOfTraces := 1
  numberOfSamples := 2
  dtype := .int16
  framed := by
    simp only [List.forall_mem_cons]
    exact ⟨⟨_, .long 0x82 [1, 0] (by decide) rfl⟩, ⟨0, (Record.framed_short (by decide)).1⟩,
      ⟨0, (Record.framed_short h).1⟩, ⟨0, (Record.framed_short (by decide)).1⟩,
      ⟨0, (Record.framed_short (by decide)).1⟩, by simp⟩
  tags := by
    simp only [List.forall_mem_cons, Record.tag_short]
    exact ⟨by decide, by decide, by decide, by decide, by decide, by simp⟩
  widths := by
    simp only [List.forall_mem_cons, Record.tag_short]
    refine ⟨?_, ?_, ?_, ?_, ?_, by simp⟩ <;> (intro w hw; cases hw <;> rfl)
  once := by
    simp only [List.pairwise_cons, List.forall_mem_cons, Record.tag_short]
    decide
  count := rfl
  samples := rfl
  coding := rfl
  ends := ⟨0, .short 0 rfl⟩
  traces := rfl

/-- A description of one character. -/
theorem open_parsed_iff_described :
    ∃ self, ({} : TraceSet).open (describedFile [0x61] (by decide)).file = .ok self ∧
      (describedFile [0x61] (by decide)).Parsed self :=
  (open_parsed_iff (describedFile [0x61] (by decide))).mpr (by decide)

/-- An empty description ends the scan: the samples, the coding and the traces are not found. -/
theorem not_parsed_emptyDescription :
    ¬ ∃ self, ({} : TraceSet).open (describedFile [] (by decide)).file = .ok self ∧
      (describedFile [] (by decide)).Parsed self := by
  apply TraceFile.not_parsed
  exact ⟨.short 0x47 [], by decide, by decide⟩

end HorrorScope.Trs
