import HorrorScope.Trs.Records

/-!
# The header scan of `open`

`src/acq/Trace.py:172–224`. Five tags set a field and ignore their length, the trace
block tag locates the traces, a zero tag or an unknown tag of length zero ends the scan
and every other record is skipped. On records whose known tags carry values of the
expected width the scan is a fold of `applyRecord`.
-/

namespace HorrorScope.Trs

open HorrorScope.Base

/-- The value width that `open` reads for a tag it knows. -/
def knownWidth (tag : UInt8) : Option Nat :=
  if tag = Tag.titleSpace then some 1
  else if tag = Tag.numberOfTraces then some 4
  else if tag = Tag.dataSpace then some 2
  else if tag = Tag.numerOfSamplesPerTrace then some 4
  else if tag = Tag.sampleCoding then some 1
  else none

/-- A framed record that `open` consumes whole and goes on after: a known tag with a
value of its width, or another nonzero tag with a nonempty value. -/
structure Record.Scanned (r : Record) (addLen : Nat) : Prop where
  framed : r.Framed addLen
  notBlock : r.tag ≠ Tag.traceBlock
  known : ∀ w, knownWidth r.tag = some w → r.value.length = w
  unknown : knownWidth r.tag = none → r.tag ≠ 0 ∧ r.value ≠ []

/-- A short record of a known tag is scanned when its value has the tag's width. -/
theorem Record.scanned_known {tag : UInt8} {value : List UInt8} {w : Nat}
    (hk : knownWidth tag = some w) (hb : tag ≠ Tag.traceBlock) (hl : value.length = w)
    (hw : w < 0x80) : (Record.short tag value).Scanned 0 where
  framed := framed_short (by rw [hl]; exact hw)
  notBlock := hb
  known := by
    intro v hv
    rw [tag_short, hk] at hv
    rw [← Option.some.inj hv]
    exact hl
  unknown := by
    intro hn
    rw [tag_short, hk] at hn
    cases hn

/-- A short record of another tag is scanned when tag and value are not null. -/
theorem Record.scanned_other {tag : UInt8} {value : List UInt8} (hk : knownWidth tag = none)
    (hb : tag ≠ Tag.traceBlock) (hz : tag ≠ 0) (hv : value ≠ []) (hl : value.length < 0x80) :
    (Record.short tag value).Scanned 0 where
  framed := framed_short hl
  notBlock := hb
  known := by
    intro v hv
    rw [tag_short, hk] at hv
    cases hv
  unknown := fun _ ↦ ⟨hz, hv⟩

namespace TraceSet

/-- The field update that a scanned record causes. -/
def applyRecord (self : TraceSet) (r : Record) : TraceSet :=
  if r.tag = Tag.titleSpace then { self with titleSpace := leValue r.value }
  else if r.tag = Tag.numberOfTraces then { self with numberOfTraces := some (leValue r.value) }
  else if r.tag = Tag.dataSpace then { self with dataSpace := leValue r.value }
  else if r.tag = Tag.numerOfSamplesPerTrace then
    { self with numberOfSamplesPerTrace := some (leValue r.value) }
  else if r.tag = Tag.sampleCoding then
    { self with
      sampleCoding := some (leValue r.value)
      sampleCodingByteSize := some (codingByteSize (leValue r.value)) }
  else self

/-- Field by field: each one is set by the records of its own tag. -/
theorem applyRecord_eq (self : TraceSet) (r : Record) :
    self.applyRecord r =
      { self with
        titleSpace := if r.tag = Tag.titleSpace then leValue r.value else self.titleSpace
        numberOfTraces :=
          if r.tag = Tag.numberOfTraces then some (leValue r.value) else self.numberOfTraces
        dataSpace := if r.tag = Tag.dataSpace then leValue r.value else self.dataSpace
        numberOfSamplesPerTrace :=
          if r.tag = Tag.numerOfSamplesPerTrace then some (leValue r.value)
          else self.numberOfSamplesPerTrace
        sampleCoding :=
          if r.tag = Tag.sampleCoding then some (leValue r.value) else self.sampleCoding
        sampleCodingByteSize :=
          if r.tag = Tag.sampleCoding then some (codingByteSize (leValue r.value))
          else self.sampleCodingByteSize } := by
  unfold applyRecord
  by_cases h1 : r.tag = Tag.titleSpace
  · rw [h1]
    rfl
  by_cases h2 : r.tag = Tag.numberOfTraces
  · rw [h2]
    rfl
  by_cases h3 : r.tag = Tag.dataSpace
  · rw [h3]
    rfl
  by_cases h4 : r.tag = Tag.numerOfSamplesPerTrace
  · rw [h4]
    rfl
  by_cases h5 : r.tag = Tag.sampleCoding
  · rw [h5]
    rfl
  · simp only [if_neg h1, if_neg h2, if_neg h3, if_neg h4, if_neg h5]

/-- A header record leaves the loop bound of the scan as it was. -/
@[simp] theorem traceBlockSpace_applyRecord (self : TraceSet) (r : Record) :
    (self.applyRecord r).traceBlockSpace = self.traceBlockSpace := by
  rw [applyRecord_eq]

/-- It does not place the traces either. -/
@[simp] theorem traceBlockOffset_applyRecord (self : TraceSet) (r : Record) :
    (self.applyRecord r).traceBlockOffset = self.traceBlockOffset := by
  rw [applyRecord_eq]

/-- No record of the header changes `_traceBlockSpace`. -/
theorem traceBlockSpace_foldl (rs : List Record) (self : TraceSet) :
    (rs.foldl applyRecord self).traceBlockSpace = self.traceBlockSpace := by
  induction rs generalizing self with
  | nil => rfl
  | cons r rs ih => rw [List.foldl_cons, ih, traceBlockSpace_applyRecord]

/-- One iteration on a record that `open` does not know. -/
theorem openRecord_unknown (self : TraceSet) (f : ByteFile) {tag : UInt8}
    (hblock : tag ≠ Tag.traceBlock) (hk : knownWidth tag = none) (length : Nat) :
    self.openRecord f tag length =
      if tag = 0 ∨ length = 0 then .ok (false, self, f)
      else skip f length >>= fun f ↦ .ok (true, self, f) := by
  have hne : ∀ t, (knownWidth t).isSome → tag ≠ t := by
    rintro t ht rfl
    rw [hk] at ht
    cases ht
  unfold openRecord
  rw [if_neg hblock, if_neg (hne Tag.titleSpace rfl), if_neg (hne Tag.numberOfTraces rfl),
    if_neg (hne Tag.dataSpace rfl), if_neg (hne Tag.numerOfSamplesPerTrace rfl),
    if_neg (hne Tag.sampleCoding rfl)]
  rfl

/-- One iteration on a scanned record updates the fields and moves past the value. -/
theorem openRecord_scanned (self : TraceSet) {f : ByteFile} {r : Record} {a : Nat}
    {ys : List UInt8} (hr : r.Scanned a) (h : f.rest = r.value ++ ys) :
    self.openRecord f r.tag r.value.length =
      .ok (true, self.applyRecord r, f.seek (f.pos + r.value.length)) := by
  -- a known tag reads as many bytes as its value has
  have hu : ∀ w, knownWidth r.tag = some w →
      readUINT w f = .ok (leValue r.value, f.seek (f.pos + r.value.length)) := by
    intro w hw
    rw [← hr.known w hw]
    exact readUINT_of_rest h
  unfold openRecord applyRecord
  rw [if_neg hr.notBlock]
  by_cases h1 : r.tag = Tag.titleSpace
  · rw [if_pos h1, if_pos h1, hu 1 (by rw [h1]; rfl)]
    rfl
  rw [if_neg h1, if_neg h1]
  by_cases h2 : r.tag = Tag.numberOfTraces
  · rw [if_pos h2, if_pos h2, hu 4 (by rw [h2]; rfl)]
    rfl
  rw [if_neg h2, if_neg h2]
  by_cases h3 : r.tag = Tag.dataSpace
  · rw [if_pos h3, if_pos h3, hu 2 (by rw [h3]; rfl)]
    rfl
  rw [if_neg h3, if_neg h3]
  by_cases h4 : r.tag = Tag.numerOfSamplesPerTrace
  · rw [if_pos h4, if_pos h4, hu 4 (by rw [h4]; rfl)]
    rfl
  rw [if_neg h4, if_neg h4]
  by_cases h5 : r.tag = Tag.sampleCoding
  · rw [if_pos h5, if_pos h5, hu 1 (by rw [h5]; rfl)]
    rfl
  rw [if_neg h5, if_neg h5]
  -- the early exit needs a zero tag or an empty value
  have hk : knownWidth r.tag = none := by
    rw [knownWidth, if_neg h1, if_neg h2, if_neg h3, if_neg h4, if_neg h5]
  have hgo : ¬ (r.tag = 0 ∨ r.value.length = 0) := by
    rintro (hzero | hempty)
    · exact (hr.unknown hk).1 hzero
    · exact (hr.unknown hk).2 (List.length_eq_zero_iff.mp hempty)
  rw [if_neg hgo, skip_of_rest h hr.framed.readable]
  rfl

/-- Inside its bound the scan moves past one record, cursor and offset by the same step. -/
theorem openLoop_record {fileSize offset : Nat} {self : TraceSet} {f : ByteFile} {r : Record}
    {a : Nat} {ys : List UInt8} (hr : r.Scanned a) (h : f.rest = r.encode ++ ys)
    (hs : offset < fileSize - self.traceBlockSpace) :
    openLoop fileSize self f offset =
      openLoop fileSize (self.applyRecord r) (f.seek (f.pos + r.encode.length))
        (offset + r.encode.length) := by
  obtain ⟨ht, hl, hv⟩ := read_header_of_rest hr.framed.lengthField h
  have ho := openRecord_scanned self hr hv
  have he := Record.length_encode hr.framed.lengthField
  have hp : f.pos + 2 + a + r.value.length = f.pos + r.encode.length := by omega
  have hq : offset + 2 + a + r.value.length = offset + r.encode.length := by omega
  simp only [ByteFile.pos_seek, ByteFile.seek_seek, hp] at ho
  rw [openLoop, dif_pos hs, ht]
  simp only [ok_bind, hl, ho, hq, if_true]

/-- The scan over a list of records is a fold, while the reserve behind them is kept. -/
theorem openLoop_records (self : TraceSet) {f : ByteFile} (rs : List Record) {ys : List UInt8}
    (hr : ∀ r ∈ rs, ∃ a, r.Scanned a) (h : f.rest = rs.flatMap Record.encode ++ ys)
    (hs : self.traceBlockSpace ≤ ys.length) :
    openLoop f.size self f f.pos =
      openLoop f.size (rs.foldl applyRecord self)
        (f.seek (f.pos + (rs.flatMap Record.encode).length))
        (f.pos + (rs.flatMap Record.encode).length) := by
  induction rs generalizing self f with
  | nil => rfl
  | cons r rs ih =>
    obtain ⟨a, ha⟩ := hr r List.mem_cons_self
    have h1 : f.rest = r.encode ++ (rs.flatMap Record.encode ++ ys) := by
      rw [h, List.flatMap_cons, List.append_assoc]
    have hb : self.traceBlockSpace ≤ (rs.flatMap Record.encode ++ ys).length := by
      rw [List.length_append]
      omega
    have hi := ih (self.applyRecord r) (f := f.seek (f.pos + r.encode.length))
      (fun q hq ↦ hr q (List.mem_cons_of_mem r hq)) (ByteFile.rest_advance h1)
      (by rw [traceBlockSpace_applyRecord]; exact hs)
    rw [openLoop_record ha h1 (pos_lt_bound h1 hb)]
    simp only [ByteFile.size_seek, ByteFile.pos_seek, ByteFile.seek_seek] at hi
    rw [hi, List.foldl_cons, List.flatMap_cons, List.length_append, Nat.add_assoc]

/-- The object after the trace block tag has located `numberOfTraces` traces. -/
def located (self : TraceSet) (numberOfSamples byteSize numberOfTraces offset : Nat) : TraceSet :=
  { self with
    sampleSpace := some (numberOfSamples * byteSize)
    traceSpace := some (numberOfSamples * byteSize + self.dataSpace + self.titleSpace)
    traceBlockSpace :=
      numberOfTraces * (numberOfSamples * byteSize + self.dataSpace + self.titleSpace)
    traceBlockOffset := some offset }

/-- On a trace block record the scan jumps over the traces, but its offset does not. -/
theorem openLoop_block (self : TraceSet) {f : ByteFile} {lengthField ys : List UInt8} {a : Nat}
    {numberOfSamples byteSize numberOfTraces : Nat}
    (hn : self.numberOfSamplesPerTrace = some numberOfSamples)
    (hb : self.sampleCodingByteSize = some byteSize)
    (ht : self.numberOfTraces = some numberOfTraces) (hf : LengthField lengthField 0 a)
    (h : f.rest = (Record.mk Tag.traceBlock lengthField []).encode ++ ys)
    (hs : f.pos < f.size - self.traceBlockSpace) :
    openLoop f.size self f f.pos =
      openLoop f.size (self.located numberOfSamples byteSize numberOfTraces (f.pos + 2 + a))
        (f.seek (f.pos + 2 + a + numberOfTraces *
          (numberOfSamples * byteSize + self.dataSpace + self.titleSpace)))
        (f.pos + 2 + a) := by
  obtain ⟨h1, h2, -⟩ := read_header_of_rest (r := ⟨Tag.traceBlock, lengthField, []⟩) hf h
  have ho : self.openRecord (f.seek (f.pos + 2 + a)) Tag.traceBlock 0 =
      .ok (true, self.located numberOfSamples byteSize numberOfTraces (f.pos + 2 + a),
        f.seek (f.pos + 2 + a + numberOfTraces *
          (numberOfSamples * byteSize + self.dataSpace + self.titleSpace))) := by
    simp only [openRecord, if_true, hn, hb, ht, required, ok_bind, located]
    rfl
  rw [openLoop, dif_pos hs, h1]
  simp only [ok_bind, h2, List.length_nil, ho, if_true, Nat.add_zero]

/-- The record that ends a header. -/
def traceBlockRecord : Record := Record.short Tag.traceBlock []

/-- The same for the short record that `new` writes. -/
theorem openLoop_traceBlock (self : TraceSet) {f : ByteFile} {ys : List UInt8}
    {numberOfSamples byteSize numberOfTraces : Nat}
    (hn : self.numberOfSamplesPerTrace = some numberOfSamples)
    (hb : self.sampleCodingByteSize = some byteSize)
    (ht : self.numberOfTraces = some numberOfTraces)
    (h : f.rest = traceBlockRecord.encode ++ ys) (hs : f.pos < f.size - self.traceBlockSpace) :
    openLoop f.size self f f.pos =
      openLoop f.size (self.located numberOfSamples byteSize numberOfTraces (f.pos + 2))
        (f.seek (f.pos + 2 + numberOfTraces *
          (numberOfSamples * byteSize + self.dataSpace + self.titleSpace)))
        (f.pos + 2) := by
  have hf : LengthField [0] 0 0 := .short 0 rfl
  exact openLoop_block self hn hb ht hf h hs

/-- The scan ends once its offset reaches the reserve of the located traces. -/
theorem openLoop_done {fileSize : Nat} {self : TraceSet} {f : ByteFile} {offset : Nat}
    (h : fileSize - self.traceBlockSpace ≤ offset) :
    openLoop fileSize self f offset = .ok (self.withHandle f) := by
  rw [openLoop, dif_neg (Nat.not_lt.mpr h)]

end TraceSet
end HorrorScope.Trs
