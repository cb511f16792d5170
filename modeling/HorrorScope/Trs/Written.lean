import HorrorScope.Trs.Records

/-!
# What `new` and `addTrace` leave in the file

`src/acq/Trace.py:252–278,326–362`. The header of a set with given sizes is a fixed list
of short records in which only the trace count changes; a run of accepted `addTrace`
calls keeps the file at that header followed by the records of the traces, in order.
-/

namespace HorrorScope.Trs

open HorrorScope.Base

/-- The arguments of `new` that fit the fields of the header. -/
structure Shape where
  titleSpace : Nat
  dataSpace : Nat
  numberOfSamples : Nat
  dtype : Dtype
  xscale : UInt32
  yscale : UInt32
  titleSpace_lt : titleSpace < 2 ^ 8
  dataSpace_lt : dataSpace < 2 ^ 16
  numberOfSamples_lt : numberOfSamples < 2 ^ 32

namespace Shape

/-- The bytes of one trace: title, data and samples. -/
def traceSpace (p : Shape) : Nat :=
  p.numberOfSamples * codingByteSize p.dtype.coding + p.dataSpace + p.titleSpace

/-- The records in front of the trace count. -/
def headRecords (p : Shape) : List Record :=
  [Record.short Tag.titleSpace (leBytes 1 p.titleSpace),
   Record.short Tag.sampleCoding (leBytes 1 p.dtype.coding),
   Record.short Tag.dataSpace (leBytes 2 p.dataSpace),
   Record.short Tag.numerOfSamplesPerTrace (leBytes 4 p.numberOfSamples)]

/-- The record that `addTrace` rewrites. -/
def countRecord (count : Nat) : Record := Record.short Tag.numberOfTraces (leBytes 4 count)

/-- The records between the trace count and the trace block. -/
def tailRecords (p : Shape) : List Record :=
  [Record.short Tag.xlabel (leBytes 1 115),
   Record.short Tag.ylabel (leBytes 1 86),
   Record.short Tag.xscale (leBytes 4 p.xscale.toNat),
   Record.short Tag.yscale (leBytes 4 p.yscale.toNat)]

/-- The bytes in front of the count record. -/
def head (p : Shape) : List UInt8 := p.headRecords.flatMap Record.encode

/-- The bytes behind the count record, the trace block tag included. -/
def tail (p : Shape) : List UInt8 :=
  p.tailRecords.flatMap Record.encode ++ [Tag.traceBlock, 0]

/-- The header of a set of `count` traces. -/
def header (p : Shape) (count : Nat) : List UInt8 :=
  p.head ++ ((countRecord count).encode ++ p.tail)

/-- The record of the count has six bytes. -/
@[simp] theorem length_countRecord (count : Nat) : (countRecord count).encode.length = 6 := rfl

/-- The header has the same length for every count. -/
@[simp] theorem length_header (p : Shape) (count : Nat) : (p.header count).length = 42 := rfl

end Shape

namespace TraceSet

/-- The fields of a set of `count` traces, apart from its handle. -/
def described (p : Shape) (count : Nat) : TraceSet where
  traceBlockOffset := some 42
  numberOfTraces := some count
  numberOfSamplesPerTrace := some p.numberOfSamples
  sampleCoding := some p.dtype.coding
  sampleCodingByteSize := some (codingByteSize p.dtype.coding)
  titleSpace := p.titleSpace
  dataSpace := p.dataSpace
  sampleSpace := some (p.numberOfSamples * codingByteSize p.dtype.coding)
  traceSpace := some p.traceSpace
  traceBlockSpace := 0

/-- The object after `new` and `count` accepted traces whose records are `block`. -/
def written (p : Shape) (count : Nat) (block : List UInt8) : TraceSet :=
  (described p count).withHandle (ByteFile.atEnd (p.header count ++ block))

/-- `new` on a fresh object, with the arguments of a shape. -/
def newShape (p : Shape) : TraceSet :=
  ({} : TraceSet).new p.titleSpace p.dtype.coding p.dataSpace p.numberOfSamples p.xscale p.yscale

/-- A header record is one write of its bytes. -/
theorem handle_writeRecord {self : TraceSet} {f : ByteFile} (h : self.handle = some f)
    (hp : f.pos ≤ f.size) (tag : UInt8) {w : Nat} (val : Nat) :
    (self.writeRecord tag w val).handle =
      some (f.write (Record.short tag (leBytes w val)).encode) := by
  have ht : leBytes 1 tag.toNat = [tag] := by
    rw [leBytes, leBytes, UInt8.ofNat_toNat]
  have he : (Record.short tag (leBytes w val)).encode = leBytes 1 tag.toNat ++
      leBytes 1 w ++ leBytes w val := by
    rw [ht, Record.encode, Record.short, length_leBytes]
    rfl
  have hw : (self.writeRecord tag w val).handle =
      some (((f.write (leBytes 1 tag.toNat)).write (leBytes 1 w)).write (leBytes w val)) := by
    simp only [writeRecord, writeUINT8, writeUINT, onHandle, h, Option.map_some]
  rw [hw, he, ByteFile.write_write hp, ByteFile.write_write hp]

/-- At the end of the file a header record is appended. -/
theorem handle_writeRecord_atEnd {self : TraceSet} {bs : List UInt8}
    (h : self.handle = some (ByteFile.atEnd bs)) (tag : UInt8) (w val : Nat) :
    (self.writeRecord tag w val).handle =
      some (ByteFile.atEnd (bs ++ (Record.short tag (leBytes w val)).encode)) := by
  rw [handle_writeRecord h (Nat.le_refl _), ByteFile.write_atEnd]

private theorem handle_writeTraceBlock {self : TraceSet} {bs : List UInt8}
    (h : self.handle = some (ByteFile.atEnd bs)) :
    self.writeTraceBlock.handle = some (ByteFile.atEnd (bs ++ [Tag.traceBlock, 0])) := by
  simp only [writeTraceBlock, writeUINT8, writeUINT, onHandle, h, Option.map_some,
    ByteFile.write_atEnd, List.append_assoc]
  rfl

/-- `new` writes four records, the count and four more, whatever its arguments. -/
theorem handle_new (titleSpace sampleCoding dataSpace numberOfSamples : Nat)
    (xscale yscale : UInt32) :
    (({} : TraceSet).new titleSpace sampleCoding dataSpace numberOfSamples xscale yscale).handle =
      some (ByteFile.atEnd
        ([Record.short Tag.titleSpace (leBytes 1 titleSpace),
          Record.short Tag.sampleCoding (leBytes 1 sampleCoding),
          Record.short Tag.dataSpace (leBytes 2 dataSpace),
          Record.short Tag.numerOfSamplesPerTrace (leBytes 4 numberOfSamples)].flatMap
            Record.encode ++
        ((Shape.countRecord 0).encode ++
        ([Record.short Tag.xlabel (leBytes 1 115), Record.short Tag.ylabel (leBytes 1 86),
          Record.short Tag.xscale (leBytes 4 xscale.toNat),
          Record.short Tag.yscale (leBytes 4 yscale.toNat)].flatMap Record.encode ++
          [Tag.traceBlock, 0])))) := by
  let s0 : TraceSet := { handle := some (ByteFile.atEnd []) }
  let s1 := s0.writeTitleSpace titleSpace
  have h0 : s0.handle = some (ByteFile.atEnd []) := rfl
  have h1 : s1.handle = _ := handle_writeRecord_atEnd h0 Tag.titleSpace 1 titleSpace
  let s2 := { s1.writeSampleCoding sampleCoding with
    sampleCodingByteSize := some (codingByteSize sampleCoding) }
  have h2 : s2.handle = _ := handle_writeRecord_atEnd h1 Tag.sampleCoding 1 sampleCoding
  let s3 := s2.writeDataSpace dataSpace
  have h3 : s3.handle = _ := handle_writeRecord_atEnd h2 Tag.dataSpace 2 dataSpace
  let s4 := s3.writeNumerOfSamplesPerTrace numberOfSamples
  have h4 : s4.handle = _ :=
    handle_writeRecord_atEnd h3 Tag.numerOfSamplesPerTrace 4 numberOfSamples
  let sampleSpace := numberOfSamples * codingByteSize sampleCoding
  let s5 := { s4.writeNumberOfTraces 0 with
    sampleSpace := some sampleSpace
    traceSpace := some (sampleSpace + dataSpace + titleSpace)
    traceBlockSpace := 0 * (sampleSpace + dataSpace + titleSpace) }
  have h5 : s5.handle = _ := handle_writeRecord_atEnd h4 Tag.numberOfTraces 4 0
  let s6 := s5.writeLabelsXY
  have h6 : s6.handle = _ := handle_writeRecord_atEnd
    (handle_writeRecord_atEnd h5 Tag.xlabel 1 115) Tag.ylabel 1 86
  let s7 := s6.writeScalesXY xscale yscale
  have h7 : s7.handle = _ := handle_writeRecord_atEnd
    (handle_writeRecord_atEnd h6 Tag.xscale 4 xscale.toNat) Tag.yscale 4 yscale.toNat
  have h8 := handle_writeTraceBlock h7
  refine Eq.trans (b := s7.writeTraceBlock.handle) rfl ?_
  rw [h8]
  simp only [Shape.countRecord, List.flatMap_cons, List.flatMap_nil, List.append_assoc,
    List.nil_append]

/-- `new` writes exactly the header of an empty set. -/
theorem newShape_eq_written (p : Shape) : newShape p = written p 0 [] := by
  have hh : (newShape p).handle = some (ByteFile.atEnd (p.header 0)) := handle_new ..
  have ho : (newShape p).traceBlockOffset = (newShape p).handle.map ByteFile.pos := rfl
  have hz : newShape p = { described p 0 with
      handle := (newShape p).handle, traceBlockOffset := (newShape p).traceBlockOffset } := by
    simp only [newShape, new, described, Nat.zero_mul]
    rfl
  rw [hz, ho, hh, written, List.append_nil]
  rfl

/-! ### Appending -/

/-- An operation on the handle that is there. -/
@[simp] theorem onHandle_withHandle (self : TraceSet) (f : ByteFile) (op : ByteFile → ByteFile) :
    (self.withHandle f).onHandle op = self.withHandle (op f) := rfl

/-- The data bytes are appended one by one. -/
theorem writeData_withHandle (self : TraceSet) (bs : List UInt8) (data : List Nat) :
    (self.withHandle (ByteFile.atEnd bs)).writeData data =
      self.withHandle (ByteFile.atEnd (bs ++ data.map UInt8.ofNat)) := by
  induction data generalizing bs with
  | nil => rw [List.map_nil, List.append_nil]; rfl
  | cons b data ih =>
    have hw : (self.withHandle (ByteFile.atEnd bs)).writeUINT8 b =
        self.withHandle (ByteFile.atEnd (bs ++ [UInt8.ofNat b])) := by
      rw [writeUINT8, writeUINT, onHandle_withHandle, ByteFile.write_atEnd]
      rfl
    have hi := ih (bs ++ [UInt8.ofNat b])
    rw [List.append_assoc, List.singleton_append, ← List.map_cons] at hi
    rw [← hi, ← hw]
    rfl

/-- A coding gives back its type. -/
theorem Dtype.ofCoding_coding (d : Dtype) : Dtype.ofCoding d.coding = some d := by
  cases d <;> rfl

/-- The object with a file of some records, the count and what follows it, its cursor at the
end. -/
def holding (self : TraceSet) (rs : List Record) (count : Nat) (ys : List UInt8) : TraceSet :=
  { self with numberOfTraces := some count }.withHandle
    (ByteFile.atEnd (rs.flatMap Record.encode ++ ((Shape.countRecord count).encode ++ ys)))

/-- Records that the scan for the count passes over. -/
def Uncounted (rs : List Record) : Prop :=
  ∀ r ∈ rs, (∃ a, r.Framed a) ∧ r.tag ≠ Tag.numberOfTraces

section Holding

variable (self : TraceSet) (hspace : self.traceBlockSpace = 0) {rs : List Record}
  (hrs : Uncounted rs)

include hspace hrs

private theorem findtag_count (count : Nat) (ys : List UInt8) (pos : Nat) :
    (self.withHandle ⟨rs.flatMap Record.encode ++ ((Shape.countRecord count).encode ++ ys),
        pos⟩).findtag Tag.numberOfTraces =
      .ok (self.withHandle ⟨rs.flatMap Record.encode ++ ((Shape.countRecord count).encode ++ ys),
        (rs.flatMap Record.encode).length⟩) := by
  let f : ByteFile := ⟨rs.flatMap Record.encode ++ ((Shape.countRecord count).encode ++ ys), 0⟩
  have hf : f.rest = rs.flatMap Record.encode ++ ((Shape.countRecord count).encode ++ ys) := rfl
  have h1 := findtagLoop_records 0 rs hrs hf (Nat.zero_le _)
  have hc : (Shape.countRecord count).Framed 0 :=
    Record.framed_short (by rw [length_leBytes]; decide)
  have h2 := findtagLoop_found 0 hc (ByteFile.rest_advance hf) (Nat.zero_le _)
  have hz : (self.withHandle ⟨rs.flatMap Record.encode ++ ((Shape.countRecord count).encode ++ ys),
      pos⟩).traceBlockSpace = 0 := hspace
  simp only [ByteFile.size_seek, ByteFile.pos_seek, ByteFile.seek_seek, show f.pos = 0 from rfl,
    Nat.zero_add] at h1 h2
  change (do
    let g ← findtagLoop Tag.numberOfTraces f.size (self.withHandle _).traceBlockSpace f 0
    return self.withHandle g) = _
  rw [hz, h1]
  exact congrArg (· >>= fun g ↦ Except.ok (self.withHandle g)) h2

/-- The header scan stops at the count record and the rewrite replaces exactly it. -/
theorem updateNumberOfTraces_withHandle (count val : Nat) (ys : List UInt8) (pos : Nat) :
    (self.withHandle ⟨rs.flatMap Record.encode ++ ((Shape.countRecord count).encode ++ ys),
        pos⟩).updateNumberOfTraces val =
      .ok ({ self with numberOfTraces := some val }.withHandle
        ⟨rs.flatMap Record.encode ++ ((Shape.countRecord val).encode ++ ys),
          (rs.flatMap Record.encode).length + 6⟩) := by
  let f : ByteFile := ⟨rs.flatMap Record.encode ++ ((Shape.countRecord count).encode ++ ys),
    (rs.flatMap Record.encode).length⟩
  have hpos : f.pos ≤ f.size := by
    change _ ≤ (rs.flatMap Record.encode ++ _).length
    rw [List.length_append]
    exact Nat.le_add_right _ _
  have hf : (self.withHandle f).handle = some f := rfl
  have hw := handle_writeRecord hf hpos Tag.numberOfTraces (w := 4) val
  have hm := ByteFile.write_middle (rs.flatMap Record.encode) (Shape.countRecord count).encode ys
    (Shape.countRecord val).encode rfl
  have he : (self.withHandle f).writeNumberOfTraces val =
      { self with
        numberOfTraces := some val
        handle := ((self.withHandle f).writeRecord Tag.numberOfTraces 4 val).handle } := rfl
  rw [updateNumberOfTraces, findtag_count self hspace hrs, ok_bind, he, hw]
  exact congrArg (fun g ↦ Except.ok ({ self with numberOfTraces := some val }.withHandle g)) hm

end Holding

/-- The bytes of the samples; a coding outside the four has none. -/
def sampleBytes (np : Numpy) (coding : Option Nat) (samples : Samples) : List UInt8 :=
  ((coding.bind Dtype.ofCoding).map (samples.tofile np)).getD []

private theorem writeSamples_withHandle (np : Numpy) (self : TraceSet) (bs : List UInt8)
    (samples : Samples) :
    (self.withHandle (ByteFile.atEnd bs)).writeSamples np samples =
      self.withHandle (ByteFile.atEnd (bs ++ sampleBytes np self.sampleCoding samples)) := by
  have hc : (self.withHandle (ByteFile.atEnd bs)).sampleCoding = self.sampleCoding := rfl
  unfold writeSamples sampleBytes
  rw [hc]
  cases self.sampleCoding.bind Dtype.ofCoding with
  | some d =>
    change self.withHandle ((ByteFile.atEnd bs).write _) = _
    rw [ByteFile.write_atEnd]
    rfl
  | none => simp

section Append

variable (np : Numpy) (self : TraceSet) (rs : List Record) (count : Nat) (ys : List UInt8)
  {t : Trace}

/-- A trace with a wrong title changes nothing. -/
theorem addTrace_wrongTitle (ht : t.title.length ≠ self.titleSpace) :
    (self.holding rs count ys).addTrace np t =
      .ok (.wrongTitleSize, self.holding rs count ys) := by
  have ht' : t.title.length ≠ ((self.holding rs count ys).onHandle ByteFile.seekEnd).titleSpace :=
    ht
  unfold addTrace
  split
  · next hn => cases hn
  · dsimp only
    rw [if_pos ht']
    rfl

private theorem write_title (title : List UInt8) :
    ((self.holding rs count ys).onHandle ByteFile.seekEnd).onHandle (·.write title) =
      self.holding rs count (ys ++ title) := by
  rw [holding, onHandle_withHandle, onHandle_withHandle, ByteFile.seekEnd_eq_atEnd,
    ByteFile.bytes_atEnd, ByteFile.write_atEnd, holding]
  simp only [List.append_assoc]

/-- One with wrong data leaves its title in the file. -/
theorem addTrace_wrongData (ht : t.title.length = self.titleSpace)
    (hd : t.data.length ≠ self.dataSpace) :
    (self.holding rs count ys).addTrace np t =
      .ok (.wrongDataSize, self.holding rs count (ys ++ t.title)) := by
  have ht' : ¬ t.title.length ≠
      ((self.holding rs count ys).onHandle ByteFile.seekEnd).titleSpace := not_not_intro ht
  have hd' : t.data.length ≠ (self.holding rs count (ys ++ t.title)).dataSpace := hd
  unfold addTrace
  split
  · next hn => cases hn
  · dsimp only
    rw [if_neg ht', write_title, if_pos hd']
    rfl

/-- Every other trace is appended and counted, whatever its samples. -/
theorem addTrace_appended (hspace : self.traceBlockSpace = 0) (hrs : Uncounted rs)
    (ht : t.title.length = self.titleSpace) (hd : t.data.length = self.dataSpace) :
    (self.holding rs count ys).addTrace np t =
      .ok (.appended, self.holding rs (count + 1)
        (ys ++ (t.title ++ t.data.map UInt8.ofNat ++
          sampleBytes np self.sampleCoding t.samples))) := by
  have ht' : ¬ t.title.length ≠
      ((self.holding rs count ys).onHandle ByteFile.seekEnd).titleSpace := not_not_intro ht
  have hd' : ¬ t.data.length ≠ (self.holding rs count (ys ++ t.title)).dataSpace :=
    not_not_intro hd
  have hw : ((self.holding rs count (ys ++ t.title)).writeData t.data).writeSamples np t.samples =
      self.holding rs count (ys ++ (t.title ++ t.data.map UInt8.ofNat ++
        sampleBytes np self.sampleCoding t.samples)) := by
    rw [holding, writeData_withHandle, writeSamples_withHandle, holding]
    simp only [List.append_assoc]
  have hu := updateNumberOfTraces_withHandle { self with numberOfTraces := some (count + 1) }
    hspace hrs
  unfold addTrace
  split
  · next hn => cases hn
  · dsimp only
    rw [if_neg ht', write_title, if_neg hd', hw]
    change (do
      let self ← ({ self with numberOfTraces := some (count + 1) }.withHandle
        ⟨_, _⟩).updateNumberOfTraces (count + 1)
      return (Added.appended, self.onHandle ByteFile.seekEnd)) = _
    rw [hu]
    rfl

end Append

/-- The records in front of the count that `new` writes, whatever its arguments. -/
theorem uncounted_new (titleSpace sampleCoding dataSpace numberOfSamples : Nat) :
    Uncounted [Record.short Tag.titleSpace (leBytes 1 titleSpace),
      Record.short Tag.sampleCoding (leBytes 1 sampleCoding),
      Record.short Tag.dataSpace (leBytes 2 dataSpace),
      Record.short Tag.numerOfSamplesPerTrace (leBytes 4 numberOfSamples)] := by
  intro r hm
  simp only [List.mem_cons, List.not_mem_nil, or_false] at hm
  rcases hm with rfl | rfl | rfl | rfl
  all_goals
    exact ⟨⟨0, Record.framed_short (by rw [length_leBytes]; decide)⟩,
      by rw [Record.tag_short]; decide⟩

private theorem written_eq_holding (p : Shape) (count : Nat) (block : List UInt8) :
    written p count block = (described p 0).holding p.headRecords count (p.tail ++ block) := by
  rw [written, Shape.header, Shape.head, List.append_assoc, List.append_assoc]
  rfl

/-- The bytes that an accepted trace adds to the file. -/
def recordBytes (np : Numpy) (p : Shape) (t : Trace) : List UInt8 :=
  t.title ++ t.data.map UInt8.ofNat ++ t.samples.tofile np p.dtype

/-- A trace of the set's title and data sizes is appended and counted. -/
theorem addTrace_written (np : Numpy) (p : Shape) (count : Nat) (block : List UInt8) (t : Trace)
    (ht : t.title.length = p.titleSpace) (hd : t.data.length = p.dataSpace) :
    (written p count block).addTrace np t =
      .ok (.appended, written p (count + 1) (block ++ recordBytes np p t)) := by
  have hs : sampleBytes np (described p 0).sampleCoding t.samples =
      t.samples.tofile np p.dtype := by
    change ((Dtype.ofCoding p.dtype.coding).map (t.samples.tofile np)).getD [] = _
    rw [Dtype.ofCoding_coding]
    rfl
  have h := addTrace_appended np (described p 0) p.headRecords count (p.tail ++ block) rfl
    (uncounted_new _ _ _ _) ht hd
  rw [hs] at h
  rw [written_eq_holding, h, written_eq_holding, recordBytes, List.append_assoc p.tail]

end TraceSet
end HorrorScope.Trs
