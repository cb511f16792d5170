import HorrorScope.Trs.Open
import HorrorScope.Trs.Written
import Mathlib.Tactic.Positivity
import Mathlib.Tactic.NormNum

/-!
# Reading a trace set back

A file written by `new` and `addTrace` (`src/acq/Trace.py:252,326`) is opened by a fresh
object and every trace is read at its index. The scan of `open` is a fold over the ten
records of the header; its loop bound is reached exactly when the bytes behind the header
are the recorded number of traces.
-/

namespace HorrorScope.Trs

open HorrorScope.Base

/-! ### Samples -/

/-- The values that a coding can store: integers of its width, or float32 words. -/
def Samples.Representable (d : Dtype) : Samples → Prop
  | .ints vs => d ≠ .float32 ∧ ∀ v ∈ vs, -2 ^ (8 * d.width - 1) ≤ v ∧ v < 2 ^ (8 * d.width - 1)
  | .floats _ => d = .float32

/-- The byte size of a coding is the width of its type. -/
theorem Dtype.codingByteSize_coding (d : Dtype) : codingByteSize d.coding = d.width := by
  cases d <;> rfl

private theorem bmod_of_representable (d : Dtype) (v : Int)
    (hl : -2 ^ (8 * d.width - 1) ≤ v) (hu : v < 2 ^ (8 * d.width - 1)) :
    v.bmod (256 ^ d.width) = v := by
  apply Int.bmod_eq_of_le_mul_two
  all_goals
    cases d <;> simp only [Dtype.width] at hl hu ⊢ <;> norm_num at hl hu ⊢ <;> omega

private theorem Samples.length_words (np : Numpy) (d : Dtype) (s : Samples) :
    (s.words np d).length = s.length := by
  cases s with
  | ints vs => rw [words]; split <;> exact List.length_map _
  | floats ws => rw [words]; split <;> exact List.length_map _

/-- Each sample takes the width of its type. -/
theorem Samples.length_tofile (np : Numpy) (d : Dtype) (s : Samples) :
    (s.tofile np d).length = s.length * d.width := by
  rw [tofile, length_leWords, length_words]

/-- Decoding the raw elements of representable samples gives the samples back. -/
theorem Samples.ofChunks_words (np : Numpy) (d : Dtype) (s : Samples) (h : s.Representable d) :
    ofChunks d ((s.words np d).map (leBytes d.width)) = s := by
  cases s with
  | floats ws =>
    subst h
    have hw : ∀ w : UInt32, UInt32.ofNat (leValue (leBytes 4 w.toNat)) = w := by
      intro w
      rw [leValue_leBytes (n := w.toNat) (by exact w.toNat_lt), UInt32.ofNat_toNat]
    simp only [ofChunks, words, if_true, Dtype.width, List.map_map, floats.injEq]
    exact (List.map_congr_left fun w _ ↦ hw w).trans (List.map_id ws)
  | ints vs =>
    obtain ⟨hd, hv⟩ := h
    simp only [ofChunks, words, if_neg hd, List.map_map, ints.injEq]
    refine (List.map_congr_left fun v hm ↦ ?_).trans (List.map_id vs)
    have hp : (0 : Int) < 256 ^ d.width := by positivity
    have hn : ((v % 256 ^ d.width).toNat : Int) = v % 256 ^ d.width :=
      Int.toNat_of_nonneg (Int.emod_nonneg v (ne_of_gt hp))
    have hb : (v % 256 ^ d.width).toNat < 256 ^ d.width := by
      have hlt := Int.emod_lt_of_pos v hp
      rw [← hn] at hlt
      exact_mod_cast hlt
    have he := Int.emod_bmod v (256 ^ d.width)
    push_cast at he
    simp only [Function.comp_apply, leValue_leBytes hb, hn, he, id_eq]
    exact bmod_of_representable d v (hv v hm).1 (hv v hm).2

/-- Reading as many elements as were written returns them, whatever follows. -/
theorem Samples.fromfile_of_rest {np : Numpy} {d : Dtype} {s : Samples} {f : ByteFile}
    {ys : List UInt8} (hs : s.Representable d) (h : f.rest = s.tofile np d ++ ys) :
    Samples.fromfile f d s.length = s := by
  have hp : f.peek (s.length * d.width) = s.tofile np d := by
    rw [← length_tofile np d s]
    exact ByteFile.peek_of_rest h
  have hc := chunks_leWords d.width (s.words np d) []
  rw [List.append_nil, length_words] at hc
  rw [fromfile, hp, tofile, hc, ofChunks_words np d s hs]

/-! ### Traces that fit a shape -/

/-- A trace with the sizes of the set, byte-valued data and representable samples. -/
structure Trace.Fits (t : Trace) (p : Shape) : Prop where
  title : t.title.length = p.titleSpace
  data : t.data.length = p.dataSpace
  bytes : ∀ b ∈ t.data, b < 256
  samples : t.samples.length = p.numberOfSamples
  representable : t.samples.Representable p.dtype

namespace TraceSet

/-- The record of a fitting trace has the length at which readers step. -/
theorem length_recordBytes (np : Numpy) {p : Shape} {t : Trace} (h : t.Fits p) :
    (recordBytes np p t).length = p.traceSpace := by
  rw [recordBytes, List.length_append, List.length_append, List.length_map, h.title, h.data,
    Samples.length_tofile, h.samples, Shape.traceSpace, Dtype.codingByteSize_coding]
  omega

/-- `addTrace` of each trace in order. -/
def addTraces (np : Numpy) : TraceSet → List Trace → Except PyError TraceSet
  | self, [] => .ok self
  | self, t :: ts => do
    let (_, self) ← self.addTrace np t
    addTraces np self ts

/-- The bytes of the file behind the handle. -/
def file (self : TraceSet) : List UInt8 := (self.handle.map ByteFile.bytes).getD []

/-- A run of accepted calls appends the records in order and counts them. -/
theorem addTraces_written (np : Numpy) (p : Shape) (ts : List Trace) (h : ∀ t ∈ ts, t.Fits p)
    (count : Nat) (block : List UInt8) :
    addTraces np (written p count block) ts =
      .ok (written p (count + ts.length) (block ++ ts.flatMap (recordBytes np p))) := by
  induction ts generalizing count block with
  | nil => rw [List.flatMap_nil, List.append_nil]; rfl
  | cons t ts ih =>
    have ht := h t List.mem_cons_self
    rw [addTraces, addTrace_written np p count block t ht.title ht.data, ok_bind]
    dsimp only
    rw [ih (fun u hu ↦ h u (List.mem_cons_of_mem t hu)), List.flatMap_cons, List.append_assoc,
      List.length_cons, Nat.add_assoc, Nat.add_comm 1]

/-- The file of a set made by `new` and fitting traces. -/
theorem file_addTraces (np : Numpy) (p : Shape) (ts : List Trace) (h : ∀ t ∈ ts, t.Fits p) :
    ∃ w, addTraces np (newShape p) ts = .ok w ∧
      w.file = p.header ts.length ++ ts.flatMap (recordBytes np p) := by
  refine ⟨written p ts.length (ts.flatMap (recordBytes np p)), ?_, rfl⟩
  rw [newShape_eq_written, addTraces_written np p ts h, Nat.zero_add, List.nil_append]

/-! ### Opening -/

/-- The fields that `open` reads from the header of `count` traces. -/
def opened (p : Shape) (count : Nat) : TraceSet :=
  { described p count with traceBlockSpace := count * p.traceSpace }

/-- The records in front of the trace block that `new` and `addTrace` write, whatever the sizes. -/
def newRecords (titleSpace sampleCoding dataSpace numberOfSamples count : Nat)
    (xscale yscale : UInt32) : List Record :=
  [Record.short Tag.titleSpace (leBytes 1 titleSpace),
   Record.short Tag.sampleCoding (leBytes 1 sampleCoding),
   Record.short Tag.dataSpace (leBytes 2 dataSpace),
   Record.short Tag.numerOfSamplesPerTrace (leBytes 4 numberOfSamples),
   Record.short Tag.numberOfTraces (leBytes 4 count),
   Record.short Tag.xlabel (leBytes 1 115),
   Record.short Tag.ylabel (leBytes 1 86),
   Record.short Tag.xscale (leBytes 4 xscale.toNat),
   Record.short Tag.yscale (leBytes 4 yscale.toNat)]

section Header

variable (self : TraceSet) (titleSpace sampleCoding dataSpace numberOfSamples count : Nat)
  (xscale yscale : UInt32)

/-- The scan reads every record of the header. -/
theorem scanned_newRecords :
    ∀ r ∈ newRecords titleSpace sampleCoding dataSpace numberOfSamples count xscale yscale,
      ∃ a, r.Scanned a := by
  intro r hm
  simp only [newRecords, List.mem_cons, List.not_mem_nil, or_false] at hm
  refine ⟨0, ?_⟩
  rcases hm with rfl | rfl | rfl | rfl | rfl | rfl | rfl | rfl | rfl
  · exact Record.scanned_known (w := 1) rfl (by decide) rfl (by decide)
  · exact Record.scanned_known (w := 1) rfl (by decide) rfl (by decide)
  · exact Record.scanned_known (w := 2) rfl (by decide) rfl (by decide)
  · exact Record.scanned_known (w := 4) rfl (by decide) rfl (by decide)
  · exact Record.scanned_known (w := 4) rfl (by decide) rfl (by decide)
  all_goals
    exact Record.scanned_other rfl (by decide) (by decide) (List.cons_ne_nil _ _)
      (by rw [length_leBytes]; decide)

/-- Each field gets what its record can hold, whatever the object had. -/
theorem foldl_newRecords :
    (newRecords titleSpace sampleCoding dataSpace numberOfSamples count xscale yscale).foldl
        applyRecord self =
      { self with
        numberOfTraces := some (count % 256 ^ 4)
        numberOfSamplesPerTrace := some (numberOfSamples % 256 ^ 4)
        sampleCoding := some (sampleCoding % 256 ^ 1)
        sampleCodingByteSize := some (codingByteSize (sampleCoding % 256 ^ 1))
        titleSpace := titleSpace % 256 ^ 1
        dataSpace := dataSpace % 256 ^ 2 } := by
  simp only [← leValue_leBytes_mod]
  rfl

/-- A scan whose bound lies behind the start of the trace block record reads the whole header, and
goes on behind the recorded traces. -/
theorem open_newRecords (rest : List UInt8) (hs : self.traceBlockSpace < rest.length + 2) :
    self.open ((newRecords titleSpace sampleCoding dataSpace numberOfSamples count xscale
        yscale).flatMap Record.encode ++ (traceBlockRecord.encode ++ rest)) =
      openLoop (42 + rest.length)
        (((newRecords titleSpace sampleCoding dataSpace numberOfSamples count xscale yscale).foldl
          applyRecord self).located (numberOfSamples % 256 ^ 4)
            (codingByteSize (sampleCoding % 256 ^ 1)) (count % 256 ^ 4) 42)
        ⟨(newRecords titleSpace sampleCoding dataSpace numberOfSamples count xscale
            yscale).flatMap Record.encode ++ (traceBlockRecord.encode ++ rest),
          42 + count % 256 ^ 4 * (numberOfSamples % 256 ^ 4 *
            codingByteSize (sampleCoding % 256 ^ 1) + dataSpace % 256 ^ 2 +
              titleSpace % 256 ^ 1)⟩ 42 := by
  let rs := newRecords titleSpace sampleCoding dataSpace numberOfSamples count xscale yscale
  let f : ByteFile := ⟨rs.flatMap Record.encode ++ (traceBlockRecord.encode ++ rest), 0⟩
  have hr : f.rest = rs.flatMap Record.encode ++ (traceBlockRecord.encode ++ rest) := rfl
  have hl : (rs.flatMap Record.encode).length = 40 := rfl
  have hsize : f.size = 42 + rest.length := by
    change (rs.flatMap Record.encode ++ (traceBlockRecord.encode ++ rest)).length = _
    rw [List.length_append, hl, List.length_append]
    change 40 + (2 + rest.length) = _
    omega
  have hlen : self.traceBlockSpace ≤ (traceBlockRecord.encode ++ rest).length := by
    rw [List.length_append]
    change _ ≤ 2 + rest.length
    omega
  have h1 := openLoop_records self rs (scanned_newRecords _ _ _ _ _ _ _) hr hlen
  have hf := foldl_newRecords self titleSpace sampleCoding dataSpace numberOfSamples count xscale
    yscale
  have hpos : f.pos + (rs.flatMap Record.encode).length <
      f.size - (rs.foldl applyRecord self).traceBlockSpace := by
    rw [traceBlockSpace_foldl, hl, hsize]
    change 0 + 40 < _
    omega
  have h2 := openLoop_traceBlock (rs.foldl applyRecord self)
    (congrArg numberOfSamplesPerTrace hf) (congrArg sampleCodingByteSize hf)
    (congrArg numberOfTraces hf) (ByteFile.rest_advance hr) hpos
  have hd := congrArg TraceSet.dataSpace hf
  have ht := congrArg TraceSet.titleSpace hf
  have ho : self.open f.bytes = openLoop f.size self f f.pos := rfl
  refine Eq.trans ho ?_
  rw [h1, hl]
  rw [hl] at h2
  simp only [ByteFile.size_seek, ByteFile.pos_seek, ByteFile.seek_seek] at h2
  refine Eq.trans h2 ?_
  rw [hsize, hd, ht]
  rfl

end Header

/-- The header scan of a fresh object reaches the trace block with every field set. -/
theorem open_header (p : Shape) {count : Nat} (hc : count < 2 ^ 32) (rest : List UInt8) :
    TraceSet.open {} (p.header count ++ rest) =
      openLoop (42 + rest.length) (opened p count)
        ⟨p.header count ++ rest, 42 + count * p.traceSpace⟩ 42 := by
  have hb : p.header count ++ rest =
      (newRecords p.titleSpace p.dtype.coding p.dataSpace p.numberOfSamples count p.xscale
        p.yscale).flatMap Record.encode ++ (traceBlockRecord.encode ++ rest) := by
    rw [Shape.header, Shape.head, Shape.tail, List.append_assoc, List.append_assoc]
    rfl
  have h1 : p.titleSpace % 256 ^ 1 = p.titleSpace := Nat.mod_eq_of_lt p.titleSpace_lt
  have h2 : p.dtype.coding % 256 ^ 1 = p.dtype.coding :=
    Nat.mod_eq_of_lt (by cases p.dtype <;> decide)
  have h3 : p.dataSpace % 256 ^ 2 = p.dataSpace := Nat.mod_eq_of_lt p.dataSpace_lt
  have h4 : p.numberOfSamples % 256 ^ 4 = p.numberOfSamples :=
    Nat.mod_eq_of_lt p.numberOfSamples_lt
  have h5 : count % 256 ^ 4 = count := Nat.mod_eq_of_lt hc
  have h := open_newRecords {} p.titleSpace p.dtype.coding p.dataSpace p.numberOfSamples count
    p.xscale p.yscale rest (Nat.succ_pos _)
  rw [foldl_newRecords, h1, h2, h3, h4, h5] at h
  rw [hb, h]
  rfl

/-! ### Reading traces -/

/-- The record of trace `i` follows the position that `getTrace` seeks. -/
theorem rest_record (np : Numpy) {p : Shape} {ts : List Trace} (h : ∀ t ∈ ts, t.Fits p)
    (count pos : Nat) (extra : List UInt8) {i : Nat} (hi : i < ts.length) :
    ((ByteFile.mk (p.header count ++ (ts.flatMap (recordBytes np p) ++ extra)) pos).seek
        (42 + i * p.traceSpace)).rest =
      recordBytes np p ts[i] ++ ((ts.drop (i + 1)).flatMap (recordBytes np p) ++ extra) := by
  have hl : ∀ t ∈ ts, (recordBytes np p t).length = p.traceSpace :=
    fun t ht ↦ length_recordBytes np (h t ht)
  have hb : i * p.traceSpace ≤ (ts.flatMap (recordBytes np p)).length := by
    rw [length_flatMap_of_length ts hl]
    exact Nat.mul_le_mul_right _ (Nat.le_of_lt hi)
  change (p.header count ++ (ts.flatMap (recordBytes np p) ++ extra)).drop
    (42 + i * p.traceSpace) = _
  rw [← List.drop_drop, List.drop_left' (Shape.length_header p count),
    List.drop_append_of_le_length hb, drop_flatMap ts hl i (Nat.le_of_lt hi),
    List.drop_eq_getElem_cons hi, List.flatMap_cons, List.append_assoc]

/-- Where the record of a trace of the set's sizes follows the seek position, `getTrace` returns
the trace. -/
theorem getTrace_of_fields {np : Numpy} {self : TraceSet} {f : ByteFile} {offset space i : Nat}
    {d : Dtype} {t : Trace} {ys : List UInt8} (hf : self.handle = some f)
    (ho : self.traceBlockOffset = some offset) (hs : self.traceSpace = some space)
    (hc : self.sampleCoding.bind Dtype.ofCoding = some d)
    (hn : self.numberOfSamplesPerTrace = some t.samples.length)
    (ht : t.title.length = self.titleSpace) (hd : t.data.length = self.dataSpace)
    (hb : ∀ b ∈ t.data, b < 256) (hrep : t.samples.Representable d)
    (h : (f.seek (offset + i * space)).rest =
      t.title ++ t.data.map UInt8.ofNat ++ t.samples.tofile np d ++ ys) :
    self.getTrace i = .ok (some t) := by
  -- title, data and samples are consecutive reads
  rw [List.append_assoc, List.append_assoc] at h
  have h1 := ByteFile.read_of_rest h
  have hr1 := ByteFile.rest_advance h
  have h2 := ByteFile.read_of_rest hr1
  have h3 := Samples.fromfile_of_rest hrep (ByteFile.rest_advance hr1)
  rw [ht] at h1 h2 h3
  rw [List.length_map, hd] at h2 h3
  have hdata : (t.data.map UInt8.ofNat).map UInt8.toNat = t.data := by
    rw [List.map_map]
    refine (List.map_congr_left fun b hm ↦ ?_).trans (List.map_id _)
    exact UInt8.toNat_ofNat_of_lt' (hb b hm)
  unfold getTrace
  rw [hf, ho, hs, hc, hn]
  simp only [required, ok_bind, h1, h2, h3, hdata]
  rfl

/-- Where a fitting trace's record follows the seek position, `getTrace` returns the trace. -/
theorem getTrace_of_rest {np : Numpy} {p : Shape} {t : Trace} (ht : t.Fits p) (n i : Nat)
    {f : ByteFile} {ys : List UInt8}
    (h : (f.seek (42 + i * p.traceSpace)).rest = recordBytes np p t ++ ys) :
    ((opened p n).withHandle f).getTrace i = .ok (some t) := by
  have hn : ((opened p n).withHandle f).numberOfSamplesPerTrace = some t.samples.length := by
    rw [ht.samples]
    rfl
  exact getTrace_of_fields rfl rfl rfl (Dtype.ofCoding_coding p.dtype) hn ht.title ht.data ht.bytes
    ht.representable h

/-- In an opened set every fitting trace is read back at its index, whatever follows. -/
theorem getTrace_opened (np : Numpy) {p : Shape} {ts : List Trace} (h : ∀ t ∈ ts, t.Fits p)
    (n count pos : Nat) (extra : List UInt8) {i : Nat} (hi : i < ts.length) :
    ((opened p n).withHandle
        ⟨p.header count ++ (ts.flatMap (recordBytes np p) ++ extra), pos⟩).getTrace i =
      .ok (some ts[i]) :=
  getTrace_of_rest (h ts[i] (List.getElem_mem hi)) n i (rest_record np h count pos extra hi)

/-- A file that a fresh object opens with the given traces, all readable. -/
def Readable (ts : List Trace) (file : List UInt8) : Prop :=
  ∃ r, TraceSet.open {} file = .ok r ∧ r.numberOfTraces = some ts.length ∧
    ∀ i (hi : i < ts.length), r.getTrace i = .ok (some ts[i])

/-- The complete file of fitting traces is opened with the fields of its shape. -/
theorem open_written (np : Numpy) {p : Shape} {ts : List Trace} (hn : ts.length < 2 ^ 32)
    (h : ∀ t ∈ ts, t.Fits p) :
    TraceSet.open {} (p.header ts.length ++ ts.flatMap (recordBytes np p)) =
      .ok ((opened p ts.length).withHandle
        ⟨p.header ts.length ++ ts.flatMap (recordBytes np p),
          42 + ts.length * p.traceSpace⟩) := by
  have hl : (ts.flatMap (recordBytes np p)).length = ts.length * p.traceSpace :=
    length_flatMap_of_length ts fun t ht ↦ length_recordBytes np (h t ht)
  rw [open_header p hn]
  apply openLoop_done
  change 42 + (ts.flatMap (recordBytes np p)).length - ts.length * p.traceSpace ≤ 42
  rw [hl]
  omega

/-- The traces of that object. -/
theorem getTrace_written (np : Numpy) {p : Shape} {ts : List Trace} (h : ∀ t ∈ ts, t.Fits p)
    (pos : Nat) {i : Nat} (hi : i < ts.length) :
    ((opened p ts.length).withHandle
        ⟨p.header ts.length ++ ts.flatMap (recordBytes np p), pos⟩).getTrace i =
      .ok (some ts[i]) := by
  have hg := getTrace_opened np h ts.length ts.length pos [] hi
  rwa [List.append_nil] at hg

/-- What is written is read back. -/
theorem readable_written (np : Numpy) {p : Shape} {ts : List Trace} (hn : ts.length < 2 ^ 32)
    (h : ∀ t ∈ ts, t.Fits p) :
    Readable ts (p.header ts.length ++ ts.flatMap (recordBytes np p)) := by
  refine ⟨_, open_written np hn h, rfl, ?_⟩
  intro i hi
  exact getTrace_written np h _ hi

/-- Writing a set with `new` and `addTrace` and opening the file on a fresh object returns
the sizes, the coding, the number of traces and, at each index, the trace written there. -/
theorem open_addTraces_new (np : Numpy) (p : Shape) (ts : List Trace) (hn : ts.length < 2 ^ 32)
    (h : ∀ t ∈ ts, t.Fits p) :
    ∃ w r, addTraces np (newShape p) ts = .ok w ∧ TraceSet.open {} w.file = .ok r ∧
      r.numberOfTraces = some ts.length ∧ r.titleSpace = p.titleSpace ∧
      r.dataSpace = p.dataSpace ∧ r.sampleCoding = some p.dtype.coding ∧
      r.numberOfSamplesPerTrace = some p.numberOfSamples ∧
      ∀ i (hi : i < ts.length), r.getTrace i = .ok (some ts[i]) := by
  obtain ⟨w, hw, hf⟩ := file_addTraces np p ts h
  refine ⟨w, _, hw, (congrArg _ hf).trans (open_written np hn h), rfl, rfl, rfl, rfl, rfl, ?_⟩
  intro i hi
  exact getTrace_written np h _ hi

/-- A title of one byte, two data bytes and two 16-bit samples. -/
def sampleShape : Shape where
  titleSpace := 1
  dataSpace := 2
  numberOfSamples := 2
  dtype := .int16
  xscale := 0
  yscale := 0
  titleSpace_lt := by decide
  dataSpace_lt := by decide
  numberOfSamples_lt := by decide

/-- Two traces of that shape. -/
def sampleTraces : List Trace :=
  [⟨[0x5F], [0, 255], .ints [-2, 513]⟩, ⟨[0x41], [4, 0], .ints [0, -32768]⟩]

-- integers stay integers here, so the float conversions of numpy are not reached

/-- Float conversions for sets of integers, where none matters. -/
def intNumpy : Numpy := ⟨fun v ↦ if v = 0 then 0 else 0x3F800000, fun _ ↦ 0⟩

/-- The traces have the shape. -/
theorem sampleTraces_fit : ∀ t ∈ sampleTraces, t.Fits sampleShape := by
  intro t ht
  simp only [sampleTraces, List.mem_cons, List.not_mem_nil, or_false] at ht
  rcases ht with rfl | rfl
  all_goals
    exact ⟨rfl, rfl, by decide, rfl, by decide, by decide⟩

/-- Two traces whose bytes imitate header tags survive the round trip. -/
theorem open_addTraces_new_sample :
    ∃ w r, addTraces intNumpy (newShape sampleShape) sampleTraces = .ok w ∧
      TraceSet.open {} w.file = .ok r ∧ r.numberOfTraces = some 2 ∧
      r.getTrace 1 = .ok (some ⟨[0x41], [4, 0], .ints [0, -32768]⟩) := by
  obtain ⟨w, r, hw, ho, hc, -, -, -, -, hg⟩ :=
    open_addTraces_new intNumpy sampleShape sampleTraces (by decide) sampleTraces_fit
  exact ⟨w, r, hw, ho, hc, hg 1 (by decide)⟩

end TraceSet
end HorrorScope.Trs
