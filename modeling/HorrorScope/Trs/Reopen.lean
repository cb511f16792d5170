import HorrorScope.Trs.Append

/-!
# Opening another file with the same object

`src/acq/Trace.py:172–224`. `open` sets no field back, and the bound of its loop is taken from
the object: the bytes of the file less `_traceBlockSpace`. In a fresh object that is zero; in
one that has opened a file before it is the size of that file's traces. The scan of the next
header then ends early when those traces are larger than the new ones.
-/

namespace HorrorScope.Trs

open HorrorScope.Base

namespace TraceSet

/-! ### What the scan does not use -/

/-- The object with other axis labels. -/
def withLabels (self : TraceSet) (xlabel ylabel : Nat) : TraceSet :=
  { self with xlabel := xlabel, ylabel := ylabel }

/-- The object with other labels and another handle. -/
def dressed (self : TraceSet) (handle : Option ByteFile) (xlabel ylabel : Nat) : TraceSet :=
  { self with handle := handle, xlabel := xlabel, ylabel := ylabel }

section Dressed

variable (self : TraceSet) (handle : Option ByteFile) (xlabel ylabel : Nat)

/-- An iteration carries handle and labels along. -/
theorem openRecord_dressed (f : ByteFile) (tag : UInt8) (length : Nat) :
    (self.dressed handle xlabel ylabel).openRecord f tag length =
      (self.openRecord f tag length).map fun o ↦
        (o.1, o.2.1.dressed handle xlabel ylabel, o.2.2) := by
  unfold openRecord
  by_cases h1 : tag = Tag.traceBlock
  · -- this record needs three fields that may be `None`
    rw [if_pos h1, if_pos h1]
    obtain ⟨_, _, numberOfTraces, numberOfSamples, _, byteSize, _, _, _, _, _, _, _⟩ := self
    cases numberOfSamples with
    | none => rfl
    | some _ =>
      cases byteSize with
      | none => rfl
      | some _ => cases numberOfTraces <;> rfl
  rw [if_neg h1, if_neg h1]
  by_cases h2 : tag = Tag.titleSpace
  · rw [if_pos h2, if_pos h2]
    cases readUINT 1 f <;> rfl
  rw [if_neg h2, if_neg h2]
  by_cases h3 : tag = Tag.numberOfTraces
  · rw [if_pos h3, if_pos h3]
    cases readUINT 4 f <;> rfl
  rw [if_neg h3, if_neg h3]
  by_cases h4 : tag = Tag.dataSpace
  · rw [if_pos h4, if_pos h4]
    cases readUINT 2 f <;> rfl
  rw [if_neg h4, if_neg h4]
  by_cases h5 : tag = Tag.numerOfSamplesPerTrace
  · rw [if_pos h5, if_pos h5]
    cases readUINT 4 f <;> rfl
  rw [if_neg h5, if_neg h5]
  by_cases h6 : tag = Tag.sampleCoding
  · rw [if_pos h6, if_pos h6]
    cases readUINT 1 f <;> rfl
  rw [if_neg h6, if_neg h6]
  by_cases h7 : tag = 0 ∨ length = 0
  · rw [if_pos h7, if_pos h7]
    rfl
  · rw [if_neg h7, if_neg h7]
    cases skip f length <;> rfl

/-- So does the loop, which sets the handle in the end. -/
theorem openLoop_dressed (fileSize : Nat) (f : ByteFile) (offset : Nat) :
    openLoop fileSize (self.dressed handle xlabel ylabel) f offset =
      (openLoop fileSize self f offset).map (·.withLabels xlabel ylabel) := by
  induction hm : fileSize - offset using Nat.strong_induction_on generalizing self f offset with
  | _ m ih =>
    unfold openLoop
    by_cases hlt : offset < fileSize - self.traceBlockSpace
    · have hlt' : offset < fileSize - (self.dressed handle xlabel ylabel).traceBlockSpace := hlt
      rw [dif_pos hlt', dif_pos hlt]
      cases readOrd f with
      | error e => rfl
      | ok p =>
        obtain ⟨tag, g⟩ := p
        simp only [ok_bind]
        cases readLength g with
        | error e => rfl
        | ok q =>
          obtain ⟨length, addLen, k⟩ := q
          simp only [ok_bind, openRecord_dressed]
          cases self.openRecord k tag length with
          | error e => rfl
          | ok o =>
            obtain ⟨continues, out, l⟩ := o
            cases continues with
            | false => rfl
            | true => exact ih _ (by omega) out l _ rfl
    · have hlt' : ¬ offset < fileSize - (self.dressed handle xlabel ylabel).traceBlockSpace := hlt
      rw [dif_neg hlt', dif_neg hlt]
      rfl

end Dressed

/-- An object with the labels that `__init__` sets. -/
def Labelled (self : TraceSet) : Prop := self.xlabel = 115 ∧ self.ylabel = 86

private theorem labelled_init : ({} : TraceSet).Labelled := ⟨rfl, rfl⟩

private theorem Labelled.dressed_eq {self : TraceSet} (h : self.Labelled)
    (handle : Option ByteFile) :
    self.dressed handle 115 86 = { self with handle := handle } := by
  rw [dressed, ← h.1, ← h.2]

/-- The file that was open before does not matter. -/
theorem Labelled.openLoop_handle {self : TraceSet} (h : self.Labelled) (handle : Option ByteFile)
    (fileSize : Nat) (f : ByteFile) (offset : Nat) :
    openLoop fileSize { self with handle := handle } f offset =
      openLoop fileSize self f offset := by
  have hdressed : ∀ g, openLoop fileSize { self with handle := g } f offset =
      (openLoop fileSize self f offset).map (·.withLabels 115 86) := by
    intro g
    rw [← h.dressed_eq g, openLoop_dressed]
  exact (hdressed handle).trans (hdressed self.handle).symm

/-- Opening a file keeps the labels. -/
theorem Labelled.of_open {self out : TraceSet} (h : self.Labelled) {file : List UInt8}
    (hout : self.open file = .ok out) : out.Labelled := by
  have hself : self = self.dressed self.handle 115 86 := (h.dressed_eq self.handle).symm
  rw [hself, TraceSet.open, openLoop_dressed] at hout
  cases hr : openLoop file.length self ⟨file, 0⟩ 0 with
  | error e =>
    rw [hr] at hout
    cases hout
  | ok r =>
    rw [hr] at hout
    cases hout
    exact ⟨rfl, rfl⟩

/-! ### A scan that ends early -/

/-- The records that start before the bound, the first of them at `offset`. -/
def startingBefore (bound : Nat) : Nat → List Record → List Record
  | _, [] => []
  | offset, r :: rs =>
    if offset < bound then r :: startingBefore bound (offset + r.encode.length) rs else []

/-- Where the bound does not lie behind the records, exactly those that start before it are read. -/
theorem openLoop_stopped (self : TraceSet) {f : ByteFile} (rs : List Record) {ys : List UInt8}
    (hr : ∀ r ∈ rs, ∃ a, r.Scanned a) (h : f.rest = rs.flatMap Record.encode ++ ys)
    (hs : f.size - self.traceBlockSpace ≤ f.pos + (rs.flatMap Record.encode).length) :
    ∃ pos, openLoop f.size self f f.pos =
      .ok (((startingBefore (f.size - self.traceBlockSpace) f.pos rs).foldl applyRecord
        self).withHandle (f.seek pos)) := by
  induction rs generalizing self f with
  | nil => exact ⟨f.pos, openLoop_done hs⟩
  | cons r rs ih =>
    rw [startingBefore]
    by_cases hlt : f.pos < f.size - self.traceBlockSpace
    · obtain ⟨a, ha⟩ := hr r List.mem_cons_self
      have h1 : f.rest = r.encode ++ (rs.flatMap Record.encode ++ ys) := by
        rw [h, List.flatMap_cons, List.append_assoc]
      have hs' : f.size - (self.applyRecord r).traceBlockSpace ≤
          f.pos + r.encode.length + (rs.flatMap Record.encode).length := by
        rw [List.flatMap_cons, List.length_append] at hs
        rw [traceBlockSpace_applyRecord]
        omega
      obtain ⟨pos, hi⟩ := ih (self.applyRecord r) (f := f.seek (f.pos + r.encode.length))
        (fun q hq ↦ hr q (List.mem_cons_of_mem r hq)) (ByteFile.rest_advance h1) hs'
      simp only [ByteFile.size_seek, ByteFile.pos_seek, ByteFile.seek_seek,
        traceBlockSpace_applyRecord] at hi
      refine ⟨pos, ?_⟩
      rw [openLoop_record ha h1 hlt, hi, if_pos hlt, List.foldl_cons]
    · refine ⟨f.pos, ?_⟩
      rw [if_neg hlt]
      exact openLoop_done (Nat.not_lt.mp hlt)

/-! ### The same object again -/

/-- The same fields, and the same trace at every index. -/
structure Alike (one other : TraceSet) : Prop where
  fields : { one with handle := none } = { other with handle := none }
  traces : ∀ i, one.getTrace i = other.getTrace i

/-- Opening one file and then another with the same object gives what a fresh one gets from the
second. -/
def Reopens (first second : List UInt8) : Prop :=
  ∃ self again fresh, TraceSet.open {} first = .ok self ∧ self.open second = .ok again ∧
    TraceSet.open {} second = .ok fresh ∧ again.Alike fresh

end TraceSet

/-! ### Files that `new` and `addTrace` write -/

namespace NewArgs

variable (a : NewArgs)

/-- The sizes as the header has them, each cut to its field. -/
def recorded : NewArgs :=
  { a with
    titleSpace := a.titleSpace % 256 ^ 1
    sampleCoding := a.sampleCoding % 256 ^ 1
    dataSpace := a.dataSpace % 256 ^ 2
    numberOfSamples := a.numberOfSamples % 256 ^ 4 }

/-- The object behind the header of `count` traces, whatever it had before. -/
def readInto (count : Nat) (self : TraceSet) : TraceSet :=
  { self with
    traceBlockOffset := some 42
    numberOfTraces := some (count % 256 ^ 4)
    numberOfSamplesPerTrace := some a.recorded.numberOfSamples
    sampleCoding := some a.recorded.sampleCoding
    sampleCodingByteSize := some (codingByteSize a.recorded.sampleCoding)
    titleSpace := a.recorded.titleSpace
    dataSpace := a.recorded.dataSpace
    sampleSpace := some (a.recorded.numberOfSamples * codingByteSize a.recorded.sampleCoding)
    traceSpace := some a.recorded.traceSpace
    traceBlockSpace := count % 256 ^ 4 * a.recorded.traceSpace }

/-- The records of the header. -/
def records (count : Nat) : List Record :=
  TraceSet.newRecords a.titleSpace a.sampleCoding a.dataSpace a.numberOfSamples count a.xscale
    a.yscale

variable (count : Nat) (block : List UInt8)

private theorem file_holding_eq : (a.holding count block).file =
    (a.records count).flatMap Record.encode ++ (TraceSet.traceBlockRecord.encode ++ block) := by
  rw [file_holding, tail, List.append_assoc]
  rfl

/-- Where the bound allows it, the whole header is read. -/
theorem open_holding {self : TraceSet} (hs : self.traceBlockSpace < block.length + 2) :
    self.open (a.holding count block).file =
      TraceSet.openLoop (42 + block.length) (a.readInto count self)
        ⟨(a.holding count block).file, 42 + count % 256 ^ 4 * a.recorded.traceSpace⟩ 42 := by
  have h := TraceSet.open_newRecords self a.titleSpace a.sampleCoding a.dataSpace
    a.numberOfSamples count a.xscale a.yscale block hs
  rw [TraceSet.foldl_newRecords] at h
  rw [file_holding_eq]
  exact h

/-- Then the result is that of a fresh object, be it an object or an exception. -/
theorem open_holding_eq_fresh {self : TraceSet} (hlabels : self.Labelled)
    (hs : self.traceBlockSpace < block.length + 2) :
    self.open (a.holding count block).file = TraceSet.open {} (a.holding count block).file := by
  have hfresh : (a.readInto count {}).Labelled := ⟨rfl, rfl⟩
  have hself : a.readInto count self =
      { a.readInto count {} with handle := self.handle } := by
    rw [readInto, hlabels.1, hlabels.2]
    rfl
  rw [open_holding a count block hs, open_holding a count block (Nat.succ_pos _), hself]
  exact hfresh.openLoop_handle ..

/-- Otherwise the trace block record is not read. -/
theorem open_holding_stopped {self : TraceSet} (hs : block.length + 2 ≤ self.traceBlockSpace) :
    ∃ pos, self.open (a.holding count block).file =
      .ok (((TraceSet.startingBefore (42 + block.length - self.traceBlockSpace) 0
        (a.records count)).foldl TraceSet.applyRecord self).withHandle
          ⟨(a.holding count block).file, pos⟩) := by
  let f : ByteFile := ⟨(a.holding count block).file, 0⟩
  have hrest : f.rest = (a.records count).flatMap Record.encode ++
      (TraceSet.traceBlockRecord.encode ++ block) := file_holding_eq ..
  have hsize : f.size = 42 + block.length := length_file_holding ..
  have hbound : f.size - self.traceBlockSpace ≤
      f.pos + ((a.records count).flatMap Record.encode).length := by
    change f.size - self.traceBlockSpace ≤ 0 + 40
    omega
  obtain ⟨pos, h⟩ := TraceSet.openLoop_stopped self (a.records count)
    (TraceSet.scanned_newRecords _ _ _ _ _ _ _) hrest hbound
  refine ⟨pos, ?_⟩
  rw [hsize] at h
  rw [TraceSet.open, length_file_holding]
  exact h

/-! ### Files with exactly the recorded traces -/

/-- The bytes of the traces that the header of a file records. -/
def tracesSize (self : TraceSet) : Nat := headerCount self.file * a.recorded.traceSpace

/-- Behind the header are exactly the recorded traces. -/
def Complete (self : TraceSet) : Prop := self.file.length = 42 + a.tracesSize self

private theorem tracesSize_holding :
    a.tracesSize (a.holding count block) = count % 256 ^ 4 * a.recorded.traceSpace := by
  rw [tracesSize, headerCount_holding]
  rfl

variable {a count block}

private theorem Complete.length_block (h : a.Complete (a.holding count block)) :
    block.length = a.tracesSize (a.holding count block) := by
  rw [Complete, length_file_holding] at h
  omega

/-- The object that has read such a file. -/
theorem Complete.open_eq (h : a.Complete (a.holding count block)) (self : TraceSet)
    (hs : self.traceBlockSpace < block.length + 2) :
    self.open (a.holding count block).file =
      .ok ((a.readInto count self).withHandle
        ⟨(a.holding count block).file, 42 + count % 256 ^ 4 * a.recorded.traceSpace⟩) := by
  have hblock := h.length_block
  rw [tracesSize_holding] at hblock
  rw [open_holding a count block hs]
  apply TraceSet.openLoop_done
  change 42 + block.length - count % 256 ^ 4 * a.recorded.traceSpace ≤ 42
  omega

private theorem Complete.open_fresh (h : a.Complete (a.holding count block)) :
    TraceSet.open {} (a.holding count block).file =
      .ok ((a.readInto count {}).withHandle
        ⟨(a.holding count block).file, 42 + count % 256 ^ 4 * a.recorded.traceSpace⟩) :=
  h.open_eq {} (Nat.succ_pos _)

/-- The files of sets whose sizes fit the header, when all traces have the samples of the set. -/
theorem complete_of_allAppended {np : Numpy} {d : Dtype} (hd : a.sampleCoding = d.coding)
    (htitle : a.titleSpace < 256 ^ 1) (hdata : a.dataSpace < 256 ^ 2)
    (hsamples : a.numberOfSamples < 256 ^ 4) {ts : List Trace} (hts : ts.length < 256 ^ 4)
    (hlen : ∀ t ∈ ts, t.samples.length = a.numberOfSamples) {self : TraceSet}
    (h : AllAppended np a.new ts self) : a.Complete self := by
  obtain ⟨haccepts, rfl⟩ := allAppended_new h
  have hcoding : a.sampleCoding < 256 ^ 1 := by
    rw [hd]
    cases d <;> decide
  have hrecorded : a.recorded = a := by
    rw [recorded, Nat.mod_eq_of_lt htitle, Nat.mod_eq_of_lt hdata, Nat.mod_eq_of_lt hsamples,
      Nat.mod_eq_of_lt hcoding]
  have hblock : (ts.flatMap (a.leaves np)).length = ts.length * a.traceSpace := by
    apply length_flatMap_of_length
    intro t ht
    exact (length_leaves_eq_iff np hd (haccepts t ht)).mpr (hlen t ht)
  rw [Complete, length_file_holding, tracesSize_holding, hrecorded, hblock, Nat.mod_eq_of_lt hts]

/-- An object whose last traces were larger by two bytes or more is not what a fresh one is. -/
theorem Complete.not_alike (h : a.Complete (a.holding count block)) {self again fresh : TraceSet}
    (hs : block.length + 2 ≤ self.traceBlockSpace)
    (hagain : self.open (a.holding count block).file = .ok again)
    (hfresh : TraceSet.open {} (a.holding count block).file = .ok fresh) :
    ¬ again.Alike fresh := by
  intro halike
  have hspace := congrArg TraceSet.traceBlockSpace halike.fields
  obtain ⟨pos, hstopped⟩ := open_holding_stopped a count block hs
  have hblock := h.length_block
  rw [tracesSize_holding] at hblock
  rw [hagain] at hstopped
  rw [h.open_fresh] at hfresh
  obtain rfl := Except.ok.inj hstopped
  obtain rfl := Except.ok.inj hfresh
  change (List.foldl _ self _).traceBlockSpace = count % 256 ^ 4 * a.recorded.traceSpace at hspace
  rw [TraceSet.traceBlockSpace_foldl] at hspace
  omega

end NewArgs

section Reopen

variable (np : Numpy) (a b : NewArgs) (ts us : List Trace) (A B : TraceSet)
  (hA : TraceSet.addTraces np a.new ts = .ok A) (hB : TraceSet.addTraces np b.new us = .ok B)

include hA hB

/-- For any two files that `new` and `addTrace` write: the object that has opened the first opens
the second like a fresh one if its bound lies behind the start of the second's trace block record.
For files with exactly the recorded traces this is so exactly when the traces of the first are
larger than those of the second by at most one byte. -/
theorem reopens_iff :
    (∀ self, TraceSet.open {} A.file = .ok self → self.traceBlockSpace + 40 < B.file.length →
      self.open B.file = TraceSet.open {} B.file) ∧
    (a.Complete A → b.Complete B →
      (TraceSet.Reopens A.file B.file ↔ a.tracesSize A ≤ b.tracesSize B + 1)) := by
  rw [NewArgs.addTraces_new] at hA hB
  obtain rfl := Except.ok.inj hA
  obtain rfl := Except.ok.inj hB
  constructor
  · intro self hself hs
    have hlabels : self.Labelled := TraceSet.labelled_init.of_open hself
    rw [NewArgs.length_file_holding] at hs
    exact NewArgs.open_holding_eq_fresh b _ _ hlabels (by omega)
  · intro hca hcb
    have hself := hca.open_fresh
    have hspace := NewArgs.tracesSize_holding a (ts.countP a.Accepts) (ts.flatMap (a.leaves np))
    have hblock := hcb.length_block
    constructor
    · rintro ⟨self, again, fresh, hopen, hagain, hfresh, halike⟩
      rw [hself] at hopen
      obtain rfl := Except.ok.inj hopen
      by_contra hlt
      refine hcb.not_alike ?_ hagain hfresh halike
      change _ ≤ ts.countP a.Accepts % 256 ^ 4 * a.recorded.traceSpace
      omega
    · intro hle
      have hfresh := hcb.open_fresh
      have hlabels := TraceSet.labelled_init.of_open hself
      have hagain := NewArgs.open_holding_eq_fresh b (us.countP b.Accepts)
        (us.flatMap (b.leaves np)) hlabels (by
          change ts.countP a.Accepts % 256 ^ 4 * a.recorded.traceSpace < _
          omega)
      exact ⟨_, _, _, hself, hagain.trans hfresh, hfresh, rfl, fun _ ↦ rfl⟩

end Reopen

/-! ### Many files with one object -/

/-- A file with exactly the recorded traces. -/
structure CompleteFile where
  args : NewArgs
  count : Nat
  block : List UInt8
  complete : args.Complete (args.holding count block)

/-- The bytes of the file. -/
def CompleteFile.bytes (w : CompleteFile) : List UInt8 := (w.args.holding w.count w.block).file

/-- `open` of each file in turn. -/
def TraceSet.openAll : TraceSet → List (List UInt8) → Except PyError TraceSet
  | self, [] => .ok self
  | self, file :: files => do
    let self ← self.open file
    openAll self files

/-- As long as no trace block is more than a byte smaller than the one before it, an object that
opens one file after another ends up as a fresh one that opens the last. -/
theorem openAll_eq_fresh {self : TraceSet} (hlabels : self.Labelled) {w : CompleteFile}
    {ws : List CompleteFile} (hs : self.traceBlockSpace < w.block.length + 2)
    (hchain : (w :: ws).IsChain fun v u ↦ v.block.length < u.block.length + 2) :
    self.openAll ((w :: ws).map CompleteFile.bytes) =
      TraceSet.open {} ((w :: ws).getLast (List.cons_ne_nil w ws)).bytes := by
  induction ws generalizing self w with
  | nil =>
    have hopen : self.open w.bytes = TraceSet.open {} w.bytes :=
      NewArgs.open_holding_eq_fresh _ _ _ hlabels hs
    have hfresh : TraceSet.open {} w.bytes = .ok _ := w.complete.open_fresh
    change (self.open w.bytes >>= Except.ok) = TraceSet.open {} w.bytes
    rw [hopen, hfresh]
    rfl
  | cons u ws ih =>
    obtain ⟨hwu, hchain⟩ := List.isChain_cons_cons.mp hchain
    have hopen : self.open w.bytes = .ok _ := w.complete.open_eq self hs
    have hspace := w.complete.length_block
    rw [NewArgs.tracesSize_holding] at hspace
    rw [List.getLast_cons (List.cons_ne_nil u ws)]
    change (self.open w.bytes >>= fun self ↦ self.openAll ((u :: ws).map CompleteFile.bytes)) = _
    rw [hopen, ok_bind]
    apply ih (hlabels.of_open hopen) _ hchain
    change w.count % 256 ^ 4 * w.args.recorded.traceSpace < _
    omega

/-! ### Two files -/

/-- One 8-bit sample a trace, no title and no data. -/
def byteArgs : NewArgs := ⟨0, 1, 0, 1, 0, 0⟩

/-- Two traces of one sample. -/
def byteTraces : List Trace := [⟨[], [], .ints [7]⟩, ⟨[], [], .ints [8]⟩]

/-- Two traces of one byte each. -/
def byteSet : TraceSet :=
  byteArgs.holding 2 (byteTraces.flatMap (byteArgs.leaves TraceSet.intNumpy))

/-- Two traces of seven bytes each. -/
def smallSet : TraceSet :=
  smallArgs.holding 2 (TraceSet.sampleTraces.flatMap (smallArgs.leaves TraceSet.intNumpy))

private theorem addTraces_byteSet :
    TraceSet.addTraces TraceSet.intNumpy byteArgs.new byteTraces = .ok byteSet :=
  NewArgs.addTraces_new ..

private theorem addTraces_smallSet :
    TraceSet.addTraces TraceSet.intNumpy smallArgs.new TraceSet.sampleTraces = .ok smallSet :=
  NewArgs.addTraces_new ..

private theorem complete_byteSet : byteArgs.Complete byteSet := by
  unfold NewArgs.Complete
  decide

private theorem complete_smallSet : smallArgs.Complete smallSet := by
  unfold NewArgs.Complete
  decide

/-- The file with the smaller traces first, then the other one. -/
theorem reopens_iff_larger : TraceSet.Reopens byteSet.file smallSet.file :=
  ((reopens_iff TraceSet.intNumpy byteArgs smallArgs byteTraces TraceSet.sampleTraces byteSet
    smallSet addTraces_byteSet addTraces_smallSet).2 complete_byteSet complete_smallSet).mpr
      (by decide)

/-- A file with a trace block of two bytes. -/
def byteFile : CompleteFile := ⟨byteArgs, 2, _, complete_byteSet⟩

/-- A file with a trace block of fourteen bytes. -/
def smallFile : CompleteFile := ⟨smallArgs, 2, _, complete_smallSet⟩

/-- A small file and two larger ones. -/
theorem openAll_eq_fresh_growing :
    TraceSet.openAll {} ([byteFile, smallFile, smallFile].map CompleteFile.bytes) =
      TraceSet.open {} smallFile.bytes :=
  openAll_eq_fresh TraceSet.labelled_init (by decide) (by decide)

/-- The object after the file with the larger traces. -/
def smallOpened : TraceSet := (smallArgs.readInto 2 {}).withHandle ⟨smallSet.file, 56⟩

/-- The other way round eight of the ten header records are read. The number of traces is then the
second file's, but the traces are looked for at the distance of the first file's. -/
theorem not_reopens_smaller :
    ∃ again fresh,
      TraceSet.addTraces TraceSet.intNumpy smallArgs.new TraceSet.sampleTraces = .ok smallSet ∧
      TraceSet.addTraces TraceSet.intNumpy byteArgs.new byteTraces = .ok byteSet ∧
      TraceSet.open {} smallSet.file = .ok smallOpened ∧
      smallOpened.open byteSet.file = .ok again ∧
      TraceSet.open {} byteSet.file = .ok fresh ∧
      again.traceSpace = some 7 ∧ fresh.traceSpace = some 1 ∧
      again.getTrace 1 = .ok (some ⟨[], [], .ints []⟩) ∧
      fresh.getTrace 1 = .ok (some ⟨[], [], .ints [8]⟩) ∧
      ¬ TraceSet.Reopens smallSet.file byteSet.file := by
  have hself : TraceSet.open {} smallSet.file = .ok smallOpened := complete_smallSet.open_fresh
  have hfresh := complete_byteSet.open_fresh
  have hspace : (byteTraces.flatMap (byteArgs.leaves TraceSet.intNumpy)).length + 2 ≤
      smallOpened.traceBlockSpace := by decide
  obtain ⟨pos, hagain⟩ := NewArgs.open_holding_stopped byteArgs 2 _ hspace
  refine ⟨_, _, addTraces_smallSet, addTraces_byteSet, hself, hagain, hfresh, rfl, rfl, ?_, ?_, ?_⟩
  · -- the cursor that the scan leaves does not matter
    change TraceSet.getTrace (TraceSet.withHandle _ ⟨_, 0⟩) 1 = _
    decide +kernel
  · decide +kernel
  · rintro ⟨self, again, fresh, hopen, hopen', hfresh', halike⟩
    rw [hself] at hopen
    obtain rfl := Except.ok.inj hopen
    exact complete_byteSet.not_alike hspace hopen' hfresh' halike

end HorrorScope.Trs
