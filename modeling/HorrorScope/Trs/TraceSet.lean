import HorrorScope.Base.ByteFile
import HorrorScope.Base.LittleEndian

/-!
# The trace set object of the acquisition scripts

`src/acq/Trace.py`: a header of tag, length, value records is written by `new`, kept
up to date in place by `addTrace` and parsed by `open`; `getTrace` addresses the flat
trace block behind it. Integers are written in the native little-endian order. Reads
follow Python 2, under which `TraceView.py` runs: `ord` of each byte of a `str`.
-/

namespace HorrorScope.Trs

open HorrorScope.Base

/-- The exceptions raised while a trace file is read. -/
inductive PyError
  /-- `ord` of an empty read, or arithmetic on a field that is still `None`. -/
  | typeError
  /-- `struct.unpack` of fewer bytes than its format. -/
  | structError
  /-- A read length that does not fit the platform's signed size. -/
  | overflowError
  deriving DecidableEq, Repr

/-- A computation that succeeded passes its value on. -/
@[simp] theorem ok_bind {α β : Type} (a : α) (k : α → Except PyError β) :
    (Except.ok a >>= k) = k a := rfl

/-- An exception ends a computation. -/
@[simp] theorem error_bind {α β : Type} (e : PyError) (k : α → Except PyError β) :
    ((Except.error e : Except PyError α) >>= k) = .error e := rfl

/-! ### Header tags and sample codings, `Trace.py:44–60` -/

namespace Tag

/-- The tag of the number of traces. -/
def numberOfTraces : UInt8 := 0x41

/-- The tag of the number of samples. -/
def numerOfSamplesPerTrace : UInt8 := 0x42

/-- The tag of the sample coding. -/
def sampleCoding : UInt8 := 0x43

/-- The tag of the data size. -/
def dataSpace : UInt8 := 0x44

/-- The tag of the title size. -/
def titleSpace : UInt8 := 0x45

/-- The tag of the label of the x-axis. -/
def xlabel : UInt8 := 0x49

/-- The tag of the label of the y-axis. -/
def ylabel : UInt8 := 0x4A

/-- The tag of the scale of the x-axis. -/
def xscale : UInt8 := 0x4B

/-- The tag of the scale of the y-axis. -/
def yscale : UInt8 := 0x4C

/-- The tag that ends the header. -/
def traceBlock : UInt8 := 0x5F

end Tag

/-- The element types that the four sample codings select. -/
inductive Dtype
  | int8
  | int16
  | int32
  | float32
  deriving DecidableEq, Repr

namespace Dtype

/-- The header value of a coding: `CodingByte`, `CodingShort`, `CodingInt`, `CodingFloat`. -/
def coding : Dtype → Nat
  | int8 => 0x01
  | int16 => 0x02
  | int32 => 0x04
  | float32 => 0x14

/-- Bytes of one array element. -/
def width : Dtype → Nat
  | int8 => 1
  | int16 => 2
  | int32 => 4
  | float32 => 4

/-- The `if`/`elif` chain on `_sampleCoding` shared by `getTrace` and `addTrace`. -/
def ofCoding (coding : Nat) : Option Dtype :=
  if coding = 0x01 then some int8
  else if coding = 0x02 then some int16
  else if coding = 0x04 then some int32
  else if coding = 0x14 then some float32
  else none

end Dtype

/-- `_sampleCodingByteSize`: the coding itself, with float compensated to four bytes. -/
def codingByteSize (coding : Nat) : Nat := if coding = 0x14 then 4 else coding

/-! ### Sample arrays -/

/-- The contents of a numpy array: integers, or float32 words taken as opaque. -/
inductive Samples
  | ints (vs : List Int)
  | floats (ws : List UInt32)
  deriving DecidableEq, Repr

/-- The two conversions of numpy between integers and float32 words. -/
structure Numpy where
  toFloat : Int → UInt32
  toInt : UInt32 → Int

namespace Samples

/-- Number of elements. -/
def length : Samples → Nat
  | ints vs => vs.length
  | floats ws => ws.length

/-- The little-endian words of `astype(dtype)`; integers wrap to the element width. -/
def words (np : Numpy) (d : Dtype) : Samples → List Nat
  | ints vs =>
    if d = .float32 then vs.map fun v ↦ (np.toFloat v).toNat
    else vs.map fun v ↦ (v % 256 ^ d.width).toNat
  | floats ws =>
    if d = .float32 then ws.map UInt32.toNat
    else ws.map fun w ↦ (np.toInt w % 256 ^ d.width).toNat

/-- `samples.astype(dtype).tofile(handle)`: the raw elements. -/
def tofile (np : Numpy) (d : Dtype) (s : Samples) : List UInt8 := leWords d.width (s.words np d)

/-- Decode raw elements: two's complement integers or float32 words. -/
def ofChunks (d : Dtype) (cs : List (List UInt8)) : Samples :=
  if d = .float32 then floats (cs.map fun c ↦ UInt32.ofNat (leValue c))
  else ints (cs.map fun c ↦ (leValue c : Int).bmod (256 ^ d.width))

/-- `np.fromfile(f, dtype, count)`: the elements left in the file, at most `count`. -/
def fromfile (f : ByteFile) (d : Dtype) (count : Nat) : Samples :=
  ofChunks d (chunks d.width count (f.peek (count * d.width)))

end Samples

/-- `Trace.py:36`: a title, the data byte values and the samples. -/
structure Trace where
  title : List UInt8
  data : List Nat
  samples : Samples
  deriving DecidableEq, Repr

/-! ### The object and its low-level reads and writes -/

/-- `Trace.py:62`: the fields of a trace set; `none` is Python's `None`. -/
structure TraceSet where
  handle : Option ByteFile := none
  traceBlockOffset : Option Nat := none
  numberOfTraces : Option Nat := none
  numberOfSamplesPerTrace : Option Nat := none
  sampleCoding : Option Nat := none
  sampleCodingByteSize : Option Nat := none
  titleSpace : Nat := 0
  dataSpace : Nat := 0
  xlabel : Nat := 115
  ylabel : Nat := 86
  sampleSpace : Option Nat := none
  traceSpace : Option Nat := none
  traceBlockSpace : Nat := 0
  deriving DecidableEq, Repr

/-- A field that must not be `None` when it is used in arithmetic. -/
def required : Option Nat → Except PyError Nat
  | some n => .ok n
  | none => .error .typeError

/-- `ord(f.read(1))`. -/
def readOrd (f : ByteFile) : Except PyError (UInt8 × ByteFile) :=
  match f.read 1 with
  | (b :: _, f) => .ok (b, f)
  | ([], _) => .error .typeError

/-- `struct.unpack(fmt, f.read(w))[0]` for an unsigned format of `w` bytes. -/
def readUINT (w : Nat) (f : ByteFile) : Except PyError (Nat × ByteFile) :=
  if (f.peek w).length = w then .ok (leValue (f.peek w), (f.read w).2) else .error .structError

/-- `Trace.py:189`: add the length bytes `i` to `addLen` to the length so far. -/
def readLengthBytes : (remaining i length : Nat) → ByteFile → Except PyError (Nat × ByteFile)
  | 0, _, length, f => .ok (length, f)
  | remaining + 1, i, length, f => do
    let (b, f) ← readOrd f
    readLengthBytes remaining (i + 1) (length + b.toNat <<< (i * 8)) f

/-- `Trace.py:183–190`: the length, the number of additional length bytes, the file. -/
def readLength (f : ByteFile) : Except PyError (Nat × Nat × ByteFile) := do
  let (b, f) ← readOrd f
  if b &&& 0x80 ≠ 0 then
    let addLen := (b &&& 0x7F).toNat
    let (length, f) ← readLengthBytes addLen 0 0 f
    return (length, addLen, f)
  else
    return (b.toNat, 0, f)

/-- `f.read(length)` of a value that is skipped. -/
def skip (f : ByteFile) (length : Nat) : Except PyError ByteFile :=
  if length < 2 ^ 63 then .ok (f.read length).2 else .error .overflowError

namespace TraceSet

/-- The object with another open handle. -/
def withHandle (self : TraceSet) (f : ByteFile) : TraceSet := { self with handle := some f }

/-- Apply a file operation to the open handle. -/
def onHandle (self : TraceSet) (op : ByteFile → ByteFile) : TraceSet :=
  { self with handle := self.handle.map op }

/-- `_writeUINT8`, `_writeUINT16` and `_writeUINT32`: the value masked to `w` bytes. -/
def writeUINT (self : TraceSet) (w val : Nat) : TraceSet := self.onHandle (·.write (leBytes w val))

/-- `_writeUINT8`. -/
def writeUINT8 (self : TraceSet) (val : Nat) : TraceSet := self.writeUINT 1 val

/-- Tag, length and value of a header record whose value is one word of `w` bytes. -/
def writeRecord (self : TraceSet) (tag : UInt8) (w val : Nat) : TraceSet :=
  ((self.writeUINT8 tag.toNat).writeUINT8 w).writeUINT w val

/-- `_writeTitleSpace`. -/
def writeTitleSpace (self : TraceSet) (val : Nat) : TraceSet :=
  { self.writeRecord Tag.titleSpace 1 val with titleSpace := val }

/-- `_writeNumberOfTraces`. -/
def writeNumberOfTraces (self : TraceSet) (val : Nat) : TraceSet :=
  { self.writeRecord Tag.numberOfTraces 4 val with numberOfTraces := some val }

/-- `_writeDataSpace`. -/
def writeDataSpace (self : TraceSet) (val : Nat) : TraceSet :=
  { self.writeRecord Tag.dataSpace 2 val with dataSpace := val }

/-- `_writeNumerOfSamplesPerTrace`. -/
def writeNumerOfSamplesPerTrace (self : TraceSet) (val : Nat) : TraceSet :=
  { self.writeRecord Tag.numerOfSamplesPerTrace 4 val with numberOfSamplesPerTrace := some val }

/-- `_writeSampleCoding`. -/
def writeSampleCoding (self : TraceSet) (val : Nat) : TraceSet :=
  { self.writeRecord Tag.sampleCoding 1 val with sampleCoding := some val }

/-- `_writeLabelsXY`. -/
def writeLabelsXY (self : TraceSet) : TraceSet :=
  (self.writeRecord Tag.xlabel 1 self.xlabel).writeRecord Tag.ylabel 1 self.ylabel

/-- `_writeFLOAT` stores the four bytes of a float32 word. -/
def writeScalesXY (self : TraceSet) (xscale yscale : UInt32) : TraceSet :=
  (self.writeRecord Tag.xscale 4 xscale.toNat).writeRecord Tag.yscale 4 yscale.toNat

/-- `_writeTraceBlock`. -/
def writeTraceBlock (self : TraceSet) : TraceSet :=
  (self.writeUINT8 Tag.traceBlock.toNat).writeUINT8 0

/-! ### Writing, `Trace.py:226–278` and `326–362` -/

/-- The scan of `findtag`: skip records until `searchTag`, then return to its start. -/
def findtagLoop (searchTag : UInt8) (fileSize traceBlockSpace : Nat) (f : ByteFile)
    (offset : Nat) : Except PyError ByteFile :=
  if _h : offset < fileSize - traceBlockSpace then do
    let (tag, f) ← readOrd f
    let (length, addLen, f) ← readLength f
    if tag = searchTag then
      return f.seek offset
    else
      let f ← skip f length
      findtagLoop searchTag fileSize traceBlockSpace f (offset + 2 + addLen + length)
  else .ok f
termination_by fileSize - offset

/-- `Trace.py:226`; the returned flag is unused by every caller and left out. -/
def findtag (self : TraceSet) (searchTag : UInt8) : Except PyError TraceSet :=
  match self.handle with
  | none => .ok self
  | some f => do
    let f ← findtagLoop searchTag f.size self.traceBlockSpace (f.seek 0) 0
    return self.withHandle f

/-- `Trace.py:127`: rewrite the count record in place. -/
def updateNumberOfTraces (self : TraceSet) (val : Nat) : Except PyError TraceSet := do
  let self ← self.findtag Tag.numberOfTraces
  return self.writeNumberOfTraces val

/-- `Trace.py:259–278`: the header of a fresh, empty file. The choice of the file's name
precedes this and does not touch the object's other fields. -/
def new (self : TraceSet) (titleSpace sampleCoding dataSpace numberOfSamples : Nat)
    (xscale yscale : UInt32) : TraceSet :=
  let self := { self with handle := some ByteFile.empty }
  let self := self.writeTitleSpace titleSpace
  let self := self.writeSampleCoding sampleCoding
  let self := { self with sampleCodingByteSize := some (codingByteSize sampleCoding) }
  let self := self.writeDataSpace dataSpace
  let self := self.writeNumerOfSamplesPerTrace numberOfSamples
  let self := self.writeNumberOfTraces 0
  let sampleSpace := numberOfSamples * codingByteSize sampleCoding
  let traceSpace := sampleSpace + dataSpace + titleSpace
  let self := { self with
    sampleSpace := some sampleSpace, traceSpace := some traceSpace
    traceBlockSpace := 0 * traceSpace }
  let self := self.writeLabelsXY
  let self := self.writeScalesXY xscale yscale
  let self := self.writeTraceBlock
  { self with traceBlockOffset := self.handle.map ByteFile.pos }

/-- How a call of `addTrace` ends when it raises nothing. -/
inductive Added
  | noHandle
  | wrongTitleSize
  | wrongDataSize
  | appended
  deriving DecidableEq, Repr

/-- `for i in trace._data: self._writeUINT8(i)`. -/
def writeData (self : TraceSet) (data : List Nat) : TraceSet := data.foldl writeUINT8 self

/-- The sample write of `addTrace`; a coding outside the four writes nothing. -/
def writeSamples (np : Numpy) (self : TraceSet) (samples : Samples) : TraceSet :=
  match self.sampleCoding.bind Dtype.ofCoding with
  | some d => self.onHandle (·.write (samples.tofile np d))
  | none => self

/-- `Trace.py:326`: append one record at the end of the file and update the count. The
title is written before the data size is checked, as in the source. -/
def addTrace (np : Numpy) (self : TraceSet) (trace : Trace) : Except PyError (Added × TraceSet) :=
  match self.handle with
  | none => .ok (.noHandle, self)
  | some _ => do
    let self := self.onHandle ByteFile.seekEnd
    if trace.title.length ≠ self.titleSpace then
      return (.wrongTitleSize, self)
    let self := self.onHandle (·.write trace.title)
    if trace.data.length ≠ self.dataSpace then
      return (.wrongDataSize, self)
    let self := self.writeData trace.data
    let self := self.writeSamples np trace.samples
    let numberOfTraces ← required self.numberOfTraces
    let self := { self with numberOfTraces := some (numberOfTraces + 1) }
    let self ← self.updateNumberOfTraces (numberOfTraces + 1)
    return (.appended, self.onHandle ByteFile.seekEnd)

/-! ### Reading, `Trace.py:172–224` and `281–324` -/

/-- One iteration of `open` after tag and length are read; the flag says to go on. -/
def openRecord (self : TraceSet) (f : ByteFile) (tag : UInt8) (length : Nat) :
    Except PyError (Bool × TraceSet × ByteFile) :=
  if tag = Tag.traceBlock then do
    let numberOfSamples ← required self.numberOfSamplesPerTrace
    let byteSize ← required self.sampleCodingByteSize
    let sampleSpace := numberOfSamples * byteSize
    let traceSpace := sampleSpace + self.dataSpace + self.titleSpace
    let numberOfTraces ← required self.numberOfTraces
    let traceBlockSpace := numberOfTraces * traceSpace
    return (true,
      { self with
        sampleSpace := some sampleSpace, traceSpace := some traceSpace
        traceBlockSpace := traceBlockSpace, traceBlockOffset := some f.pos },
      f.seek (f.pos + traceBlockSpace))
  else if tag = Tag.titleSpace then do
    let (val, f) ← readUINT 1 f
    return (true, { self with titleSpace := val }, f)
  else if tag = Tag.numberOfTraces then do
    let (val, f) ← readUINT 4 f
    return (true, { self with numberOfTraces := some val }, f)
  else if tag = Tag.dataSpace then do
    let (val, f) ← readUINT 2 f
    return (true, { self with dataSpace := val }, f)
  else if tag = Tag.numerOfSamplesPerTrace then do
    let (val, f) ← readUINT 4 f
    return (true, { self with numberOfSamplesPerTrace := some val }, f)
  else if tag = Tag.sampleCoding then do
    let (val, f) ← readUINT 1 f
    return (true,
      { self with sampleCoding := some val, sampleCodingByteSize := some (codingByteSize val) }, f)
  else if tag = 0 ∨ length = 0 then
    return (false, self, f)
  else do
    let f ← skip f length
    return (true, self, f)

/-- The header loop of `open`. The bound uses the object's current `_traceBlockSpace`. -/
def openLoop (fileSize : Nat) (self : TraceSet) (f : ByteFile) (offset : Nat) :
    Except PyError TraceSet :=
  if _h : offset < fileSize - self.traceBlockSpace then do
    let (tag, f) ← readOrd f
    let (length, addLen, f) ← readLength f
    let (continues, self, f) ← self.openRecord f tag length
    if continues then
      openLoop fileSize self f (offset + 2 + addLen + length)
    else
      return self.withHandle f
  else .ok (self.withHandle f)
termination_by fileSize - offset

/-- `Trace.py:172`: parse the header of a file into this object. -/
def «open» (self : TraceSet) (file : List UInt8) : Except PyError TraceSet :=
  self.openLoop file.length ⟨file, 0⟩ 0

/-- `Trace.py:281`, as run by Python 2; `none` is its `None` for a closed set. -/
def getTrace (self : TraceSet) (traceIndex : Nat) : Except PyError (Option Trace) :=
  match self.handle with
  | none => .ok none
  | some f => do
    let traceBlockOffset ← required self.traceBlockOffset
    let traceSpace ← required self.traceSpace
    let f := f.seek (traceBlockOffset + traceIndex * traceSpace)
    let (title, f) := f.read self.titleSpace
    let (data, f) := f.read self.dataSpace
    -- `raise "Incorrect coding"` is itself a `TypeError`: strings cannot be raised.
    match self.sampleCoding.bind Dtype.ofCoding with
    | none => .error .typeError
    | some d => do
      let count ← required self.numberOfSamplesPerTrace
      return some ⟨title, data.map UInt8.toNat, Samples.fromfile f d count⟩

/-- `Trace.py:84`: what a loop over the set yields. -/
def iter (self : TraceSet) : Except PyError (List (Option Trace)) := do
  let numberOfTraces ← required self.numberOfTraces
  (List.range numberOfTraces).mapM self.getTrace

end TraceSet
end HorrorScope.Trs
