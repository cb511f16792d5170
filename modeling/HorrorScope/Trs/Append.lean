import HorrorScope.Trs.RoundTrip

/-!
# What `addTrace` checks and what it leaves

`src/acq/Trace.py:326–362` on a set made by `new` with any sizes. The title is compared with
its size and written, then the data is compared with its size and written, then all the
samples are written and the count is updated. The size of the samples is never compared, and
a trace with wrong data has its title in the file already.
-/

namespace HorrorScope.Trs

open HorrorScope.Base

/-- The arguments of `new`, any numbers. -/
structure NewArgs where
  titleSpace : Nat
  sampleCoding : Nat
  dataSpace : Nat
  numberOfSamples : Nat
  xscale : UInt32
  yscale : UInt32
  deriving DecidableEq, Repr

namespace NewArgs

variable (a : NewArgs)

/-- A fresh object after `new`. -/
def new : TraceSet :=
  ({} : TraceSet).new a.titleSpace a.sampleCoding a.dataSpace a.numberOfSamples a.xscale a.yscale

/-- The bytes of a trace, as readers step over them. -/
def traceSpace : Nat :=
  a.numberOfSamples * codingByteSize a.sampleCoding + a.dataSpace + a.titleSpace

/-- The records in front of the count. -/
def headRecords : List Record :=
  [Record.short Tag.titleSpace (leBytes 1 a.titleSpace),
   Record.short Tag.sampleCoding (leBytes 1 a.sampleCoding),
   Record.short Tag.dataSpace (leBytes 2 a.dataSpace),
   Record.short Tag.numerOfSamplesPerTrace (leBytes 4 a.numberOfSamples)]

/-- The bytes between the count and the traces. -/
def tail : List UInt8 :=
  [Record.short Tag.xlabel (leBytes 1 115), Record.short Tag.ylabel (leBytes 1 86),
   Record.short Tag.xscale (leBytes 4 a.xscale.toNat),
   Record.short Tag.yscale (leBytes 4 a.yscale.toNat)].flatMap Record.encode ++ [Tag.traceBlock, 0]

/-- The fields of the object that stay as `new` sets them. -/
def fields : TraceSet where
  traceBlockOffset := some 42
  numberOfSamplesPerTrace := some a.numberOfSamples
  sampleCoding := some a.sampleCoding
  sampleCodingByteSize := some (codingByteSize a.sampleCoding)
  titleSpace := a.titleSpace
  dataSpace := a.dataSpace
  sampleSpace := some (a.numberOfSamples * codingByteSize a.sampleCoding)
  traceSpace := some a.traceSpace

/-- The object with a count and some bytes behind the header. -/
def holding (count : Nat) (block : List UInt8) : TraceSet :=
  a.fields.holding a.headRecords count (a.tail ++ block)

private theorem new_eq_holding : a.new = a.holding 0 [] := by
  have hh := TraceSet.handle_new a.titleSpace a.sampleCoding a.dataSpace a.numberOfSamples
    a.xscale a.yscale
  have ho : a.new.traceBlockOffset = a.new.handle.map ByteFile.pos := rfl
  have hz : a.new = { a.fields with
      numberOfTraces := some 0, handle := a.new.handle
      traceBlockOffset := a.new.traceBlockOffset } := by
    simp only [new, TraceSet.new, fields, Nat.zero_mul]
    rfl
  change a.new.handle = _ at hh
  rw [hz, ho, hh, holding, List.append_nil]
  rfl

/-! ### One call -/

/-- The sizes that `addTrace` compares are right. -/
def Accepts (t : Trace) : Prop := t.title.length = a.titleSpace ∧ t.data.length = a.dataSpace

/-- Whether a trace is accepted can be computed. -/
instance (t : Trace) : Decidable (a.Accepts t) := inferInstanceAs (Decidable (_ ∧ _))

/-- How a call ends. -/
def outcome (t : Trace) : TraceSet.Added :=
  if t.title.length ≠ a.titleSpace then .wrongTitleSize
  else if t.data.length ≠ a.dataSpace then .wrongDataSize
  else .appended

variable (np : Numpy)

/-- The bytes a call leaves behind those in the file. -/
def leaves (t : Trace) : List UInt8 :=
  match a.outcome t with
  | .appended => t.title ++ t.data.map UInt8.ofNat ++
      TraceSet.sampleBytes np (some a.sampleCoding) t.samples
  | .wrongDataSize => t.title
  | _ => []

variable {a} in
private theorem outcome_of_accepts {t : Trace} (h : a.Accepts t) : a.outcome t = .appended := by
  rw [outcome, if_neg (not_not_intro h.1), if_neg (not_not_intro h.2)]

variable {a} in
private theorem accepts_of_outcome {t : Trace} (h : a.outcome t = .appended) : a.Accepts t := by
  unfold outcome at h
  split_ifs at h with ht hd
  exact ⟨not_not.mp ht, not_not.mp hd⟩

/-- Every call ends normally, and leaves a set of the same form. -/
theorem addTrace_holding (count : Nat) (block : List UInt8) (t : Trace) :
    (a.holding count block).addTrace np t =
      .ok (a.outcome t, a.holding (if a.Accepts t then count + 1 else count)
        (block ++ a.leaves np t)) := by
  unfold leaves
  by_cases ht : t.title.length = a.titleSpace
  · by_cases hd : t.data.length = a.dataSpace
    · have h := TraceSet.addTrace_appended np a.fields a.headRecords count (a.tail ++ block) rfl
        (TraceSet.uncounted_new _ _ _ _) ht hd
      rw [List.append_assoc] at h
      rw [outcome_of_accepts ⟨ht, hd⟩, if_pos ⟨ht, hd⟩]
      exact h
    · have h := TraceSet.addTrace_wrongData np a.fields a.headRecords count (a.tail ++ block) ht hd
      have ho : a.outcome t = .wrongDataSize := by
        rw [outcome, if_neg (not_not_intro ht), if_pos hd]
      rw [List.append_assoc] at h
      rw [ho, if_neg fun h ↦ hd h.2]
      exact h
  · have h := TraceSet.addTrace_wrongTitle np a.fields a.headRecords count (a.tail ++ block) ht
    have ho : a.outcome t = .wrongTitleSize := by
      rw [outcome, if_pos ht]
    rw [ho, if_neg fun h ↦ ht h.1, List.append_nil]
    exact h

/-! ### Sequences of calls -/

/-- Any calls, with the set as some of them left it. -/
theorem addTraces_holding (count : Nat) (block : List UInt8) (ts : List Trace) :
    TraceSet.addTraces np (a.holding count block) ts =
      .ok (a.holding (count + ts.countP a.Accepts) (block ++ ts.flatMap (a.leaves np))) := by
  induction ts generalizing count block with
  | nil => simp [TraceSet.addTraces]
  | cons t ts ih =>
    rw [TraceSet.addTraces, addTrace_holding, ok_bind]
    dsimp only
    rw [ih, List.flatMap_cons, List.append_assoc]
    by_cases h : a.Accepts t
    · rw [if_pos h, List.countP_cons_of_pos (p := fun t ↦ decide (a.Accepts t)) (decide_eq_true h),
        Nat.add_assoc, Nat.add_comm 1]
    · rw [if_neg h, List.countP_cons_of_neg (p := fun t ↦ decide (a.Accepts t)) (by simpa using h)]

/-- Any calls after `new`. -/
theorem addTraces_new (ts : List Trace) :
    TraceSet.addTraces np a.new ts =
      .ok (a.holding (ts.countP a.Accepts) (ts.flatMap (a.leaves np))) := by
  rw [new_eq_holding, addTraces_holding, Nat.zero_add, List.nil_append]

/-- The file, with what was left behind the header. -/
theorem file_holding (count : Nat) (block : List UInt8) :
    (a.holding count block).file =
      a.headRecords.flatMap Record.encode ++
        ((Shape.countRecord count).encode ++ (a.tail ++ block)) := rfl

end NewArgs

/-- The count in a file's header, bytes 18 to 21. -/
def headerCount (file : List UInt8) : Nat := leValue ((file.drop 18).take 4)

namespace NewArgs

variable (a : NewArgs) (count : Nat) (block : List UInt8)

private theorem drop_file_holding : (a.holding count block).file.drop 42 = block := by
  rw [file_holding, ← List.append_assoc, ← List.append_assoc]
  exact List.drop_left' rfl

/-- The header has 42 bytes. -/
theorem length_file_holding : (a.holding count block).file.length = 42 + block.length := by
  rw [file_holding, ← List.append_assoc, ← List.append_assoc, List.length_append]
  rfl

/-- The count in the header wraps at `2 ^ 32`. -/
theorem headerCount_holding : headerCount (a.holding count block).file = count % 2 ^ 32 := by
  change leValue (leBytes 4 count) = _
  rw [leValue_leBytes_mod]
  rfl

end NewArgs

/-! ### One record for each accepted trace -/

/-- Calls that all append. -/
def AllAppended (np : Numpy) : TraceSet → List Trace → TraceSet → Prop
  | self, [], self' => self = self'
  | self, t :: ts, self' =>
    ∃ next, self.addTrace np t = .ok (.appended, next) ∧ AllAppended np next ts self'

/-- Each call that is not rejected appends as many bytes as a trace has and counts it, and after
calls that are all accepted the file has the counted number of traces. -/
structure OneRecordEach (np : Numpy) (a : NewArgs) (ts : List Trace) : Prop where
  bytes : ∀ before t after self self', ts = before ++ t :: after →
    TraceSet.addTraces np a.new before = .ok self → self.addTrace np t = .ok (.appended, self') →
    ∃ record, self'.file.drop 42 = self.file.drop 42 ++ record ∧ record.length = a.traceSpace
  count : ∀ before t after self self', ts = before ++ t :: after →
    TraceSet.addTraces np a.new before = .ok self → self.addTrace np t = .ok (.appended, self') →
    headerCount self'.file = headerCount self.file + 1
  total : ∀ self, AllAppended np a.new ts self →
    self.file.length = 42 + headerCount self.file * a.traceSpace

namespace NewArgs

variable {np : Numpy} {a : NewArgs}

private theorem appended_holding {count : Nat} {block : List UInt8} {t : Trace} {self' : TraceSet}
    (h : (a.holding count block).addTrace np t = .ok (.appended, self')) :
    a.Accepts t ∧ self' = a.holding (count + 1) (block ++ a.leaves np t) := by
  rw [addTrace_holding] at h
  obtain ⟨ho, hs⟩ := Prod.mk.inj (Except.ok.inj h)
  have ht := accepts_of_outcome ho
  rw [if_pos ht] at hs
  exact ⟨ht, hs.symm⟩

private theorem allAppended_holding {count : Nat} {block : List UInt8} {ts : List Trace}
    {self : TraceSet} (h : AllAppended np (a.holding count block) ts self) :
    (∀ t ∈ ts, a.Accepts t) ∧
      self = a.holding (count + ts.length) (block ++ ts.flatMap (a.leaves np)) := by
  induction ts generalizing count block with
  | nil =>
    refine ⟨by simp, ?_⟩
    rw [List.flatMap_nil, List.append_nil]
    exact h.symm
  | cons t ts ih =>
    obtain ⟨next, hnext, hall⟩ := h
    obtain ⟨ht, rfl⟩ := appended_holding hnext
    obtain ⟨hts, hself⟩ := ih hall
    constructor
    · exact List.forall_mem_cons.mpr ⟨ht, hts⟩
    · rw [hself, List.flatMap_cons, List.append_assoc, List.length_cons]
      congr 1
      omega

/-- The set after calls that all append. -/
theorem allAppended_new {ts : List Trace} {self : TraceSet} (h : AllAppended np a.new ts self) :
    (∀ t ∈ ts, a.Accepts t) ∧ self = a.holding ts.length (ts.flatMap (a.leaves np)) := by
  rw [new_eq_holding] at h
  have hall := allAppended_holding h
  rwa [Nat.zero_add, List.nil_append] at hall

private theorem sampleBytes_coding (np : Numpy) {d : Dtype} (hd : a.sampleCoding = d.coding)
    (samples : Samples) :
    TraceSet.sampleBytes np (some a.sampleCoding) samples = samples.tofile np d := by
  change ((Dtype.ofCoding a.sampleCoding).map (samples.tofile np)).getD [] = _
  rw [hd, TraceSet.Dtype.ofCoding_coding]
  rfl

private theorem length_leaves (np : Numpy) {d : Dtype} (hd : a.sampleCoding = d.coding) {t : Trace}
    (ht : a.Accepts t) :
    (a.leaves np t).length = t.samples.length * d.width + a.dataSpace + a.titleSpace := by
  rw [leaves, outcome_of_accepts ht]
  dsimp only
  rw [sampleBytes_coding np hd, List.length_append, List.length_append, List.length_map,
    Samples.length_tofile, ht.1, ht.2]
  omega

/-- It has the bytes of a trace of the set when it has the samples of one. -/
theorem length_leaves_eq_iff (np : Numpy) {d : Dtype} (hd : a.sampleCoding = d.coding)
    {t : Trace} (ht : a.Accepts t) :
    (a.leaves np t).length = a.traceSpace ↔ t.samples.length = a.numberOfSamples := by
  have hw : 0 < d.width := by cases d <;> decide
  rw [length_leaves np hd ht, traceSpace, hd, Dtype.codingByteSize_coding, Nat.add_right_cancel_iff,
    Nat.add_right_cancel_iff]
  exact Nat.mul_left_inj (Nat.ne_of_gt hw)

private theorem exists_nth_accepted {n : Nat} {ts : List Trace} (h : n < ts.countP a.Accepts) :
    ∃ before t after, ts = before ++ t :: after ∧ a.Accepts t ∧ before.countP a.Accepts = n := by
  induction ts generalizing n with
  | nil => simp at h
  | cons t ts ih =>
    by_cases ht : a.Accepts t
    · rw [List.countP_cons_of_pos (p := fun t ↦ decide (a.Accepts t)) (decide_eq_true ht)] at h
      cases n with
      | zero => exact ⟨[], t, ts, rfl, ht, rfl⟩
      | succ n =>
        obtain ⟨before, u, after, rfl, hu, hn⟩ := ih (Nat.lt_of_succ_lt_succ h)
        refine ⟨t :: before, u, after, rfl, hu, ?_⟩
        rw [List.countP_cons_of_pos (p := fun t ↦ decide (a.Accepts t)) (decide_eq_true ht), hn]
    · rw [List.countP_cons_of_neg (p := fun t ↦ decide (a.Accepts t)) (by simpa using ht)] at h
      obtain ⟨before, u, after, rfl, hu, hn⟩ := ih h
      refine ⟨t :: before, u, after, rfl, hu, ?_⟩
      rw [List.countP_cons_of_neg (p := fun t ↦ decide (a.Accepts t)) (by simpa using ht), hn]

private theorem appended_of_new {before : List Trace} {t : Trace} {self self' : TraceSet}
    (hself : TraceSet.addTraces np a.new before = .ok self)
    (hself' : self.addTrace np t = .ok (.appended, self')) :
    a.Accepts t ∧
      self = a.holding (before.countP a.Accepts) (before.flatMap (a.leaves np)) ∧
      self' = a.holding (before.countP a.Accepts + 1)
        (before.flatMap (a.leaves np) ++ a.leaves np t) := by
  rw [addTraces_new] at hself
  obtain rfl := Except.ok.inj hself
  obtain ⟨ht, rfl⟩ := appended_holding hself'
  exact ⟨ht, rfl, rfl⟩

private theorem addTrace_accepted (np : Numpy) {t : Trace} (ht : a.Accepts t) (count : Nat)
    (block : List UInt8) :
    (a.holding count block).addTrace np t =
      .ok (.appended, a.holding (count + 1) (block ++ a.leaves np t)) := by
  rw [addTrace_holding, outcome_of_accepts ht, if_pos ht]

end NewArgs

section Run

variable (np : Numpy) (a : NewArgs) (d : Dtype) (hd : a.sampleCoding = d.coding) (ts : List Trace)

private theorem countP_lt_of_oneRecordEach (h : OneRecordEach np a ts) :
    ts.countP a.Accepts < 2 ^ 32 := by
  -- the count of the header goes with the calls until it wraps
  by_contra hge
  have hlast : 2 ^ 32 - 1 < ts.countP a.Accepts := by omega
  obtain ⟨before, t, after, hts, ht, hn⟩ := NewArgs.exists_nth_accepted hlast
  have hcount := h.count before t after _ _ hts (NewArgs.addTraces_new a np before)
    (NewArgs.addTrace_accepted np ht _ _)
  rw [NewArgs.headerCount_holding, NewArgs.headerCount_holding, hn] at hcount
  norm_num at hcount

include hd

private theorem length_of_oneRecordEach (h : OneRecordEach np a ts) {t : Trace} (hmem : t ∈ ts)
    (ht : a.Accepts t) : t.samples.length = a.numberOfSamples := by
  obtain ⟨before, after, hts⟩ := List.append_of_mem hmem
  obtain ⟨record, hrecord, hlen⟩ := h.bytes before t after _ _ hts
    (NewArgs.addTraces_new a np before) (NewArgs.addTrace_accepted np ht _ _)
  rw [NewArgs.drop_file_holding, NewArgs.drop_file_holding] at hrecord
  rw [← List.append_cancel_left hrecord] at hlen
  exact (NewArgs.length_leaves_eq_iff np hd ht).mp hlen

/-- For a set made by `new` with any sizes and a valid coding, and any calls, each accepted trace
is one record exactly when each has the samples of the set and fewer than 2^32 are accepted. -/
theorem oneRecordEach_iff :
    OneRecordEach np a ts ↔
      (∀ t ∈ ts, a.Accepts t → t.samples.length = a.numberOfSamples) ∧
        ts.countP a.Accepts < 2 ^ 32 := by
  constructor
  · intro h
    exact ⟨fun t hmem ht ↦ length_of_oneRecordEach np a d hd ts h hmem ht,
      countP_lt_of_oneRecordEach np a ts h⟩
  · rintro ⟨hsamples, hlt⟩
    refine ⟨?_, ?_, ?_⟩
    · intro before t after self self' hts hself hself'
      obtain ⟨ht, rfl, rfl⟩ := NewArgs.appended_of_new hself hself'
      refine ⟨a.leaves np t, ?_, ?_⟩
      · rw [NewArgs.drop_file_holding, NewArgs.drop_file_holding]
      · have hmem : t ∈ ts := by simp [hts]
        exact (NewArgs.length_leaves_eq_iff np hd ht).mpr (hsamples t hmem ht)
    · intro before t after self self' hts hself hself'
      obtain ⟨ht, rfl, rfl⟩ := NewArgs.appended_of_new hself hself'
      have hle : before.countP a.Accepts + 1 ≤ ts.countP a.Accepts := by
        rw [hts, List.countP_append,
          List.countP_cons_of_pos (p := fun t ↦ decide (a.Accepts t)) (decide_eq_true ht)]
        omega
      rw [NewArgs.headerCount_holding, NewArgs.headerCount_holding]
      omega
    · intro self hall
      obtain ⟨hts, rfl⟩ := NewArgs.allAppended_new hall
      have hcount : ts.countP a.Accepts = ts.length := by
        rw [List.countP_eq_length]
        simpa using hts
      have hlen : (ts.flatMap (a.leaves np)).length = ts.length * a.traceSpace := by
        apply length_flatMap_of_length
        intro t ht
        exact (NewArgs.length_leaves_eq_iff np hd (hts t ht)).mpr (hsamples t ht (hts t ht))
      rw [NewArgs.length_file_holding, NewArgs.headerCount_holding, hlen,
        Nat.mod_eq_of_lt (by omega)]

end Run

/-- A title of one byte, two data bytes and two 16-bit samples. -/
def smallArgs : NewArgs := ⟨1, 2, 2, 2, 0, 0⟩

/-- A trace with a title of another size is rejected in front of the two sample traces. -/
theorem oneRecordEach_iff_small :
    OneRecordEach TraceSet.intNumpy smallArgs
      (⟨[], [], .ints []⟩ :: TraceSet.sampleTraces) :=
  (oneRecordEach_iff TraceSet.intNumpy smallArgs .int16 rfl _).mpr (by decide)

/-- A trace with one sample instead of two is accepted. -/
theorem not_oneRecordEach_oneSample :
    (smallArgs.new.addTrace TraceSet.intNumpy ⟨[0x5F], [0, 255], .ints [513]⟩).map Prod.fst =
      .ok .appended ∧
    ¬ OneRecordEach TraceSet.intNumpy smallArgs [⟨[0x5F], [0, 255], .ints [513]⟩] := by
  constructor
  · rw [NewArgs.new_eq_holding, NewArgs.addTrace_holding]
    rfl
  · intro h
    have hlen := length_of_oneRecordEach _ _ .int16 rfl _ h List.mem_cons_self ⟨rfl, rfl⟩
    exact absurd hlen (by decide)

/-! ### Rejected traces -/

section Rejected

variable {np : Numpy} {a : NewArgs}

private theorem rejected_holding {count : Nat} {block : List UInt8} {r : Trace}
    {out : TraceSet.Added} {self' : TraceSet}
    (hr : (a.holding count block).addTrace np r = .ok (out, self'))
    (hout : out = .wrongTitleSize ∨ out = .wrongDataSize) :
    (r.title.length ≠ a.titleSpace ∧ self' = a.holding count block) ∨
      (r.title.length = a.titleSpace ∧ self' = a.holding count (block ++ r.title)) := by
  rw [NewArgs.addTrace_holding] at hr
  obtain ⟨ho, hs⟩ := Prod.mk.inj (Except.ok.inj hr)
  have hrej : ¬ a.Accepts r := by
    intro h
    rw [NewArgs.outcome_of_accepts h] at ho
    rcases hout with rfl | rfl <;> cases ho
  unfold NewArgs.leaves at hs
  rw [if_neg hrej, ho] at hs
  unfold NewArgs.outcome at ho
  rcases hout with rfl | rfl
  · rw [List.append_nil] at hs
    split_ifs at ho with ht
    exact .inl ⟨ht, hs.symm⟩
  · split_ifs at ho with ht
    exact .inr ⟨not_not.mp ht, hs.symm⟩

private theorem getTrace_holding {d : Dtype} (hd : a.sampleCoding = d.coding) {ts : List Trace}
    (hts : ∀ u ∈ ts, a.Accepts u ∧ u.samples.length = a.numberOfSamples) {t : Trace}
    (ht : a.Accepts t) (hbytes : ∀ b ∈ t.data, b < 256)
    (hsamples : t.samples.length = a.numberOfSamples) (hrep : t.samples.Representable d)
    (count : Nat) :
    (a.holding count (ts.flatMap (a.leaves np) ++ a.leaves np t)).getTrace ts.length =
      .ok (some t) := by
  have hc : a.fields.sampleCoding.bind Dtype.ofCoding = some d := by
    change Dtype.ofCoding a.sampleCoding = some d
    rw [hd]
    exact TraceSet.Dtype.ofCoding_coding d
  have hn : a.fields.numberOfSamplesPerTrace = some t.samples.length := by
    rw [hsamples]
    rfl
  have hlen : (ts.flatMap (a.leaves np)).length = ts.length * a.traceSpace := by
    apply length_flatMap_of_length
    intro u hu
    exact (NewArgs.length_leaves_eq_iff np hd (hts u hu).1).mpr (hts u hu).2
  have hrec : a.leaves np t = t.title ++ t.data.map UInt8.ofNat ++ t.samples.tofile np d ++ [] := by
    rw [NewArgs.leaves, NewArgs.outcome_of_accepts ht, List.append_nil]
    dsimp only
    rw [NewArgs.sampleBytes_coding np hd]
  have hrest : (a.holding count (ts.flatMap (a.leaves np) ++ a.leaves np t)).file.drop
      (42 + ts.length * a.traceSpace) =
        t.title ++ t.data.map UInt8.ofNat ++ t.samples.tofile np d ++ [] := by
    rw [← List.drop_drop, NewArgs.drop_file_holding, ← hlen, List.drop_left, hrec]
  exact TraceSet.getTrace_of_fields rfl rfl rfl hc hn ht.1 ht.2 hbytes hrep hrest

end Rejected

section Untouched

variable (np : Numpy) (a : NewArgs) (ts : List Trace) (self : TraceSet)
  (hall : AllAppended np a.new ts self) (r : Trace) (out : TraceSet.Added) (self' : TraceSet)
  (hr : self.addTrace np r = .ok (out, self'))
  (hout : out = .wrongTitleSize ∨ out = .wrongDataSize)

include hall hr hout

/-- After any accepted traces, a rejected one leaves file and count as they were exactly when its
title has another size than those of the set, or those are empty. Then the next trace is read back
at its index, if those in front have the samples of the set. -/
theorem rejected_untouched_iff :
    ((self'.file = self.file ∧ self'.numberOfTraces = self.numberOfTraces) ↔
      r.title.length ≠ a.titleSpace ∨ a.titleSpace = 0) ∧
    (self'.file = self.file ∧ self'.numberOfTraces = self.numberOfTraces →
      ∀ d : Dtype, a.sampleCoding = d.coding →
      (∀ u ∈ ts, u.samples.length = a.numberOfSamples) →
      ∀ t : Trace, a.Accepts t → (∀ b ∈ t.data, b < 256) →
      t.samples.length = a.numberOfSamples → t.samples.Representable d →
      ∃ self'', self'.addTrace np t = .ok (.appended, self'') ∧
        self''.getTrace ts.length = .ok (some t)) := by
  obtain ⟨hts, rfl⟩ := NewArgs.allAppended_new hall
  constructor
  · rcases rejected_holding hr hout with ⟨hr', rfl⟩ | ⟨hr', rfl⟩
    · simp [hr']
    · constructor
      · rintro ⟨hfile, -⟩
        have hlen := congrArg List.length hfile
        rw [NewArgs.length_file_holding, NewArgs.length_file_holding, List.length_append] at hlen
        right
        omega
      · intro h
        have hnil : r.title = [] := by
          apply List.eq_nil_of_length_eq_zero
          rcases h with h | h
          · exact absurd hr' h
          · omega
        rw [hnil, List.append_nil]
        exact ⟨rfl, rfl⟩
  · rintro ⟨hfile, -⟩ d hd hsamples t ht hbytes hlen hrep
    have hself : self' = a.holding ts.length (ts.flatMap (a.leaves np)) := by
      rcases rejected_holding hr hout with ⟨-, h⟩ | ⟨-, h⟩
      · exact h
      · rw [h] at hfile ⊢
        have hdrop := congrArg (List.drop 42) hfile
        rw [NewArgs.drop_file_holding, NewArgs.drop_file_holding] at hdrop
        rw [hdrop]
    refine ⟨a.holding (ts.length + 1) (ts.flatMap (a.leaves np) ++ a.leaves np t), ?_, ?_⟩
    · rw [hself, NewArgs.addTrace_accepted np ht]
    · exact getTrace_holding hd (fun u hu ↦ ⟨hts u hu, hsamples u hu⟩) ht hbytes hlen hrep _

end Untouched

/-- The set after the first sample trace. -/
def firstAdded : TraceSet :=
  smallArgs.holding 1 (smallArgs.leaves TraceSet.intNumpy ⟨[0x5F], [0, 255], .ints [-2, 513]⟩)

private theorem allAppended_firstAdded :
    AllAppended TraceSet.intNumpy smallArgs.new [⟨[0x5F], [0, 255], .ints [-2, 513]⟩]
      firstAdded := by
  rw [NewArgs.new_eq_holding]
  exact ⟨_, NewArgs.addTrace_holding .., rfl⟩

/-- Behind a trace with no title the next one is read back. -/
theorem rejected_untouched_iff_wrongTitle :
    ∃ self'', firstAdded.addTrace TraceSet.intNumpy ⟨[0x41], [4, 0], .ints [0, -32768]⟩ =
        .ok (.appended, self'') ∧
      self''.getTrace 1 = .ok (some ⟨[0x41], [4, 0], .ints [0, -32768]⟩) := by
  have h := rejected_untouched_iff TraceSet.intNumpy smallArgs _ firstAdded
    allAppended_firstAdded ⟨[], [4, 0], .ints [1, 2]⟩ .wrongTitleSize firstAdded
    (NewArgs.addTrace_holding ..) (.inl rfl)
  exact h.2 ⟨rfl, rfl⟩ .int16 rfl (by decide) _ (by decide) (by decide) rfl
    ⟨by decide, by decide⟩

/-- A trace with no data leaves its title behind the first one, and the next trace, which is
accepted, is not read back at its index. -/
theorem not_untouched_wrongData :
    ∃ self' self'', AllAppended TraceSet.intNumpy smallArgs.new
        [⟨[0x5F], [0, 255], .ints [-2, 513]⟩] firstAdded ∧
      firstAdded.addTrace TraceSet.intNumpy ⟨[0x42], [], .ints [1, 2]⟩ =
        .ok (.wrongDataSize, self') ∧
      self'.file ≠ firstAdded.file ∧
      self'.addTrace TraceSet.intNumpy ⟨[0x41], [4, 0], .ints [0, -32768]⟩ =
        .ok (.appended, self'') ∧
      self''.getTrace 1 ≠ .ok (some ⟨[0x41], [4, 0], .ints [0, -32768]⟩) := by
  refine ⟨_, _, allAppended_firstAdded, NewArgs.addTrace_holding .., ?_,
    NewArgs.addTrace_holding .., ?_⟩
  · decide
  · decide

end HorrorScope.Trs
