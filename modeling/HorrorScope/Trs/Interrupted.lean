import HorrorScope.Trs.RoundTrip

/-!
# Opening a file whose last append was cut short

`addTrace` (`src/acq/Trace.py:326`) appends the record first and updates the count last,
so an interrupted call leaves a prefix of the record behind the counted traces. The loop
of `open` (`Trace.py:181`) goes on while bytes remain behind the trace block it has just
located and takes them for header records.
-/

namespace HorrorScope.Trs

open HorrorScope.Base

/-! ### Every byte pattern is a record -/

namespace Samples

/-- Cutting the bytes of whole elements gives chunks of the element width. -/
theorem chunks_spec (w count : Nat) (bs : List UInt8) (h : bs.length = count * w) :
    (chunks w count bs).flatten = bs ∧ (∀ c ∈ chunks w count bs, c.length = w) ∧
      (chunks w count bs).length = count := by
  induction count generalizing bs with
  | zero =>
    have hn : bs = [] := List.length_eq_zero_iff.mp (by rw [h, Nat.zero_mul])
    subst hn
    exact ⟨rfl, nofun, rfl⟩
  | succ count ih =>
    have hm : (count + 1) * w = w + count * w := by ring
    have hw : ¬bs.length < w := by omega
    obtain ⟨h1, h2, h3⟩ := ih (bs.drop w) (by rw [List.length_drop]; omega)
    rw [chunks, if_neg hw]
    refine ⟨?_, ?_, ?_⟩
    · rw [List.flatten_cons, h1, List.take_append_drop]
    · intro c hc
      rcases List.mem_cons.mp hc with rfl | hc
      · exact List.length_take_of_le (by omega)
      · exact h2 c hc
    · rw [List.length_cons, h3]

/-- Storing decoded elements writes the bytes they were decoded from. -/
theorem tofile_ofChunks (np : Numpy) (d : Dtype) (cs : List (List UInt8))
    (h : ∀ c ∈ cs, c.length = d.width) : (ofChunks d cs).tofile np d = cs.flatten := by
  have hw : (ofChunks d cs).words np d = cs.map leValue := by
    unfold ofChunks
    split
    · next hd =>
      rw [words, if_pos hd, List.map_map]
      apply List.map_congr_left
      intro c hc
      have hb := leValue_lt c
      rw [h c hc, hd] at hb
      exact UInt32.toNat_ofNat_of_lt' hb
    · next hd =>
      rw [words, if_neg hd, List.map_map]
      apply List.map_congr_left
      intro c hc
      have hb := leValue_lt c
      rw [h c hc] at hb
      have he : (leValue c : Int).bmod (256 ^ d.width) % (256 ^ d.width) = leValue c := by
        have hm := Int.bmod_emod (x := (leValue c : Int)) (m := 256 ^ d.width)
        push_cast at hm
        rw [hm]
        exact Int.emod_eq_of_lt (Int.natCast_nonneg _) (by exact_mod_cast hb)
      change ((leValue c : Int).bmod (256 ^ d.width) % 256 ^ d.width).toNat = leValue c
      rw [he, Int.toNat_natCast]
  rw [tofile, hw, leWords, List.flatMap_map]
  have hf : cs.flatMap (fun c ↦ leBytes d.width (leValue c)) = cs.flatMap id := by
    apply List.flatMap_congr
    intro c hc
    rw [← h c hc, leBytes_leValue, id_eq]
  rw [hf, List.flatMap_id]

private theorem length_ofChunks (d : Dtype) (cs : List (List UInt8)) :
    (ofChunks d cs).length = cs.length := by
  unfold ofChunks
  split <;> exact List.length_map _

/-- Decoded elements are representable in the coding they were decoded with. -/
theorem representable_ofChunks (d : Dtype) (cs : List (List UInt8)) :
    (ofChunks d cs).Representable d := by
  unfold ofChunks
  split
  · next hd => exact hd
  · next hd =>
    refine ⟨hd, ?_⟩
    intro v hv
    obtain ⟨c, -, rfl⟩ := List.mem_map.mp hv
    have hl := Int.le_bmod (x := (leValue c : Int)) (m := 256 ^ d.width) (by positivity)
    have hu := Int.bmod_lt (x := (leValue c : Int)) (m := 256 ^ d.width) (by positivity)
    generalize (leValue c : Int).bmod (256 ^ d.width) = v at hl hu
    cases d <;> simp only [Dtype.width] at hl hu ⊢ <;> norm_num at hl hu ⊢ <;> omega

end Samples

namespace TraceSet

/-- Every byte list of the record length is the record of a fitting trace. -/
theorem exists_recordBytes (np : Numpy) (p : Shape) (bs : List UInt8)
    (h : bs.length = p.traceSpace) : ∃ t : Trace, t.Fits p ∧ recordBytes np p t = bs := by
  rw [Shape.traceSpace, Dtype.codingByteSize_coding] at h
  let title := bs.take p.titleSpace
  let data := (bs.drop p.titleSpace).take p.dataSpace
  let raw := (bs.drop p.titleSpace).drop p.dataSpace
  have hraw : raw.length = p.numberOfSamples * p.dtype.width := by
    simp only [raw, List.length_drop]
    omega
  obtain ⟨hf, hc, hn⟩ := Samples.chunks_spec p.dtype.width p.numberOfSamples raw hraw
  let samples := Samples.ofChunks p.dtype (chunks p.dtype.width p.numberOfSamples raw)
  have hb : (data.map UInt8.toNat).map UInt8.ofNat = data := by
    rw [List.map_map]
    exact (List.map_congr_left fun b _ ↦ UInt8.ofNat_toNat).trans (List.map_id _)
  refine ⟨⟨title, data.map UInt8.toNat, samples⟩, ⟨?_, ?_, ?_, ?_, ?_⟩, ?_⟩
  · exact List.length_take_of_le (by omega)
  · rw [List.length_map]
    exact List.length_take_of_le (by rw [List.length_drop]; omega)
  · intro b hm
    obtain ⟨c, -, rfl⟩ := List.mem_map.mp hm
    exact c.toNat_lt
  · rw [Samples.length_ofChunks, hn]
  · exact Samples.representable_ofChunks _ _
  · rw [recordBytes, hb, Samples.tofile_ofChunks np p.dtype _ hc, hf, List.append_assoc,
      List.take_append_drop, List.take_append_drop]

/-! ### What the scan makes of trailing bytes -/

/-- A lone tag byte ends the scan with an exception. -/
theorem openLoop_lone_byte {fileSize offset : Nat} {self : TraceSet} {f : ByteFile} {b : UInt8}
    (h : f.rest = [b]) (hs : offset < fileSize - self.traceBlockSpace) :
    openLoop fileSize self f offset = .error .typeError := by
  have hr : (f.seek (f.pos + 1)).rest = [] := ByteFile.rest_advance_one h
  rw [openLoop, dif_pos hs, readOrd_of_rest h]
  simp only [ok_bind, readLength, readOrd_of_rest_nil hr, error_bind]

/-- A count record that the file does not hold whole ends the scan with an exception. -/
theorem openLoop_short_count {fileSize offset : Nat} {self : TraceSet} {f : ByteFile}
    {xs : List UInt8} (h : f.rest = Tag.numberOfTraces :: 4 :: xs) (hx : xs.length < 4)
    (hs : offset < fileSize - self.traceBlockSpace) :
    openLoop fileSize self f offset = .error .structError := by
  have hr : (f.seek (f.pos + 1)).rest = [4] ++ xs := ByteFile.rest_advance_one h
  have hl := readLength_of_rest (LengthField.short 4 rfl) hr
  have hv : (f.seek (f.pos + 2)).rest = xs := ByteFile.rest_advance hr
  have hp : ¬((f.seek (f.pos + 2)).peek 4).length = 4 := by
    rw [ByteFile.peek, hv, List.length_take]
    omega
  have hu : readUINT 4 (f.seek (f.pos + 2)) = .error .structError := by
    rw [readUINT, if_neg hp]
  have ho : self.openRecord (f.seek (f.pos + 2)) Tag.numberOfTraces 4 = .error .structError := by
    rw [openRecord, if_neg (by decide), if_neg (by decide), if_pos rfl, hu]
    rfl
  change readLength _ = .ok (4, 0, f.seek (f.pos + 2)) at hl
  rw [openLoop, dif_pos hs, readOrd_of_rest h]
  simp only [ok_bind, hl, ho, error_bind]

/-- Two zero bytes end the scan normally. -/
theorem openLoop_zero_tag {fileSize offset : Nat} {self : TraceSet} {f : ByteFile}
    {xs : List UInt8} (h : f.rest = 0 :: 0 :: xs)
    (hs : offset < fileSize - self.traceBlockSpace) :
    openLoop fileSize self f offset = .ok (self.withHandle (f.seek (f.pos + 2))) := by
  have hr : (f.seek (f.pos + 1)).rest = [0] ++ xs := ByteFile.rest_advance_one h
  have hl := readLength_of_rest (LengthField.short 0 rfl) hr
  change readLength _ = .ok (0, 0, f.seek (f.pos + 2)) at hl
  have ho : self.openRecord (f.seek (f.pos + 2)) 0 0 = .ok (false, self, f.seek (f.pos + 2)) := rfl
  rw [openLoop, dif_pos hs, readOrd_of_rest h]
  simp only [ok_bind, hl, ho]
  rfl

/-- Record bytes that the scan takes for a new trace count: one trace more than recorded. -/
def misleading (count len : Nat) : List UInt8 :=
  (Shape.countRecord (count + 1)).encode ++ List.replicate len 0

/-- Any nonempty prefix of misleading bytes makes the scan raise or change the count. -/
theorem openLoop_misleading {fileSize offset count len k : Nat} {self : TraceSet} {f : ByteFile}
    (hc : count < 2 ^ 32) (hk : 0 < k) (hl : k ≤ len)
    (h : f.rest = (misleading count len).take k)
    (hs : fileSize - self.traceBlockSpace = offset + k) :
    ∀ r, openLoop fileSize self f offset = .ok r → r.numberOfTraces ≠ some count := by
  have hb : offset < fileSize - self.traceBlockSpace := by omega
  intro r hr
  by_cases h6 : k < 6
  · -- the count record itself is cut: its tag, or its tag and length, or part of its value
    exfalso
    obtain ⟨xs, hx⟩ : ∃ xs, misleading count len = Tag.numberOfTraces :: 4 :: xs := ⟨_, rfl⟩
    rw [hx] at h
    rcases k with - | - | k
    · omega
    · rw [openLoop_lone_byte h hb] at hr
      cases hr
    · have hx4 : (xs.take k).length < 4 := by
        rw [List.length_take]
        omega
      rw [openLoop_short_count h hx4 hb] at hr
      cases hr
  · have ht : (misleading count len).take k =
        (Shape.countRecord (count + 1)).encode ++ List.replicate (k - 6) 0 := by
      have he : ((Shape.countRecord (count + 1)).encode).length = 6 := rfl
      rw [misleading, List.take_append, List.take_of_length_le (by omega), he,
        List.take_replicate, Nat.min_eq_left (by omega)]
    have hsc : (Shape.countRecord (count + 1)).Scanned 0 :=
      Record.scanned_known (w := 4) rfl (by decide) rfl (by decide)
    rw [ht] at h
    rw [openLoop_record hsc h hb] at hr
    have hrest := ByteFile.rest_advance h
    rw [Shape.length_countRecord] at hr hrest
    have hne : (self.applyRecord (Shape.countRecord (count + 1))).numberOfTraces ≠
        some count := by
      have ha : (self.applyRecord (Shape.countRecord (count + 1))).numberOfTraces =
          some ((count + 1) % 256 ^ 4) := by
        rw [← leValue_leBytes_mod]
        rfl
      rw [ha]
      intro he
      have hm := Option.some.inj he
      have hlt : count < 256 ^ 4 := hc
      omega
    have hsp : (self.applyRecord (Shape.countRecord (count + 1))).traceBlockSpace =
        self.traceBlockSpace := traceBlockSpace_applyRecord _ _
    rcases hz : k - 6 with - | - | m
    · rw [openLoop_done (by rw [hsp]; omega)] at hr
      rw [← Except.ok.inj hr]
      exact hne
    · rw [hz] at hrest
      rw [openLoop_lone_byte hrest (by rw [hsp]; omega)] at hr
      cases hr
    · rw [hz] at hrest
      rw [openLoop_zero_tag hrest (by rw [hsp]; omega)] at hr
      rw [← Except.ok.inj hr]
      exact hne

/-! ### Interrupted files -/

/-- The file left by an `addTrace` of `t` that was interrupted after `k` bytes of its record:
the traces `ts` are complete and counted. -/
def cutFile (np : Numpy) (p : Shape) (ts : List Trace) (t : Trace) (k : Nat) : List UInt8 :=
  p.header ts.length ++ (ts.flatMap (recordBytes np p) ++ (recordBytes np p t).take k)

/-- Behind the counted traces the scan stands before the bytes of the cut record. -/
theorem open_cutFile (np : Numpy) {p : Shape} {ts : List Trace} (hn : ts.length < 2 ^ 32)
    (h : ∀ t ∈ ts, t.Fits p) (t : Trace) (k : Nat) :
    ∃ f : ByteFile, f.rest = (recordBytes np p t).take k ∧
      TraceSet.open {} (cutFile np p ts t k) =
        openLoop (42 + ts.length * p.traceSpace + ((recordBytes np p t).take k).length)
          (opened p ts.length) f 42 := by
  have hl : (ts.flatMap (recordBytes np p)).length = ts.length * p.traceSpace :=
    length_flatMap_of_length ts fun t ht ↦ length_recordBytes np (h t ht)
  refine ⟨⟨cutFile np p ts t k, 42 + ts.length * p.traceSpace⟩, ?_, ?_⟩
  · change (cutFile np p ts t k).drop (42 + ts.length * p.traceSpace) = _
    rw [cutFile, ← List.drop_drop, List.drop_left' (Shape.length_header p _),
      List.drop_left' hl]
  · rw [cutFile, open_header p hn, List.length_append, hl, Nat.add_assoc]

/-- With no byte of the new record in the file, the completed traces are readable. -/
theorem readable_cutFile_zero (np : Numpy) {p : Shape} {ts : List Trace}
    (hn : ts.length < 2 ^ 32) (h : ∀ t ∈ ts, t.Fits p) (t : Trace) :
    Readable ts (cutFile np p ts t 0) := by
  have hf : cutFile np p ts t 0 = p.header ts.length ++ ts.flatMap (recordBytes np p) := by
    rw [cutFile, List.take_zero, List.append_nil]
  rw [hf]
  exact readable_written np hn h

/-- Whatever the set, the completed traces stay readable for every content of the interrupted
record exactly at the cut in front of its first byte. -/
theorem readable_cutFile_iff (np : Numpy) (p : Shape) (ts : List Trace) (hn : ts.length < 2 ^ 32)
    (h : ∀ t ∈ ts, t.Fits p) (k : Nat) (hk : k ≤ p.traceSpace) :
    (∀ t : Trace, t.Fits p → Readable ts (cutFile np p ts t k)) ↔ k = 0 := by
  constructor
  · intro hall
    by_contra hz
    let bs := (misleading ts.length p.traceSpace).take p.traceSpace
    have hbl : bs.length = p.traceSpace := by
      have he : ((Shape.countRecord (ts.length + 1)).encode).length = 6 := rfl
      simp only [bs, misleading, List.length_take, List.length_append, List.length_replicate, he]
      omega
    obtain ⟨t, ht, hb⟩ := exists_recordBytes np p bs hbl
    obtain ⟨f, hf, ho⟩ := open_cutFile np hn h t k
    obtain ⟨r, hr, hcount, -⟩ := hall t ht
    have hrest : f.rest = (misleading ts.length p.traceSpace).take k := by
      rw [hf, hb, List.take_take, Nat.min_eq_left hk]
    have hlen : ((recordBytes np p t).take k).length = k := by
      rw [List.length_take, hb, hbl]
      exact Nat.min_eq_left hk
    rw [ho, hlen] at hr
    have hspace : (opened p ts.length).traceBlockSpace = ts.length * p.traceSpace := rfl
    exact openLoop_misleading hn (Nat.pos_of_ne_zero hz) hk hrest (by rw [hspace]; omega) r hr
      hcount
  · intro hz t _
    subst hz
    exact readable_cutFile_zero np hn h t

/-- The two sample traces, with a third interrupted before its first byte and after it. -/
theorem readable_cutFile_iff_sample :
    Readable sampleTraces
      (cutFile intNumpy sampleShape sampleTraces ⟨[0x5F], [0, 255], .ints [-2, 513]⟩ 0) ∧
    ¬∀ t : Trace, t.Fits sampleShape → Readable sampleTraces
      (cutFile intNumpy sampleShape sampleTraces t 1) := by
  have hiff := readable_cutFile_iff intNumpy sampleShape sampleTraces (by decide) sampleTraces_fit
  constructor
  · exact (hiff 0 (Nat.zero_le _)).mpr rfl _ (sampleTraces_fit _ List.mem_cons_self)
  · intro hall
    exact Nat.one_ne_zero ((hiff 1 (by decide)).mp hall)

/-- Interrupted after its title byte, a third trace makes `open` raise. -/
theorem not_readable_cutFile_sample :
    ∃ t ∈ sampleTraces, t.Fits sampleShape ∧ 1 ≤ sampleShape.traceSpace ∧
      ¬Readable sampleTraces (cutFile intNumpy sampleShape sampleTraces t 1) := by
  refine ⟨⟨[0x5F], [0, 255], .ints [-2, 513]⟩, List.mem_cons_self,
    sampleTraces_fit _ List.mem_cons_self, by decide, ?_⟩
  rintro ⟨r, hr, -, -⟩
  obtain ⟨f, hf, ho⟩ := open_cutFile intNumpy (by decide) sampleTraces_fit
    ⟨[0x5F], [0, 255], .ints [-2, 513]⟩ 1
  rw [ho, openLoop_lone_byte (b := 0x5F) hf (by decide)] at hr
  cases hr

end TraceSet
end HorrorScope.Trs
