import HorrorScope.Trs.TraceSet
import Mathlib.Data.Nat.Bitwise

/-!
# Header records and the two scans over them

A header record is a tag, a length field in short or long form, and a value. The loops
of `findtag` and `open` (`src/acq/Trace.py:181,235`) keep a file cursor and an offset of
their own; on well-formed records both move past the record together, so a scan over a
list of records is a fold over the list.
-/

namespace HorrorScope.Trs

open HorrorScope.Base

/-! ### Single reads -/

/-- `ord` of the byte that comes next. -/
theorem readOrd_of_rest {f : ByteFile} {b : UInt8} {ys : List UInt8} (h : f.rest = b :: ys) :
    readOrd f = .ok (b, f.seek (f.pos + 1)) := by
  have hr : f.read 1 = ([b], f.seek (f.pos + 1)) :=
    ByteFile.read_of_rest (show f.rest = [b] ++ ys from h)
  rw [readOrd, hr]

/-- `ord` at the end of the file. -/
theorem readOrd_of_rest_nil {f : ByteFile} (h : f.rest = []) : readOrd f = .error .typeError := by
  have hp : f.peek 1 = [] := by rw [ByteFile.peek, h, List.take_nil]
  rw [readOrd, ByteFile.read, hp]

/-- A little-endian word is read as its value. -/
theorem readUINT_of_rest {f : ByteFile} {xs ys : List UInt8} (h : f.rest = xs ++ ys) :
    readUINT xs.length f = .ok (leValue xs, f.seek (f.pos + xs.length)) := by
  have hp := ByteFile.peek_of_rest h
  rw [readUINT, hp, if_pos rfl, ByteFile.read_of_rest h]

/-- A seek over bytes that are there. -/
theorem skip_of_rest {f : ByteFile} {xs ys : List UInt8} (h : f.rest = xs ++ ys)
    (hl : xs.length < 2 ^ 63) : skip f xs.length = .ok (f.seek (f.pos + xs.length)) := by
  rw [skip, if_pos hl, ByteFile.read_of_rest h]

/-- The length bytes are summed as a little-endian number, from byte `i` on. -/
theorem readLengthBytes_of_rest {f : ByteFile} {ks ys : List UInt8} (i length : Nat)
    (h : f.rest = ks ++ ys) :
    readLengthBytes ks.length i length f =
      .ok (length + leValue ks * 256 ^ i, f.seek (f.pos + ks.length)) := by
  induction ks generalizing f i length with
  | nil => simp only [List.length_nil, readLengthBytes, leValue, Nat.zero_mul, Nat.add_zero]; rfl
  | cons k ks ih =>
    have hr : (f.seek (f.pos + 1)).rest = ks ++ ys := ByteFile.rest_advance_one h
    have hs : k.toNat <<< (i * 8) = k.toNat * 256 ^ i := by
      rw [Nat.shiftLeft_eq, Nat.mul_comm i 8, Nat.pow_mul]
    have hv : length + k.toNat * 256 ^ i + leValue ks * 256 ^ (i + 1) =
        length + leValue (k :: ks) * 256 ^ i := by
      rw [leValue, Nat.pow_succ]
      ring
    rw [List.length_cons, readLengthBytes, readOrd_of_rest h]
    change readLengthBytes ks.length (i + 1) (length + k.toNat <<< (i * 8))
      (f.seek (f.pos + 1)) = _
    rw [ih (i + 1) _ hr, hs, hv]
    simp only [ByteFile.pos_seek, ByteFile.seek_seek, Nat.add_assoc, Nat.add_comm 1]

/-! ### Length fields -/

/-- A length field: one byte below `0x80`, or `0x80 | k` and `k` little-endian bytes.
The indices are the encoded length and the number of additional bytes. -/
inductive LengthField : List UInt8 → Nat → Nat → Prop
  | short (b : UInt8) (h : b &&& 0x80 = 0) : LengthField [b] b.toNat 0
  | long (b : UInt8) (ks : List UInt8) (h : b &&& 0x80 ≠ 0) (hk : (b &&& 0x7F).toNat = ks.length) :
      LengthField (b :: ks) (leValue ks) ks.length

private theorem LengthField.length_eq {lf : List UInt8} {n a : Nat} (h : LengthField lf n a) :
    lf.length = a + 1 := by
  cases h <;> rfl

/-- Reading a length field returns its value and moves past it. -/
theorem readLength_of_rest {f : ByteFile} {lf ys : List UInt8} {n a : Nat}
    (hf : LengthField lf n a) (h : f.rest = lf ++ ys) :
    readLength f = .ok (n, a, f.seek (f.pos + 1 + a)) := by
  cases hf with
  | short b hb =>
    rw [readLength, readOrd_of_rest h]
    change (if b &&& 0x80 ≠ 0 then _ else _) = _
    rw [if_neg (not_not_intro hb)]
    rfl
  | long b ks hb hk =>
    have hr : (f.seek (f.pos + 1)).rest = ks ++ ys := ByteFile.rest_advance_one h
    have hl := readLengthBytes_of_rest 0 0 hr
    rw [Nat.pow_zero, Nat.mul_one, Nat.zero_add] at hl
    rw [readLength, readOrd_of_rest h]
    change (if b &&& 0x80 ≠ 0 then _ else _) = _
    rw [if_pos hb, hk, hl]
    rfl

/-! ### Records -/

/-- A header record as it stands in the file. -/
structure Record where
  tag : UInt8
  lengthField : List UInt8
  value : List UInt8
  deriving DecidableEq, Repr

namespace Record

/-- The bytes of a record. -/
def encode (r : Record) : List UInt8 := r.tag :: (r.lengthField ++ r.value)

/-- The record that the writer emits: a one-byte length. -/
def short (tag : UInt8) (value : List UInt8) : Record := ⟨tag, leBytes 1 value.length, value⟩

/-- The tag of a short record. -/
@[simp] theorem tag_short (tag : UInt8) (value : List UInt8) : (short tag value).tag = tag := rfl

/-- The length field of a record states the length of its value, which a read accepts. -/
structure Framed (r : Record) (addLen : Nat) : Prop where
  lengthField : LengthField r.lengthField r.value.length addLen
  readable : r.value.length < 2 ^ 63

/-- The bytes of a record: tag, length field and value. -/
theorem length_encode {r : Record} {a : Nat} (h : LengthField r.lengthField r.value.length a) :
    r.encode.length = 2 + a + r.value.length := by
  simp only [encode, List.length_cons, List.length_append, h.length_eq]
  omega

/-- A short record has its length in one byte. -/
theorem framed_short {tag : UInt8} {value : List UInt8} (h : value.length < 0x80) :
    (short tag value).Framed 0 := by
  have hb : (UInt8.ofNat value.length).toNat = value.length := by
    rw [UInt8.toNat_ofNat']
    omega
  have hz : UInt8.ofNat value.length &&& 0x80 = 0 := by
    apply UInt8.toNat_inj.mp
    rw [UInt8.toNat_and, hb]
    change value.length &&& 2 ^ 7 = 0
    rw [Nat.and_two_pow, Nat.testBit_lt_two_pow h]
    rfl
  refine ⟨?_, ?_⟩
  · change LengthField [UInt8.ofNat value.length] value.length 0
    have hs := LengthField.short _ hz
    rwa [hb] at hs
  · change value.length < 2 ^ 63
    omega

end Record

/-- Tag and length of a record are read, and the cursor stands before its value. -/
theorem read_header_of_rest {f : ByteFile} {r : Record} {a : Nat} {ys : List UInt8}
    (hr : LengthField r.lengthField r.value.length a) (h : f.rest = r.encode ++ ys) :
    readOrd f = .ok (r.tag, f.seek (f.pos + 1)) ∧
    readLength (f.seek (f.pos + 1)) = .ok (r.value.length, a, f.seek (f.pos + 2 + a)) ∧
    (f.seek (f.pos + 2 + a)).rest = r.value ++ ys := by
  have h1 : f.rest = [r.tag] ++ (r.lengthField ++ (r.value ++ ys)) := by
    rw [h, Record.encode]
    simp only [List.cons_append, List.append_assoc, List.nil_append]
  have h2 : (f.seek (f.pos + 1)).rest = r.lengthField ++ (r.value ++ ys) :=
    ByteFile.rest_advance h1
  have h3 := ByteFile.rest_advance h2
  rw [hr.length_eq] at h3
  have hp : f.pos + 1 + (a + 1) = f.pos + 2 + a := by omega
  simp only [ByteFile.pos_seek, ByteFile.seek_seek, hp] at h3
  refine ⟨readOrd_of_rest h1, ?_, h3⟩
  rw [readLength_of_rest hr h2]
  have hq : f.pos + 1 + 1 + a = f.pos + 2 + a := by omega
  simp only [ByteFile.pos_seek, ByteFile.seek_seek, hq]

/-- While a record lies before the cursor's reserve, a scan is inside its loop bound. -/
theorem pos_lt_bound {f : ByteFile} {r : Record} {ys : List UInt8} {space : Nat}
    (h : f.rest = r.encode ++ ys) (hs : space ≤ ys.length) : f.pos < f.size - space := by
  have hn : f.rest ≠ [] := by rw [h, Record.encode]; exact List.cons_ne_nil _ _
  have hl := ByteFile.pos_add_length_rest hn
  rw [h, List.length_append] at hl
  have he : 0 < r.encode.length := Nat.succ_pos _
  omega

/-! ### The scan of `findtag` -/

namespace TraceSet

private theorem findtagLoop_skip {searchTag : UInt8} {space a : Nat} {f : ByteFile} {r : Record}
    {ys : List UInt8} (hr : r.Framed a) (h : f.rest = r.encode ++ ys) (hs : space ≤ ys.length)
    (ht : r.tag ≠ searchTag) :
    findtagLoop searchTag f.size space f f.pos =
      findtagLoop searchTag f.size space (f.seek (f.pos + r.encode.length))
        (f.pos + r.encode.length) := by
  obtain ⟨ht1, hl, hv⟩ := read_header_of_rest hr.lengthField h
  have hk := skip_of_rest hv hr.readable
  simp only [ByteFile.pos_seek, ByteFile.seek_seek] at hk
  have hp : f.pos + 2 + a + r.value.length = f.pos + r.encode.length := by
    rw [Record.length_encode hr.lengthField]
    omega
  rw [hp] at hk
  rw [findtagLoop, dif_pos (pos_lt_bound h hs), ht1]
  simp only [ok_bind, hl, if_neg ht, hk, hp]

/-- The scan passes over records with other tags. -/
theorem findtagLoop_records {searchTag : UInt8} (space : Nat) {f : ByteFile} (rs : List Record)
    {ys : List UInt8} (hr : ∀ r ∈ rs, (∃ a, r.Framed a) ∧ r.tag ≠ searchTag)
    (h : f.rest = rs.flatMap Record.encode ++ ys) (hs : space ≤ ys.length) :
    findtagLoop searchTag f.size space f f.pos =
      findtagLoop searchTag f.size space
        (f.seek (f.pos + (rs.flatMap Record.encode).length))
        (f.pos + (rs.flatMap Record.encode).length) := by
  induction rs generalizing f with
  | nil => rfl
  | cons r rs ih =>
    obtain ⟨⟨a, ha⟩, ht⟩ := hr r List.mem_cons_self
    have h1 : f.rest = r.encode ++ (rs.flatMap Record.encode ++ ys) := by
      rw [h, List.flatMap_cons, List.append_assoc]
    have hb : space ≤ (rs.flatMap Record.encode ++ ys).length := by
      rw [List.length_append]
      omega
    have hi := ih (f := f.seek (f.pos + r.encode.length))
      (fun q hq ↦ hr q (List.mem_cons_of_mem r hq)) (ByteFile.rest_advance h1)
    rw [findtagLoop_skip ha h1 hb ht]
    simp only [ByteFile.size_seek, ByteFile.pos_seek, ByteFile.seek_seek] at hi
    rw [hi, List.flatMap_cons, List.length_append, Nat.add_assoc]

/-- The scan stops at the record it looks for. -/
theorem findtagLoop_found (space : Nat) {a : Nat} {f : ByteFile} {r : Record} {ys : List UInt8}
    (hr : r.Framed a) (h : f.rest = r.encode ++ ys) (hs : space ≤ ys.length) :
    findtagLoop r.tag f.size space f f.pos = .ok (f.seek f.pos) := by
  obtain ⟨ht, hl, -⟩ := read_header_of_rest hr.lengthField h
  rw [findtagLoop, dif_pos (pos_lt_bound h hs), ht]
  simp only [ok_bind, hl]
  rfl

end TraceSet
end HorrorScope.Trs
