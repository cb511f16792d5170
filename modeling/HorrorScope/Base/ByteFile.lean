import Mathlib.Data.List.Basic

/-!
# A random-access byte file and its cursor

`read` returns the available bytes at the cursor and moves it past them; `write`
overwrites from the cursor on and extends the file, filling a gap left by a seek
beyond the end with zeros. Parsing lemmas are stated on `rest`, the bytes from the
cursor to the end of the file.
-/

namespace HorrorScope.Base

/-- An open file: its bytes and the position of the next access. -/
structure ByteFile where
  bytes : List UInt8
  pos : Nat
  deriving DecidableEq, Repr

namespace ByteFile

/-- A file of no bytes, as opened for writing. -/
def empty : ByteFile := ⟨[], 0⟩

/-- Number of bytes in the file. -/
def size (f : ByteFile) : Nat := f.bytes.length

/-- Place the cursor at an absolute position. -/
def seek (f : ByteFile) (pos : Nat) : ByteFile := { f with pos := pos }

/-- Place the cursor at the end of the file. -/
def seekEnd (f : ByteFile) : ByteFile := f.seek f.size

/-- A file with the given bytes and the cursor at its end. -/
def atEnd (bs : List UInt8) : ByteFile := ⟨bs, bs.length⟩

/-- The bytes from the cursor to the end of the file. -/
def rest (f : ByteFile) : List UInt8 := f.bytes.drop f.pos

/-- The bytes that a read of `n` returns: fewer than `n` at the end of the file. -/
def peek (f : ByteFile) (n : Nat) : List UInt8 := f.rest.take n

/-- Read up to `n` bytes and move the cursor past them. -/
def read (f : ByteFile) (n : Nat) : List UInt8 × ByteFile :=
  (f.peek n, f.seek (f.pos + (f.peek n).length))

/-- Write at the cursor, overwriting what is there. -/
def write (f : ByteFile) (bs : List UInt8) : ByteFile where
  bytes := f.bytes.take f.pos ++ List.replicate (f.pos - f.size) 0 ++ bs ++
    f.bytes.drop (f.pos + bs.length)
  pos := f.pos + bs.length

/-- A seek leaves the bytes. -/
@[simp] theorem bytes_seek (f : ByteFile) (p : Nat) : (f.seek p).bytes = f.bytes := rfl

/-- The cursor after a seek. -/
@[simp] theorem pos_seek (f : ByteFile) (p : Nat) : (f.seek p).pos = p := rfl

/-- A seek leaves the size. -/
@[simp] theorem size_seek (f : ByteFile) (p : Nat) : (f.seek p).size = f.size := rfl

/-- Only the last of two seeks counts. -/
@[simp] theorem seek_seek (f : ByteFile) (p q : Nat) : (f.seek p).seek q = f.seek q := rfl

/-! ### Reads, from what follows the cursor -/

/-- The bytes after a prefix of the rest are the rest at the advanced cursor. -/
theorem rest_advance {f : ByteFile} {xs ys : List UInt8} (h : f.rest = xs ++ ys) :
    (f.seek (f.pos + xs.length)).rest = ys := by
  unfold rest at h ⊢
  rw [bytes_seek, pos_seek, ← List.drop_drop, h, List.drop_left]

/-- What is left behind the next byte. -/
theorem rest_advance_one {f : ByteFile} {b : UInt8} {ys : List UInt8} (h : f.rest = b :: ys) :
    (f.seek (f.pos + 1)).rest = ys :=
  rest_advance (show f.rest = [b] ++ ys from h)

/-- A cursor at the start of a nonempty rest stands inside the file. -/
theorem pos_add_length_rest {f : ByteFile} (h : f.rest ≠ []) : f.pos + f.rest.length = f.size := by
  have hp : 0 < f.rest.length := List.length_pos_iff.mpr h
  unfold rest at hp ⊢
  rw [List.length_drop] at hp ⊢
  unfold size
  omega

/-- A read ahead of the bytes that come next. -/
theorem peek_of_rest {f : ByteFile} {xs ys : List UInt8} (h : f.rest = xs ++ ys) :
    f.peek xs.length = xs := by
  rw [peek, h, List.take_left]

/-- A read of as many bytes as a prefix of the rest returns that prefix. -/
theorem read_of_rest {f : ByteFile} {xs ys : List UInt8} (h : f.rest = xs ++ ys) :
    f.read xs.length = (xs, f.seek (f.pos + xs.length)) := by
  rw [read, peek_of_rest h]

/-! ### Writes -/

/-- A seek to the end, whatever the cursor was. -/
@[simp] theorem seekEnd_eq_atEnd (f : ByteFile) : f.seekEnd = atEnd f.bytes := rfl

/-- The bytes of a file with its cursor at the end. -/
@[simp] theorem bytes_atEnd (bs : List UInt8) : (atEnd bs).bytes = bs := rfl

/-- A write at the end appends. -/
@[simp] theorem write_atEnd (bs xs : List UInt8) : (atEnd bs).write xs = atEnd (bs ++ xs) := by
  have hd : bs.drop (bs.length + xs.length) = [] := List.drop_of_length_le (Nat.le_add_right _ _)
  simp only [write, atEnd, size, Nat.sub_self, List.replicate_zero, List.append_nil, hd,
    List.take_length, List.length_append]

/-- Two writes in a row are one write of the concatenation. -/
theorem write_write {f : ByteFile} (h : f.pos ≤ f.size) (xs ys : List UInt8) :
    (f.write xs).write ys = f.write (xs ++ ys) := by
  have hz : f.pos - f.size = 0 := Nat.sub_eq_zero_of_le h
  have hl : (f.bytes.take f.pos).length = f.pos := List.length_take_of_le h
  have ht : (f.bytes.take f.pos ++ xs ++ f.bytes.drop (f.pos + xs.length)).take
      (f.pos + xs.length) = f.bytes.take f.pos ++ xs :=
    List.take_left' (by rw [List.length_append, hl])
  have hd : (f.bytes.take f.pos ++ xs ++ f.bytes.drop (f.pos + xs.length)).drop
      (f.pos + xs.length + ys.length) = f.bytes.drop (f.pos + (xs.length + ys.length)) := by
    rw [← List.drop_drop, List.drop_left' (by rw [List.length_append, hl]), List.drop_drop,
      Nat.add_assoc]
  have hs : f.pos + xs.length - (f.write xs).size = 0 := by
    apply Nat.sub_eq_zero_of_le
    simp only [size, write, List.length_append, hl]
    omega
  unfold write at hs ⊢
  simp only [hz, List.replicate_zero, List.append_nil, List.length_append] at hs ⊢
  rw [hs, ht, hd]
  simp only [List.replicate_zero, List.append_nil, List.append_assoc, Nat.add_assoc]

/-- A write inside the file replaces exactly as many bytes as it is given. -/
theorem write_middle (a b c bs : List UInt8) (h : bs.length = b.length) :
    (ByteFile.mk (a ++ (b ++ c)) a.length).write bs =
      ⟨a ++ (bs ++ c), a.length + bs.length⟩ := by
  have hd : (a ++ (b ++ c)).drop (a.length + bs.length) = c := by
    rw [h, List.drop_append, List.drop_of_length_le (by omega), Nat.add_sub_cancel_left,
      List.drop_left, List.nil_append]
  have hz : a.length - (a ++ (b ++ c)).length = 0 := by
    rw [List.length_append]
    omega
  simp only [write, hd, List.take_left, size, hz, List.replicate_zero, List.append_nil,
    List.append_assoc]

end ByteFile
end HorrorScope.Base
