import Mathlib.Data.Vector.Basic
import HorrorScope.Base.Ring
import HorrorScope.Base.Run

/-!
# The ring buffer

`RingBuffer.h` of the LUFA library. Neither `RingBuffer_Insert` nor `RingBuffer_Remove` looks at the
number of bytes that are stored: a caller asks `RingBuffer_IsFull` or `RingBuffer_IsEmpty` first.
-/

namespace HorrorScope.Usb

open HorrorScope.Base

/-- `RingBuffer_t` (`RingBuffer.h:110`) with the array behind it. The pointers `In` and `Out` are
positions in the array, `Start` and `End` its ends, and `Size` its length. -/
structure RingBuffer (size : Nat) where
  data : List.Vector UInt8 size
  inPtr : Fin size
  outPtr : Fin size
  count : UInt16
  deriving DecidableEq

namespace RingBuffer

variable {size : Nat}

/-- `RingBuffer_InitBuffer` (`RingBuffer.h:132`), which leaves the array as it is. -/
def initBuffer (data : List.Vector UInt8 (size + 1)) : RingBuffer (size + 1) := ⟨data, 0, 0, 0⟩

/-- `RingBuffer_IsEmpty` (`RingBuffer.h:210`). -/
def isEmpty (b : RingBuffer size) : Bool := b.count == 0

/-- `RingBuffer_IsFull` (`RingBuffer.h:224`). -/
def isFull (b : RingBuffer size) : Bool := b.count == UInt16.ofNat size

/-- `RingBuffer_Insert` (`RingBuffer.h:240`). -/
def insert (b : RingBuffer size) (x : UInt8) : RingBuffer size :=
  { b with
    data := b.data.set b.inPtr x
    inPtr := Ring.next b.inPtr
    count := b.count + 1 }

/-- `RingBuffer_Peek` (`RingBuffer.h:295`). -/
def peek (b : RingBuffer size) : UInt8 := b.data.get b.outPtr

/-- `RingBuffer_Remove` (`RingBuffer.h:269`), which returns what `RingBuffer_Peek` does. -/
def remove (b : RingBuffer size) : RingBuffer size :=
  { b with
    outPtr := Ring.next b.outPtr
    count := b.count - 1 }

/-- The bytes that are stored, the oldest first. -/
def contents (b : RingBuffer size) : List UInt8 := Ring.segment b.data.get b.outPtr b.count.toNat

/-- The number of bytes fits the array and the distance of the pointers. -/
structure Inv (b : RingBuffer size) : Prop where
  size_lt : size < 2 ^ 16
  count_le : b.count.toNat ≤ size
  inPtr_eq : b.inPtr = Ring.next^[b.count.toNat] b.outPtr

/-- The buffer behind `RingBuffer_InitBuffer`. -/
theorem inv_initBuffer {data : List.Vector UInt8 (size + 1)} (h : size + 1 < 2 ^ 16) :
    (initBuffer data).Inv :=
  ⟨h, Nat.zero_le _, rfl⟩

private theorem length_contents (b : RingBuffer size) : b.contents.length = b.count.toNat :=
  Ring.length_segment ..

/-- `RingBuffer_IsEmpty` says that nothing is in the buffer. -/
theorem isEmpty_iff (b : RingBuffer size) : b.isEmpty = true ↔ b.contents = [] := by
  rw [isEmpty, beq_iff_eq, ← List.length_eq_zero_iff, length_contents, ← UInt16.toNat_inj]
  rfl

/-- `RingBuffer_IsFull` says that there is no room. -/
theorem Inv.isFull_iff {b : RingBuffer size} (h : b.Inv) :
    b.isFull = true ↔ b.contents.length = size := by
  rw [isFull, beq_iff_eq, length_contents, ← UInt16.toNat_inj, UInt16.toNat_ofNat_of_lt' h.size_lt]

private theorem Inv.count_lt {b : RingBuffer size} (h : b.Inv) (hfull : b.isFull = false) :
    b.count.toNat < size := by
  have hne : b.count.toNat ≠ size := by
    rw [← length_contents]
    intro heq
    rw [h.isFull_iff.mpr heq] at hfull
    cases hfull
  have hle := h.count_le
  omega

private theorem toNat_count_insert {b : RingBuffer size} (h : b.Inv) (hfull : b.isFull = false)
    (x : UInt8) : (b.insert x).count.toNat = b.count.toNat + 1 := by
  have hlt := h.count_lt hfull
  have hsize := h.size_lt
  change (b.count + 1).toNat = _
  rw [UInt16.toNat_add]
  exact Nat.mod_eq_of_lt (by change b.count.toNat + 1 < _; omega)

private theorem toNat_count_remove {b : RingBuffer size} (hempty : b.isEmpty = false) :
    (b.remove).count.toNat + 1 = b.count.toNat := by
  have hne : b.count.toNat ≠ 0 := by
    rw [← length_contents, ne_eq, List.length_eq_zero_iff, ← isEmpty_iff, hempty]
    exact Bool.false_ne_true
  have hle : 1 ≤ b.count := UInt16.le_iff_toNat_le.mpr (Nat.one_le_iff_ne_zero.mpr hne)
  change (b.count - 1).toNat + 1 = _
  rw [UInt16.toNat_sub_of_le _ _ hle]
  change b.count.toNat - 1 + 1 = _
  omega

/-- `RingBuffer_Insert` keeps the invariant where there is room. -/
theorem Inv.insert {b : RingBuffer size} (h : b.Inv) (hfull : b.isFull = false) (x : UInt8) :
    (b.insert x).Inv where
  size_lt := h.size_lt
  count_le := by
    rw [toNat_count_insert h hfull]
    exact h.count_lt hfull
  inPtr_eq := by
    rw [toNat_count_insert h hfull, Function.iterate_succ_apply']
    exact congrArg Ring.next h.inPtr_eq

/-- `RingBuffer_Remove` keeps the invariant where there is a byte. -/
theorem Inv.remove {b : RingBuffer size} (h : b.Inv) (hempty : b.isEmpty = false) :
    b.remove.Inv where
  size_lt := h.size_lt
  count_le := by
    have hcount := toNat_count_remove hempty
    have hle := h.count_le
    omega
  inPtr_eq := by
    have hinPtr := h.inPtr_eq
    rw [← toNat_count_remove hempty] at hinPtr
    exact hinPtr

/-- A byte inserted goes behind the stored ones. -/
theorem contents_insert {b : RingBuffer size} (h : b.Inv) (hfull : b.isFull = false) (x : UInt8) :
    (b.insert x).contents = b.contents ++ [x] := by
  have hset : (b.data.set b.inPtr x).get = Function.update b.data.get b.inPtr x := by
    funext i
    rw [List.Vector.get_set_eq_if, Function.update_apply]
    simp only [eq_comm]
  rw [contents, toNat_count_insert h hfull]
  change Ring.segment (b.data.set b.inPtr x).get b.outPtr _ = _
  rw [hset, h.inPtr_eq, Ring.segment_update _ _ (h.count_lt hfull)]
  rfl

/-- The byte that `RingBuffer_Peek` shows is the oldest, and `RingBuffer_Remove` takes it away. -/
theorem contents_eq_cons {b : RingBuffer size} (hempty : b.isEmpty = false) :
    b.contents = b.peek :: b.remove.contents := by
  rw [contents, ← toNat_count_remove hempty]
  rfl

/-! ### Any use of the buffer -/

/-- A call. -/
inductive Call where
  | insert (x : UInt8)
  | remove
  deriving DecidableEq, Repr

/-- A call on the buffer. -/
def step (b : RingBuffer size) : Call → RingBuffer size
  | .insert x => b.insert x
  | .remove => b.remove

/-- The caller has asked first. -/
def Asked (b : RingBuffer size) : Call → Prop
  | .insert _ => b.isFull = false
  | .remove => b.isEmpty = false

/-- Whether the condition of a call has been checked can be computed. -/
instance (b : RingBuffer size) : (c : Call) → Decidable (b.Asked c)
  | .insert _ => inferInstanceAs (Decidable (_ = _))
  | .remove => inferInstanceAs (Decidable (_ = _))

/-- The byte put in. -/
def inserted (_ : RingBuffer size) : Call → List UInt8
  | .insert x => [x]
  | .remove => []

/-- The byte taken out. -/
def removed (b : RingBuffer size) : Call → List UInt8
  | .insert _ => []
  | .remove => [b.peek]

private theorem Inv.step {b : RingBuffer size} (h : b.Inv) : (c : Call) → b.Asked c → (b.step c).Inv
  | .insert x, hfull => h.insert hfull x
  | .remove, hempty => h.remove hempty

private theorem removed_append_contents {b : RingBuffer size} (h : b.Inv) :
    (c : Call) → b.Asked c → b.removed c ++ (b.step c).contents = b.contents ++ b.inserted c
  | .insert x, hfull => contents_insert h hfull x
  | .remove, hempty => by
    rw [contents_eq_cons hempty]
    exact (List.append_nil _).symm

/-- From any initialised buffer on, whatever the array holds, the bytes taken out and then the
stored ones are the bytes put in, in their order. -/
theorem removed_of_initBuffer (data : List.Vector UInt8 (size + 1)) (hsize : size + 1 < 2 ^ 16)
    {cs : List Call} (hcs : Guarded step Asked (initBuffer data) cs) :
    observed removed step (initBuffer data) cs ++ (run step (initBuffer data) cs).contents =
      observed inserted step (initBuffer data) cs :=
  hcs.conserved (fun _ c h ↦ h.step c) (fun _ c h ↦ removed_append_contents h c)
    (inv_initBuffer hsize)

/-- Eight calls on the five bytes of `USBtoUSART_Buffer`, around the end of the array. -/
theorem removed_of_initBuffer_five :
    observed removed step (initBuffer (.replicate 5 0))
        [.insert 1, .insert 2, .remove, .insert 3, .insert 4, .insert 5, .insert 6, .remove] ++
      (run step (initBuffer (.replicate 5 0)) [.insert 1, .insert 2, .remove, .insert 3,
        .insert 4, .insert 5, .insert 6, .remove]).contents =
      [1, 2, 3, 4, 5, 6] :=
  removed_of_initBuffer (.replicate 5 0) (by decide) (by decide)

end RingBuffer

end HorrorScope.Usb
