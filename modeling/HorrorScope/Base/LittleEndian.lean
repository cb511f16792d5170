import Mathlib.Tactic.Ring

/-!
# Fixed-width little-endian words

A word of `w` bytes is stored low byte first. `leBytes` truncates its argument to
`w` bytes, as a masked store does; `leValue` reads a byte list of any length.
-/

namespace HorrorScope.Base

/-- The low `w` bytes of a natural number, low byte first. -/
def leBytes : Nat → Nat → List UInt8
  | 0, _ => []
  | w + 1, n => UInt8.ofNat n :: leBytes w (n / 256)

/-- The number whose low-to-high bytes are the given list. -/
def leValue : List UInt8 → Nat
  | [] => 0
  | b :: bs => b.toNat + 256 * leValue bs

/-- A word of width `w` has exactly `w` bytes. -/
@[simp] theorem length_leBytes (w n : Nat) : (leBytes w n).length = w := by
  induction w generalizing n with
  | zero => rfl
  | succ w ih => simp [leBytes, ih]

/-- A byte list is read as a number below the next power of 256. -/
theorem leValue_lt (bs : List UInt8) : leValue bs < 256 ^ bs.length := by
  induction bs with
  | nil => simp [leValue]
  | cons b bs ih =>
    have hb := b.toNat_lt
    simp only [leValue, List.length_cons, Nat.pow_succ]
    omega

/-- Reading a stored word returns it modulo the word size. -/
theorem leValue_leBytes_mod (w n : Nat) : leValue (leBytes w n) = n % 256 ^ w := by
  induction w generalizing n with
  | zero => simp [leBytes, leValue, Nat.mod_one]
  | succ w ih =>
    rw [leBytes, leValue, ih, Nat.pow_succ, Nat.mul_comm (256 ^ w) 256, Nat.mod_mul]
    rfl

/-- Reading a stored word that fits its width returns it exactly. -/
theorem leValue_leBytes {w n : Nat} (h : n < 256 ^ w) : leValue (leBytes w n) = n := by
  rw [leValue_leBytes_mod, Nat.mod_eq_of_lt h]

/-- Storing the value of a byte list gives the list back. -/
theorem leBytes_leValue (bs : List UInt8) : leBytes bs.length (leValue bs) = bs := by
  induction bs with
  | nil => rfl
  | cons b bs ih =>
    have hb := b.toNat_lt
    have hq : (b.toNat + 256 * leValue bs) / 256 = leValue bs := by omega
    have hr : UInt8.ofNat (b.toNat + 256 * leValue bs) = b := by
      apply UInt8.toNat_inj.mp
      rw [UInt8.toNat_ofNat']
      omega
    simp only [List.length_cons, leBytes, leValue, hq, hr, ih]

/-! ### Arrays of words -/

/-- Consecutive words of width `w`. -/
def leWords (w : Nat) (ns : List Nat) : List UInt8 := ns.flatMap (leBytes w)

/-- Cut a byte list into `count` chunks of `w` bytes; a missing tail gives fewer chunks. -/
def chunks (w : Nat) : Nat → List UInt8 → List (List UInt8)
  | 0, _ => []
  | count + 1, bs => if bs.length < w then [] else bs.take w :: chunks w count (bs.drop w)

/-- An array of words occupies its length times the word width. -/
@[simp] theorem length_leWords (w : Nat) (ns : List Nat) :
    (leWords w ns).length = ns.length * w := by
  induction ns with
  | nil => simp [leWords]
  | cons n ns ih =>
    have hc : leWords w (n :: ns) = leBytes w n ++ leWords w ns := rfl
    rw [hc, List.length_append, length_leBytes, ih, List.length_cons]
    ring

/-- Cutting an array of words, followed by anything, gives the words back. -/
theorem chunks_leWords (w : Nat) (ns : List Nat) (rest : List UInt8) :
    chunks w ns.length (leWords w ns ++ rest) = ns.map (leBytes w) := by
  induction ns with
  | nil => rfl
  | cons n ns ih =>
    have hc : leWords w (n :: ns) ++ rest = leBytes w n ++ (leWords w ns ++ rest) :=
      List.append_assoc _ _ _
    have hl : ¬(leBytes w n ++ (leWords w ns ++ rest)).length < w := by simp
    have ht : (leBytes w n ++ (leWords w ns ++ rest)).take w = leBytes w n :=
      List.take_left' (length_leBytes w n)
    have hd : (leBytes w n ++ (leWords w ns ++ rest)).drop w = leWords w ns ++ rest :=
      List.drop_left' (length_leBytes w n)
    rw [List.length_cons, hc, chunks, if_neg hl, ht, hd, ih, List.map_cons]

/-! ### Records of one length -/

/-- Dropping whole records of a fixed length drops list elements. -/
theorem drop_flatMap {α : Type} {g : α → List UInt8} {len : Nat} (xs : List α)
    (h : ∀ x ∈ xs, (g x).length = len) (i : Nat) (hi : i ≤ xs.length) :
    (xs.flatMap g).drop (i * len) = (xs.drop i).flatMap g := by
  induction xs generalizing i with
  | nil => simp
  | cons x xs ih =>
    cases i with
    | zero => simp
    | succ i =>
      have hx : (g x).length = len := h x List.mem_cons_self
      have hd : ((x :: xs).flatMap g).drop len = xs.flatMap g := by
        rw [List.flatMap_cons]
        exact List.drop_left' hx
      have hm : (i + 1) * len = len + i * len := by ring
      rw [hm, ← List.drop_drop, hd, List.drop_succ_cons]
      exact ih (fun y hy ↦ h y (List.mem_cons_of_mem x hy)) i (Nat.le_of_succ_le_succ hi)

/-- Records of a fixed length occupy their number times that length. -/
theorem length_flatMap_of_length {α : Type} {g : α → List UInt8} {len : Nat} (xs : List α)
    (h : ∀ x ∈ xs, (g x).length = len) : (xs.flatMap g).length = xs.length * len := by
  induction xs with
  | nil => simp
  | cons x xs ih =>
    rw [List.flatMap_cons, List.length_append, h x List.mem_cons_self,
      ih (fun y hy ↦ h y (List.mem_cons_of_mem x hy)), List.length_cons]
    ring

end HorrorScope.Base
