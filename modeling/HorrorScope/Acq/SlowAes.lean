import HorrorScope.Acq.Target
import HorrorScope.Aes.Cipher
import HorrorScope.Aes.KeyExpansion

/-!
# The block encryption of the target

What `loop` of `sketch_slowAes.ino:40-64` computes with `aes.c`. Each iteration expands the key into
a new array on the stack, and `Rcon` keeps its array from one iteration to the next.
-/

namespace HorrorScope.Acq

open HorrorScope.Base HorrorScope.Aes

/-- `key` (`sketch_slowAes.ino:4`). -/
def key : Key (.ofSizeof 16) :=
  ⟨[0xB0, 0xB0, 0xCE, 0xE5, 0xCA, 0xFE, 0xBE, 0xEF, 0x30, 0x31, 0x32, 0x33, 0x34, 0x35, 0x36, 0x37],
    rfl⟩

/-- The array of `Rcon` at the start (`aes.c:144`). -/
def initialR : Word := ⟨[0x02, 0x00, 0x00, 0x00], rfl⟩

/-- What an iteration finds on the stack where it puts the expanded key. -/
abbrev Stack := Schedule (.ofSizeof 16)

/-- The array of `Rcon` after iterations with these stacks. -/
def afterIterations (before : List Stack) : Word :=
  before.foldl (fun R w ↦ (keyExpansion key ⟨w, R⟩).R) initialR

/-- The expanded key of the first iteration. -/
def schedule : Schedule (.ofSizeof 16) :=
  (keyExpansion key ⟨.replicate _ 0, initialR⟩).w

private theorem tail_afterIterations (before : List Stack) :
    ∀ k ≠ 0, (afterIterations before).get k = 0 := by
  have hloop (R : Word) (hR : ∀ k ≠ 0, R.get k = 0) :
      ∀ k ≠ 0, (before.foldl (fun R w ↦ (keyExpansion key ⟨w, R⟩).R) R).get k = 0 := by
    induction before generalizing R with
    | nil => exact hR
    | cons w before ih =>
      rw [List.foldl_cons]
      exact ih _ (loop_keyExpansion key (e := ⟨w, R⟩) hR).tail_eq_zero
  exact hloop initialR fun k hk ↦ get_single_of_ne 0x02 hk

/-- Every iteration has the same expanded key, whatever it finds on the stack and whatever the
iterations before it have left in the array of `Rcon`. -/
theorem keyExpansion_iteration (before : List Stack) (w : Stack) :
    (keyExpansion key ⟨w, afterIterations before⟩).w = schedule := by
  have h := loop_keyExpansion key (e := ⟨w, afterIterations before⟩) (tail_afterIterations before)
  have hfirst := loop_keyExpansion key (e := ⟨.replicate _ 0, initialR⟩) (tail_afterIterations [])
  exact h.expanded.unique hfirst.expanded

/-- What the target answers to a block. -/
def encrypt (data : Block) : Block := cipher schedule data

end HorrorScope.Acq
