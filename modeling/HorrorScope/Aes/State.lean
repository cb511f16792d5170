import HorrorScope.Aes.SBox
import HorrorScope.Base.Loops

/-!
# The transformations of `aes.c`

Each transformation of `src/toe-arduino/sketch_slowAes/aes.c:168-308` as the loops that change the
state in place, and what it makes of the cell in row `i` and column `j`.
-/

namespace HorrorScope.Aes

open HorrorScope.Base

/-- `Nb` (`aes.c:82`). -/
abbrev Nb : Nat := 4

/-- `uint8_t state[4*Nb]`. -/
abbrev State := List.Vector UInt8 (4 * Nb)

private theorem place_lt (i : Fin 4) (j : Fin Nb) : Nb * i.1 + j.1 < 4 * Nb := by
  have hj : j.1 < 4 := j.2
  change 4 * i.1 + j.1 < 16
  omega

/-- The place `Nb*i+j` of row `i` and column `j`. -/
def place (p : Fin 4 × Fin Nb) : Fin (4 * Nb) := ⟨Nb * p.1 + p.2, place_lt p.1 p.2⟩

private theorem place_injective : Function.Injective place := by
  intro p q
  revert p q
  decide

private theorem place_surjective : Function.Surjective place := by
  intro k
  revert k
  decide

namespace State

/-- `state[Nb*i+j]`. -/
def cell (s : State) (p : Fin 4 × Fin Nb) : UInt8 := s.get (place p)

/-- `state[Nb*i+j] = x`. -/
def put (s : State) (p : Fin 4 × Fin Nb) (x : UInt8) : State := s.set (place p) x

/-- States with the same cells are the same. -/
theorem ext_cell {s t : State} (h : ∀ p, s.cell p = t.cell p) : s = t := by
  apply List.Vector.ext
  intro k
  obtain ⟨p, rfl⟩ := place_surjective k
  exact h p

/-- A cell that was put. -/
@[simp] theorem cell_put_self (s : State) (p : Fin 4 × Fin Nb) (x : UInt8) :
    (s.put p x).cell p = x := List.Vector.get_set_same ..

/-- Another cell than the one that was put. -/
theorem cell_put_of_ne (s : State) {p q : Fin 4 × Fin Nb} (x : UInt8) (h : q ≠ p) :
    (s.put p x).cell q = s.cell q :=
  List.Vector.get_set_of_ne (place_injective.ne h.symm) x

/-- Any cell behind a put. -/
theorem cell_put (s : State) (p q : Fin 4 × Fin Nb) (x : UInt8) :
    (s.put p x).cell q = if q = p then x else s.cell q := by
  split
  · next h => rw [h, cell_put_self]
  · next h => exact cell_put_of_ne s x h

end State

/-! ### The transformations -/

/-- The key sizes of the switch in `setup` (`sketch_slowAes.ino:21-26`). -/
inductive KeySize where
  | b128 | b192 | b256
  deriving DecidableEq, Repr

/-- The switch over `sizeof(key)`. -/
def KeySize.ofSizeof : Nat → KeySize
  | 24 => b192
  | 32 => b256
  | _ => b128

/-- `Nk`. -/
def KeySize.nk : KeySize → Nat
  | b128 => 4
  | b192 => 6
  | b256 => 8

/-- `Nr`. -/
def KeySize.nr : KeySize → Nat
  | b128 => 10
  | b192 => 12
  | b256 => 14

variable {ks : KeySize}

/-- `uint8_t w[Nb*(Nr+1)*4]`. -/
abbrev Schedule (ks : KeySize) := List.Vector UInt8 (4 * (Nb * (ks.nr + 1)))

private theorem keyByte_lt {nr : Nat} (r : Fin (nr + 1)) (c : Fin Nb) (k : Fin 4) :
    4 * Nb * r.1 + 4 * c.1 + k.1 < 4 * (Nb * (nr + 1)) := by
  have hc : c.1 < 4 := c.2
  change 16 * r.1 + 4 * c.1 + k.1 < 4 * (4 * (nr + 1))
  omega

/-- `w[4*Nb*r+4*c+k]`. -/
def Schedule.keyByte (w : Schedule ks) (r : Fin (ks.nr + 1)) (c : Fin Nb) (k : Fin 4) : UInt8 :=
  w.get ⟨4 * Nb * r + 4 * c + k, keyByte_lt r c k⟩

namespace State

/-- `add_round_key` (`aes.c:168`). -/
def addRoundKey (s : State) (w : Schedule ks) (r : Fin (ks.nr + 1)) : State :=
  (List.finRange Nb).foldl (fun s c ↦
    let s := s.put (0, c) (s.cell (0, c) ^^^ w.keyByte r c 0)
    let s := s.put (1, c) (s.cell (1, c) ^^^ w.keyByte r c 1)
    let s := s.put (2, c) (s.cell (2, c) ^^^ w.keyByte r c 2)
    s.put (3, c) (s.cell (3, c) ^^^ w.keyByte r c 3)) s

/-- Column `j`. -/
def column (s : State) (j : Fin Nb) : Word := .ofFn fun i ↦ s.cell (i, j)

/-- The loop of `mix_columns` and `inv_mix_columns`, which differ in `a`. -/
def mixWith (a : Word) (s : State) : State :=
  (List.finRange Nb).foldl (fun s j ↦
    let col := s.column j
    let res := coefMult a col
    (List.finRange 4).foldl (fun s i ↦ s.put (i, j) (res.get i)) s) s

/-- `a` of `mix_columns`. -/
def mixPoly : Word := ⟨[0x02, 0x01, 0x01, 0x03], rfl⟩

/-- `mix_columns` (`aes.c:185`). -/
def mixColumns (s : State) : State := s.mixWith mixPoly

/-- `a` of `inv_mix_columns`. -/
def invMixPoly : Word := ⟨[0x0e, 0x09, 0x0d, 0x0b], rfl⟩

/-- `inv_mix_columns` (`aes.c:207`). -/
def invMixColumns (s : State) : State := s.mixWith invMixPoly

/-- The body of the `while` in `shift_rows` (`aes.c:238-244`). -/
def shiftRow (i : Fin 4) (s : State) : State :=
  let tmp := s.cell (i, 0)
  let s := ([1, 2, 3] : List (Fin Nb)).foldl (fun s k ↦ s.put (i, k - 1) (s.cell (i, k))) s
  s.put (i, 3) tmp

/-- `shift_rows` (`aes.c:229`). -/
def shiftRows (s : State) : State :=
  ([1, 2, 3] : List (Fin 4)).foldl (fun s i ↦ (shiftRow i)^[i] s) s

/-- The body of the `while` in `inv_shift_rows` (`aes.c:261-267`). -/
def invShiftRow (i : Fin 4) (s : State) : State :=
  let tmp := s.cell (i, 3)
  let s := ([3, 2, 1] : List (Fin Nb)).foldl (fun s k ↦ s.put (i, k) (s.cell (i, k - 1))) s
  s.put (i, 0) tmp

/-- `inv_shift_rows` (`aes.c:254`). -/
def invShiftRows (s : State) : State :=
  ([1, 2, 3] : List (Fin 4)).foldl (fun s i ↦ (invShiftRow i)^[i] s) s

/-- The loop of `sub_bytes` and `inv_sub_bytes`, which differ in the table. -/
def subWith (box : UInt8 → UInt8) (s : State) : State :=
  (List.finRange 4).foldl (fun s i ↦
    (List.finRange Nb).foldl (fun s j ↦ s.put (i, j) (box (s.cell (i, j)))) s) s

/-- `sub_bytes` (`aes.c:278`). -/
def subBytes (s : State) : State := s.subWith sBox

/-- `inv_sub_bytes` (`aes.c:296`). -/
def invSubBytes (s : State) : State := s.subWith invSBox

/-! ### Cell by cell -/

/-- A substitution works on each cell. -/
theorem cell_subWith (box : UInt8 → UInt8) (s : State) (p : Fin 4 × Fin Nb) :
    (s.subWith box).cell p = box (s.cell p) := by
  have hcell : ChangesPart cell (fun _ ↦ box) (fun s p ↦ s.put p (box (s.cell p))) :=
    ⟨fun s p ↦ cell_put_self s p _, fun s p q h ↦ cell_put_of_ne s _ h⟩
  have hrow := hcell.rows (List.nodup_finRange Nb) List.mem_finRange
  exact congrFun (hrow.foldl_of_mem (List.nodup_finRange 4) (List.mem_finRange p.1) s) p.2

/-- `add_round_key` works on each cell. -/
theorem cell_addRoundKey (s : State) (w : Schedule ks) (r : Fin (ks.nr + 1)) (i : Fin 4)
    (c : Fin Nb) : (s.addRoundKey w r).cell (i, c) = s.cell (i, c) ^^^ w.keyByte r c i := by
  have hcolumn : ChangesPart (fun s c i ↦ cell s (i, c))
      (fun c col i ↦ col i ^^^ w.keyByte r c i) (fun s c ↦
        let s := s.put (0, c) (s.cell (0, c) ^^^ w.keyByte r c 0)
        let s := s.put (1, c) (s.cell (1, c) ^^^ w.keyByte r c 1)
        let s := s.put (2, c) (s.cell (2, c) ^^^ w.keyByte r c 2)
        s.put (3, c) (s.cell (3, c) ^^^ w.keyByte r c 3)) := by
    constructor
    · intro s c
      funext i
      fin_cases i <;> simp [cell_put]
    · intro s c k hk
      funext i
      simp [cell_put, hk]
  exact congrFun (hcolumn.foldl_of_mem (List.nodup_finRange Nb) (List.mem_finRange c) s) i

/-- A byte of a column. -/
@[simp] theorem get_column (s : State) (j : Fin Nb) (i : Fin 4) :
    (s.column j).get i = s.cell (i, j) := List.Vector.get_ofFn _ i

private theorem column_store (s : State) (res : Word) (j k : Fin Nb) :
    ((List.finRange 4).foldl (fun s i ↦ s.put (i, j) (res.get i)) s).column k =
      if k = j then res else s.column k := by
  have hcell : ChangesPart cell (fun p _ ↦ res.get p.1) (fun s p ↦ s.put p (res.get p.1)) :=
    ⟨fun s p ↦ cell_put_self s p _, fun s p q h ↦ cell_put_of_ne s _ h⟩
  have hmap : (List.finRange 4).foldl (fun s i ↦ s.put (i, j) (res.get i)) s =
      ((List.finRange 4).map fun i ↦ (i, j)).foldl (fun s p ↦ s.put p (res.get p.1)) s := by
    rw [List.foldl_map]
  apply List.Vector.ext
  intro i
  rw [get_column, hmap]
  split
  · next h =>
    subst h
    have hnodup : ((List.finRange 4).map fun i ↦ (i, k)).Nodup :=
      (List.nodup_finRange 4).map (Prod.mk_left_injective k)
    exact hcell.foldl_of_mem hnodup (List.mem_map_of_mem (List.mem_finRange i)) s
  · next h =>
    rw [hcell.foldl_of_notMem, get_column]
    intro hmem
    obtain ⟨_, _, he⟩ := List.mem_map.mp hmem
    exact h (congrArg Prod.snd he).symm

/-- `mix_columns` multiplies each column. -/
theorem column_mixWith (a : Word) (s : State) (j : Fin Nb) :
    (s.mixWith a).column j = coefMult a (s.column j) := by
  have hcolumn : ChangesPart column (fun _ ↦ coefMult a) (fun s j ↦
      (List.finRange 4).foldl (fun t i ↦ t.put (i, j) ((coefMult a (s.column j)).get i)) s) := by
    constructor
    · intro s j
      rw [column_store, if_pos rfl]
    · intro s j k hk
      rw [column_store, if_neg hk]
  exact hcolumn.foldl_of_mem (List.nodup_finRange Nb) (List.mem_finRange j) s

/-- A step that moves row `i` by `d` places. -/
private def MovesRow (step : Fin 4 → State → State) (d : Fin Nb) : Prop :=
  ∀ i s k j, (step i s).cell (k, j) = if k = i then s.cell (i, j + d) else s.cell (k, j)

private theorem MovesRow.iterate {step : Fin 4 → State → State} {d : Fin Nb} (h : MovesRow step d)
    (s : State) (i k : Fin 4) (j : Fin Nb) (n : Nat) :
    ((step i)^[n] s).cell (k, j) = if k = i then s.cell (i, j + n • d) else s.cell (k, j) := by
  induction n generalizing k j with
  | zero => split <;> simp_all
  | succ n ih =>
    rw [Function.iterate_succ_apply', h, ih i, ih k, if_pos rfl, add_assoc, ← succ_nsmul']
    split <;> rfl

private theorem MovesRow.rows {step : Fin 4 → State → State} {d : Fin Nb} (h : MovesRow step d)
    (s : State) (i : Fin 4) (j : Fin Nb) :
    (([1, 2, 3] : List (Fin 4)).foldl (fun s i ↦ (step i)^[i] s) s).cell (i, j) =
      s.cell (i, j + i.1 • d) := by
  have hrow : ChangesPart (fun s i j ↦ cell s (i, j)) (fun i row j ↦ row (j + i.1 • d))
      (fun s i ↦ (step i)^[i] s) := by
    constructor
    · intro s i
      funext j
      rw [h.iterate, if_pos rfl]
    · intro s i k hk
      funext j
      rw [h.iterate, if_neg hk]
  by_cases hi : i = 0
  · -- the loop starts at row 1
    have hmem : i ∉ ([1, 2, 3] : List (Fin 4)) := by rw [hi]; decide
    have hzero : j + i.1 • d = j := by rw [hi, Fin.val_zero, zero_nsmul, add_zero]
    rw [hzero]
    exact congrFun (hrow.foldl_of_notMem hmem s) j
  · have hmem : i ∈ ([1, 2, 3] : List (Fin 4)) := by revert i; decide
    exact congrFun (hrow.foldl_of_mem (by decide) hmem s) j

/-- `shift_rows` turns row `i` by `i` places. -/
theorem cell_shiftRows (s : State) (i : Fin 4) (j : Fin Nb) :
    s.shiftRows.cell (i, j) = s.cell (i, j + i) := by
  have hmoves : MovesRow shiftRow 1 := by
    intro i s k j
    split
    · next h =>
      subst h
      simp only [shiftRow, List.foldl_cons, List.foldl_nil, cell_put, Prod.mk.injEq, true_and]
      fin_cases j <;> rfl
    · next h => simp [shiftRow, cell_put, h]
  have hsmul : ∀ i : Fin 4, i.1 • (1 : Fin Nb) = i := by decide
  exact (hmoves.rows s i j).trans (by rw [hsmul])

private theorem cell_invShiftRows (s : State) (i : Fin 4) (j : Fin Nb) :
    s.invShiftRows.cell (i, j) = s.cell (i, j - i) := by
  have hmoves : MovesRow invShiftRow (-1) := by
    intro i s k j
    split
    · next h =>
      subst h
      simp only [invShiftRow, List.foldl_cons, List.foldl_nil, cell_put, Prod.mk.injEq, true_and]
      fin_cases j <;> rfl
    · next h => simp [invShiftRow, cell_put, h]
  have hsmul : ∀ i : Fin 4, i.1 • (-1 : Fin Nb) = -i := by decide
  exact (hmoves.rows s i j).trans (by rw [hsmul, sub_eq_add_neg])

/-! ### Inverses -/

/-- `inv_sub_bytes` undoes `sub_bytes`. -/
theorem invSubBytes_subBytes (s : State) : s.subBytes.invSubBytes = s := by
  apply ext_cell
  intro p
  rw [invSubBytes, cell_subWith, subBytes, cell_subWith, invSBox_sBox]

/-- `sub_bytes` undoes `inv_sub_bytes`. -/
theorem subBytes_invSubBytes (s : State) : s.invSubBytes.subBytes = s := by
  apply ext_cell
  intro p
  rw [subBytes, cell_subWith, invSubBytes, cell_subWith, sBox_invSBox]

/-- `inv_shift_rows` undoes `shift_rows`. -/
theorem invShiftRows_shiftRows (s : State) : s.shiftRows.invShiftRows = s := by
  apply ext_cell
  rintro ⟨i, j⟩
  rw [cell_invShiftRows, cell_shiftRows, sub_add_cancel]

/-- `shift_rows` undoes `inv_shift_rows`. -/
theorem shiftRows_invShiftRows (s : State) : s.invShiftRows.shiftRows = s := by
  apply ext_cell
  rintro ⟨i, j⟩
  rw [cell_shiftRows, cell_invShiftRows, add_sub_cancel_right]

/-- `add_round_key` undoes itself. -/
theorem addRoundKey_addRoundKey (s : State) (w : Schedule ks) (r : Fin (ks.nr + 1)) :
    (s.addRoundKey w r).addRoundKey w r = s := by
  apply ext_cell
  rintro ⟨i, j⟩
  rw [cell_addRoundKey, cell_addRoundKey, UInt8.xor_assoc, UInt8.xor_self, UInt8.xor_zero]

private theorem mixWith_mixWith {a b : Word} (h : coefMult a b = oneWord) (s : State) :
    (s.mixWith b).mixWith a = s := by
  apply ext_cell
  rintro ⟨i, j⟩
  rw [← get_column, ← get_column, column_mixWith, column_mixWith, ← coefMult_assoc, h,
    coefMult_oneWord]

/-- `inv_mix_columns` undoes `mix_columns`. -/
theorem invMixColumns_mixColumns (s : State) : s.mixColumns.invMixColumns = s :=
  mixWith_mixWith (by decide +kernel) s

/-- `mix_columns` undoes `inv_mix_columns`. -/
theorem mixColumns_invMixColumns (s : State) : s.invMixColumns.mixColumns = s :=
  mixWith_mixWith (by decide +kernel) s

end State

end HorrorScope.Aes
