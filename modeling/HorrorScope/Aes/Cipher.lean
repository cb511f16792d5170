import HorrorScope.Aes.State

/-!
# `cipher` and `inv_cipher`

`src/toe-arduino/sketch_slowAes/aes.c:383-443`. The two undo each other for every expanded key,
whatever bytes it has.
-/

namespace HorrorScope.Aes

open HorrorScope.Base

/-- `in` and `out`. -/
abbrev Block := List.Vector UInt8 (4 * Nb)

private theorem blockPlace_lt (i : Fin 4) (j : Fin Nb) : i.1 + 4 * j.1 < 4 * Nb := by
  have hj : j.1 < 4 := j.2
  change i.1 + 4 * j.1 < 16
  omega

/-- The place `i+4*j` of row `i` and column `j` in a block. -/
def blockPlace (p : Fin 4 × Fin Nb) : Fin (4 * Nb) := ⟨p.1 + 4 * p.2, blockPlace_lt p.1 p.2⟩

/-- Each place has one row and column. -/
theorem blockPlace_injective : Function.Injective blockPlace := by
  intro p q
  revert p q
  decide

/-- Every place has a row and a column. -/
theorem blockPlace_surjective : Function.Surjective blockPlace := by
  intro k
  revert k
  decide

/-- The loop that fills the state (`aes.c:388-392`). -/
def load (s : State) (inp : Block) : State :=
  (List.finRange 4).foldl (fun s i ↦
    (List.finRange Nb).foldl (fun s j ↦ s.put (i, j) (inp.get (blockPlace (i, j)))) s) s

/-- The loop that fills the output (`aes.c:407-411`). -/
def store (out : Block) (s : State) : Block :=
  (List.finRange 4).foldl (fun out i ↦
    (List.finRange Nb).foldl (fun out j ↦ out.set (blockPlace (i, j)) (s.cell (i, j))) out) out

/-- An array before its first use: every place is written before it is read. -/
def blank : List.Vector UInt8 (4 * Nb) := .replicate _ 0

variable {ks : KeySize}

/-- The rounds of the loops, from 1 to `Nr-1`. -/
def innerRounds (ks : KeySize) : List (Fin (ks.nr + 1)) :=
  (List.finRange (ks.nr - 1)).map fun r ↦ ⟨r.1 + 1, by have := r.2; omega⟩

/-- The body of the loop in `cipher` (`aes.c:397-400`). -/
def round (w : Schedule ks) (s : State) (r : Fin (ks.nr + 1)) : State :=
  s.subBytes.shiftRows.mixColumns.addRoundKey w r

/-- `cipher` (`aes.c:383`). -/
def cipher (w : Schedule ks) (inp : Block) : Block :=
  let s := load blank inp
  let s := s.addRoundKey w 0
  let s := (innerRounds ks).foldl (round w) s
  let s := s.subBytes.shiftRows.addRoundKey w (Fin.last _)
  store blank s

/-- The body of the loop in `inv_cipher` (`aes.c:428-431`). -/
def invRound (w : Schedule ks) (s : State) (r : Fin (ks.nr + 1)) : State :=
  (s.invShiftRows.invSubBytes.addRoundKey w r).invMixColumns

/-- `inv_cipher` (`aes.c:414`). -/
def invCipher (w : Schedule ks) (inp : Block) : Block :=
  let s := load blank inp
  let s := s.addRoundKey w (Fin.last _)
  let s := (innerRounds ks).reverse.foldl (invRound w) s
  let s := s.invShiftRows.invSubBytes.addRoundKey w 0
  store blank s

/-! ### An encryption as a sequence of statements -/

/-- The statements of `cipher` that change the state. -/
inductive Stmt (ks : KeySize) where
  | subBytes
  | shiftRows
  | mixColumns
  | addRoundKey (r : Fin (ks.nr + 1))
  deriving DecidableEq, Repr

/-- A statement. -/
def exec (w : Schedule ks) (s : State) : Stmt ks → State
  | .subBytes => s.subBytes
  | .shiftRows => s.shiftRows
  | .mixColumns => s.mixColumns
  | .addRoundKey r => s.addRoundKey w r

/-- The statements in the order in which they run. -/
def statements (ks : KeySize) : List (Stmt ks) :=
  .addRoundKey 0 ::
    ((innerRounds ks).flatMap fun r ↦ [.subBytes, .shiftRows, .mixColumns, .addRoundKey r]) ++
      [.subBytes, .shiftRows, .addRoundKey (Fin.last _)]

/-- `cipher` runs its statements on the state. -/
theorem cipher_eq_statements (w : Schedule ks) (inp : Block) :
    cipher w inp = store blank ((statements ks).foldl (exec w) (load blank inp)) := by
  have hrounds (s : State) : ((innerRounds ks).flatMap fun r ↦
      [Stmt.subBytes, .shiftRows, .mixColumns, .addRoundKey r]).foldl (exec w) s =
        (innerRounds ks).foldl (round w) s := by
    generalize innerRounds ks = rs
    induction rs generalizing s with
    | nil => rfl
    | cons r rs ih =>
      rw [List.flatMap_cons, List.foldl_append, ih]
      simp only [List.foldl_cons, List.foldl_nil, exec, round]
  rw [statements, List.cons_append, List.foldl_cons, List.foldl_append, hrounds, cipher]
  simp only [List.foldl_cons, List.foldl_nil, exec]

/-! ### The round trip -/

private theorem cell_load (s : State) (inp : Block) (p : Fin 4 × Fin Nb) :
    (load s inp).cell p = inp.get (blockPlace p) := by
  have hcell : ChangesPart State.cell (fun p _ ↦ inp.get (blockPlace p))
      (fun s p ↦ s.put p (inp.get (blockPlace p))) :=
    ⟨fun s p ↦ s.cell_put_self p _, fun s p q h ↦ s.cell_put_of_ne _ h⟩
  have hrow := hcell.rows (List.nodup_finRange Nb) List.mem_finRange
  exact congrFun (hrow.foldl_of_mem (List.nodup_finRange 4) (List.mem_finRange p.1) s) p.2

/-- The byte that `store` puts at a place. -/
theorem get_store (out : Block) (s : State) (p : Fin 4 × Fin Nb) :
    (store out s).get (blockPlace p) = s.cell p := by
  have hplace : ChangesPart (fun out p ↦ List.Vector.get out (blockPlace p)) (fun p _ ↦ s.cell p)
      (fun out p ↦ out.set (blockPlace p) (s.cell p)) := by
    constructor
    · intro out p
      exact List.Vector.get_set_same ..
    · intro out p q h
      exact List.Vector.get_set_of_ne (blockPlace_injective.ne h.symm) _
  have hrow := hplace.rows (List.nodup_finRange Nb) List.mem_finRange
  exact congrFun (hrow.foldl_of_mem (List.nodup_finRange 4) (List.mem_finRange p.1) out) p.2

private theorem load_store (s : State) (out : Block) (t : State) : load s (store out t) = t := by
  apply State.ext_cell
  intro p
  rw [cell_load, get_store]

private theorem store_load (out : Block) (s : State) (inp : Block) :
    store out (load s inp) = inp := by
  apply List.Vector.ext
  intro k
  obtain ⟨p, rfl⟩ := blockPlace_surjective k
  rw [get_store, cell_load]

private theorem invRound_round (w : Schedule ks) (s : State) (r : Fin (ks.nr + 1)) :
    invRound w (round w s r).subBytes.shiftRows r = s.subBytes.shiftRows := by
  rw [invRound, State.invShiftRows_shiftRows, State.invSubBytes_subBytes, round,
    State.addRoundKey_addRoundKey, State.invMixColumns_mixColumns]

private theorem round_invRound (w : Schedule ks) (s : State) (r : Fin (ks.nr + 1)) :
    round w (invRound w s r).invShiftRows.invSubBytes r = s.invShiftRows.invSubBytes := by
  rw [round, State.subBytes_invSubBytes, State.shiftRows_invShiftRows, invRound,
    State.mixColumns_invMixColumns, State.addRoundKey_addRoundKey]

/-- `inv_cipher` undoes `cipher`. -/
theorem invCipher_cipher (w : Schedule ks) (inp : Block) : invCipher w (cipher w inp) = inp := by
  have hrounds (s : State) : (innerRounds ks).reverse.foldl (invRound w)
      ((innerRounds ks).foldl (round w) s).subBytes.shiftRows = s.subBytes.shiftRows :=
    foldl_reverse_foldl (A := fun s : State ↦ s.subBytes.shiftRows) (invRound_round w) _ s
  simp only [invCipher, cipher, load_store, State.addRoundKey_addRoundKey, hrounds,
    State.invShiftRows_shiftRows, State.invSubBytes_subBytes, store_load]

private theorem cipher_invCipher (w : Schedule ks) (out : Block) :
    cipher w (invCipher w out) = out := by
  have hrounds (s : State) : (innerRounds ks).foldl (round w)
      ((innerRounds ks).reverse.foldl (invRound w) s).invShiftRows.invSubBytes =
        s.invShiftRows.invSubBytes := by
    have h := foldl_reverse_foldl (A := fun s : State ↦ s.invShiftRows.invSubBytes)
      (round_invRound w) (innerRounds ks).reverse s
    rwa [List.reverse_reverse] at h
  simp only [cipher, invCipher, load_store, State.addRoundKey_addRoundKey, hrounds,
    State.subBytes_invSubBytes, State.shiftRows_invShiftRows, store_load]

/-- With any expanded key, `inv_cipher` and `cipher` undo each other. -/
theorem cipher_inverse (w : Schedule ks) :
    Function.LeftInverse (invCipher w) (cipher w) ∧
      Function.RightInverse (invCipher w) (cipher w) :=
  ⟨invCipher_cipher w, cipher_invCipher w⟩

end HorrorScope.Aes
