import HorrorScope.Aes.Cipher

/-!
# One wrong byte during an encryption

An encryption in which one byte of the state is replaced between two transformations. How many bytes
of the output change is decided by how many times `mix_columns` still runs.
-/

namespace HorrorScope.Aes

open HorrorScope.Base

variable {ks : KeySize}

/-- `cipher` with the byte in one cell replaced by `x` between two statements. -/
def faulted (w : Schedule ks) (inp : Block) (done rest : List (Stmt ks)) (p : Fin 4 × Fin Nb)
    (x : UInt8) : Block :=
  store blank (rest.foldl (exec w) ((done.foldl (exec w) (load blank inp)).put p x))

/-! ### Where two states differ -/

/-- The cells in which two states differ. -/
def diff (s t : State) : Finset (Fin 4 × Fin Nb) := {p | s.cell p ≠ t.cell p}

private theorem mem_diff {s t : State} {p : Fin 4 × Fin Nb} :
    p ∈ diff s t ↔ s.cell p ≠ t.cell p := by
  simp [diff]

private theorem diff_put (s : State) {p : Fin 4 × Fin Nb} {x : UInt8} (hx : x ≠ s.cell p) :
    diff s (s.put p x) = {p} := by
  ext q
  rw [mem_diff, State.cell_put, Finset.mem_singleton]
  split
  · next h => simp [h, hx.symm]
  · next h => simp [h]

/-- One cell put anew is one cell changed. -/
theorem card_diff_put (s : State) {p : Fin 4 × Fin Nb} {x : UInt8} (hx : x ≠ s.cell p) :
    (diff s (s.put p x)).card = 1 := by
  rw [diff_put s hx, Finset.card_singleton]

private theorem diff_subBytes (s t : State) : diff s.subBytes t.subBytes = diff s t := by
  ext p
  rw [mem_diff, mem_diff, State.subBytes, State.subBytes, State.cell_subWith, State.cell_subWith,
    sBox_injective.ne_iff]

private theorem diff_addRoundKey (s t : State) (w : Schedule ks) (r : Fin (ks.nr + 1)) :
    diff (s.addRoundKey w r) (t.addRoundKey w r) = diff s t := by
  ext ⟨i, j⟩
  rw [mem_diff, mem_diff, State.cell_addRoundKey, State.cell_addRoundKey, ne_eq, ne_eq,
    UInt8.xor_left_inj]

/-- Where `shift_rows` takes a cell from. -/
def shifted : Equiv.Perm (Fin 4 × Fin Nb) where
  toFun p := (p.1, p.2 + p.1)
  invFun p := (p.1, p.2 - p.1)
  left_inv p := by simp
  right_inv p := by simp

private theorem mem_diff_shiftRows {s t : State} {p : Fin 4 × Fin Nb} :
    p ∈ diff s.shiftRows t.shiftRows ↔ shifted p ∈ diff s t := by
  rw [mem_diff, mem_diff, ← Prod.mk.eta (p := p), State.cell_shiftRows, State.cell_shiftRows]
  rfl

private theorem card_diff_shiftRows (s t : State) :
    (diff s.shiftRows t.shiftRows).card = (diff s t).card := by
  apply Finset.card_bij fun p _ ↦ shifted p
  · exact fun p hp ↦ mem_diff_shiftRows.mp hp
  · exact fun p _ q _ h ↦ shifted.injective h
  · intro q hq
    refine ⟨shifted.symm q, mem_diff_shiftRows.mpr ?_, shifted.apply_symm_apply q⟩
    rwa [shifted.apply_symm_apply]

private theorem gf_cell_mixColumns (s : State) (i : Fin 4) (j : Fin Nb) :
    gf (s.mixColumns.cell (i, j)) =
      ∑ k, gf (State.mixPoly.get (i - k)) * gf (s.cell (k, j)) := by
  rw [← State.get_column, State.mixColumns, State.column_mixWith, gf_get_coefMult]
  simp only [State.get_column]

/-- A column with one wrong byte has four behind `mix_columns`: no coefficient is zero. -/
theorem mem_diff_mixColumns {s t : State} {j : Fin Nb}
    (h : ∀ i i', (i, j) ∈ diff s t → (i', j) ∈ diff s t → i = i') (i : Fin 4) :
    (i, j) ∈ diff s.mixColumns t.mixColumns ↔ ∃ k, (k, j) ∈ diff s t := by
  have hcoef : ∀ k : Fin 4, State.mixPoly.get k ≠ 0 := by decide
  rw [mem_diff, ← gf_injective.ne_iff, gf_cell_mixColumns, gf_cell_mixColumns]
  constructor
  · intro hne
    by_contra hnone
    apply hne
    refine Finset.sum_congr rfl fun k _ ↦ ?_
    have hk : s.cell (k, j) = t.cell (k, j) := by
      by_contra hk
      exact hnone ⟨k, mem_diff.mpr hk⟩
    rw [hk]
  · rintro ⟨k, hk⟩ heq
    apply mem_diff.mp hk
    -- the other terms are equal and cancel
    have hother : ∀ l ∈ Finset.univ.erase k, s.cell (l, j) = t.cell (l, j) := by
      intro l hl
      by_contra hne
      exact Finset.ne_of_mem_erase hl (h l k (mem_diff.mpr hne) hk)
    rw [← Finset.add_sum_erase _ _ (Finset.mem_univ k),
      ← Finset.add_sum_erase _ _ (Finset.mem_univ k),
      Finset.sum_congr rfl fun l hl ↦ by rw [hother l hl]] at heq
    exact gf_mul_left_cancel (hcoef (i - k)) (add_right_cancel heq)

/-! ### What is left of the encryption -/

/-- Without `mix_columns` no wrong byte is added or lost. -/
theorem card_diff_foldl (w : Schedule ks) {l : List (Stmt ks)} (hl : .mixColumns ∉ l)
    (s t : State) : (diff (l.foldl (exec w) s) (l.foldl (exec w) t)).card = (diff s t).card := by
  induction l generalizing s t with
  | nil => rfl
  | cons st l ih =>
    rw [List.mem_cons, not_or] at hl
    rw [List.foldl_cons, List.foldl_cons, ih hl.2]
    cases st with
    | subBytes => simp only [exec, diff_subBytes]
    | shiftRows => simp only [exec, card_diff_shiftRows]
    | mixColumns => exact absurd rfl hl.1
    | addRoundKey r => simp only [exec, diff_addRoundKey]

/-- `mix_columns` makes a wrong column of one wrong byte. -/
theorem diff_mixColumns_of_card {s t : State} (h : (diff s t).card = 1) :
    ∃ j, ∀ p, p ∈ diff s.mixColumns t.mixColumns ↔ p.2 = j := by
  obtain ⟨⟨i, j⟩, hp⟩ := Finset.card_eq_one.mp h
  refine ⟨j, fun q ↦ ?_⟩
  obtain ⟨k, l⟩ := q
  rw [mem_diff_mixColumns]
  · simp only [hp, Finset.mem_singleton, Prod.mk.injEq, exists_eq_left]
  · intro k k' hk hk'
    rw [hp, Finset.mem_singleton, Prod.mk.injEq] at hk hk'
    rw [hk.1, hk'.1]

private theorem card_diff_of_column {s t : State} {j : Fin Nb} (h : ∀ p, p ∈ diff s t ↔ p.2 = j) :
    (diff s t).card = 4 := by
  have hcolumn : diff s t = Finset.univ.filter fun p ↦ p.2 = j := by
    ext p
    rw [h, Finset.mem_filter_univ]
  rw [hcolumn]
  clear hcolumn h
  revert j
  decide

/-- A wrong column is spread over all columns by `shift_rows`, and from there over the whole state
by the next `mix_columns`. -/
theorem diff_mixColumns_shiftRows {s t : State} {j : Fin Nb} (h : ∀ p, p ∈ diff s t ↔ p.2 = j) :
    diff s.shiftRows.mixColumns t.shiftRows.mixColumns = Finset.univ := by
  have hmem : ∀ i k, (i, k) ∈ diff s.shiftRows t.shiftRows ↔ i = j - k := by
    intro i k
    rw [mem_diff_shiftRows, h, eq_sub_iff_add_eq']
    rfl
  ext ⟨i, k⟩
  rw [mem_diff_mixColumns]
  · simp only [hmem, exists_eq, Finset.mem_univ]
  · intro l l' hl hl'
    rw [(hmem l k).mp hl, (hmem l' k).mp hl']

/-- The statements from the last `mix_columns` on. -/
def fromLastMix (ks : KeySize) : List (Stmt ks) :=
  [.mixColumns, .addRoundKey ⟨ks.nr - 1, by omega⟩, .subBytes, .shiftRows,
    .addRoundKey (Fin.last _)]

/-- The statements from the last `mix_columns` but one to the last. -/
def toLastMix (ks : KeySize) : List (Stmt ks) :=
  [.mixColumns, .addRoundKey ⟨ks.nr - 2, by omega⟩, .subBytes, .shiftRows]

private theorem split_one {rest : List (Stmt ks)} (hrest : rest <:+ statements ks)
    (hcount : rest.count .mixColumns = 1) :
    ∃ l, .mixColumns ∉ l ∧ rest = l ++ fromLastMix ks := by
  have hall : ∀ rest ∈ (statements ks).tails, rest.count .mixColumns = 1 →
      .mixColumns ∉ rest.take (rest.length - 5) ∧
        rest = rest.take (rest.length - 5) ++ fromLastMix ks := by
    cases ks <;> decide +kernel
  exact ⟨_, hall rest (List.mem_tails _ _ |>.mpr hrest) hcount⟩

private theorem split_two {rest : List (Stmt ks)} (hrest : rest <:+ statements ks)
    (hcount : rest.count .mixColumns = 2) :
    ∃ l, .mixColumns ∉ l ∧ rest = l ++ (toLastMix ks ++ fromLastMix ks) := by
  have hall : ∀ rest ∈ (statements ks).tails, rest.count .mixColumns = 2 →
      .mixColumns ∉ rest.take (rest.length - 9) ∧
        rest = rest.take (rest.length - 9) ++ (toLastMix ks ++ fromLastMix ks) := by
    cases ks <;> decide +kernel
  exact ⟨_, hall rest (List.mem_tails _ _ |>.mpr hrest) hcount⟩

private theorem card_diff_fromLastMix (w : Schedule ks) (s t : State) :
    (diff ((fromLastMix ks).foldl (exec w) s) ((fromLastMix ks).foldl (exec w) t)).card =
      (diff s.mixColumns t.mixColumns).card := by
  simp only [fromLastMix, List.foldl_cons, List.foldl_nil, exec, diff_addRoundKey,
    card_diff_shiftRows, diff_subBytes]

/-- The wrong bytes at the end, from one wrong byte in front of the statements that are left. -/
theorem card_diff_rest (w : Schedule ks) {rest : List (Stmt ks)} (hrest : rest <:+ statements ks)
    {s t : State} (h : (diff s t).card = 1) :
    (rest.count .mixColumns = 0 →
      (diff (rest.foldl (exec w) s) (rest.foldl (exec w) t)).card = 1) ∧
    (rest.count .mixColumns = 1 →
      (diff (rest.foldl (exec w) s) (rest.foldl (exec w) t)).card = 4) ∧
    (rest.count .mixColumns = 2 →
      (diff (rest.foldl (exec w) s) (rest.foldl (exec w) t)).card = 16) := by
  refine ⟨fun hcount ↦ ?_, fun hcount ↦ ?_, fun hcount ↦ ?_⟩
  · rw [card_diff_foldl w (List.count_eq_zero.mp hcount), h]
  · obtain ⟨l, hl, rfl⟩ := split_one hrest hcount
    rw [← card_diff_foldl w hl] at h
    obtain ⟨j, hj⟩ := diff_mixColumns_of_card h
    rw [List.foldl_append, List.foldl_append, card_diff_fromLastMix, card_diff_of_column hj]
  · obtain ⟨l, hl, rfl⟩ := split_two hrest hcount
    rw [← card_diff_foldl w hl] at h
    obtain ⟨j, hj⟩ := diff_mixColumns_of_card h
    rw [List.foldl_append, List.foldl_append, List.foldl_append, List.foldl_append,
      card_diff_fromLastMix, toLastMix]
    simp only [List.foldl_cons, List.foldl_nil, exec]
    rw [diff_mixColumns_shiftRows (j := j)]
    · rfl
    · intro p
      rw [diff_subBytes, diff_addRoundKey, hj]

/-- In how many bytes two blocks differ. -/
def changedBytes (a b : Block) : Nat := (Finset.univ.filter fun k ↦ a.get k ≠ b.get k).card

private theorem changedBytes_store (out out' : Block) (s t : State) :
    changedBytes (store out s) (store out' t) = (diff s t).card := by
  symm
  apply Finset.card_bij fun p _ ↦ blockPlace p
  · intro p hp
    rw [Finset.mem_filter, get_store, get_store]
    exact ⟨Finset.mem_univ _, mem_diff.mp hp⟩
  · exact fun p _ q _ h ↦ blockPlace_injective h
  · intro k hk
    obtain ⟨p, rfl⟩ := blockPlace_surjective k
    rw [Finset.mem_filter, get_store, get_store] at hk
    exact ⟨p, mem_diff.mpr hk.2, rfl⟩

/-- The output of a faulted encryption differs in as many bytes as the last states do. -/
theorem changedBytes_cipher_faulted (w : Schedule ks) (inp : Block) {done rest : List (Stmt ks)}
    (hsplit : done ++ rest = statements ks) (p : Fin 4 × Fin Nb) (x : UInt8) :
    changedBytes (cipher w inp) (faulted w inp done rest p x) =
      (diff (rest.foldl (exec w) (done.foldl (exec w) (load blank inp)))
        (rest.foldl (exec w) ((done.foldl (exec w) (load blank inp)).put p x))).card := by
  rw [cipher_eq_statements, ← hsplit, List.foldl_append, faulted, changedBytes_store]

/-- With any expanded key and input, one wrong byte in the state behind the last `mix_columns`
changes one byte of the output, one between the last two changes four, and one between the two
before changes all sixteen. -/
theorem changedBytes_faulted (w : Schedule ks) (inp : Block) {done rest : List (Stmt ks)}
    (hsplit : done ++ rest = statements ks) (p : Fin 4 × Fin Nb) {x : UInt8}
    (hx : x ≠ (done.foldl (exec w) (load blank inp)).cell p) :
    (rest.count .mixColumns = 0 → changedBytes (cipher w inp) (faulted w inp done rest p x) = 1) ∧
    (rest.count .mixColumns = 1 → changedBytes (cipher w inp) (faulted w inp done rest p x) = 4) ∧
    (rest.count .mixColumns = 2 →
      changedBytes (cipher w inp) (faulted w inp done rest p x) = 16) := by
  rw [changedBytes_cipher_faulted w inp hsplit]
  exact card_diff_rest w ⟨done, hsplit⟩ (card_diff_put _ hx)

/-- A byte with its lowest bit turned over is another byte. -/
theorem xor_one_ne (b : UInt8) : b ^^^ 1 ≠ b := by
  refine forall_uInt8 (p := fun b ↦ b ^^^ 1 ≠ b) ?_ b
  decide +kernel

/-- The lowest bit of the first cell turned over in the last round but one, in front of its
`mix_columns`. -/
theorem changedBytes_faulted_bit :
    ((statements .b128).drop 33).count .mixColumns = 1 ∧
      changedBytes (cipher (.replicate _ 0 : Schedule .b128) (.replicate _ 0))
        (faulted (.replicate _ 0) (.replicate _ 0) ((statements .b128).take 33)
          ((statements .b128).drop 33) (0, 0)
          ((((statements .b128).take 33).foldl (exec (.replicate _ 0))
            (load blank (.replicate _ 0))).cell (0, 0) ^^^ 1)) = 4 := by
  have hcount : ((statements .b128).drop 33).count .mixColumns = 1 := by decide +kernel
  refine ⟨hcount, ?_⟩
  exact (changedBytes_faulted (.replicate _ 0) (.replicate _ 0)
    (List.take_append_drop 33 (statements .b128)) (0, 0) (xor_one_ne _)).2.1 hcount

end HorrorScope.Aes
