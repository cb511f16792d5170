import HorrorScope.Aes.State

/-!
# `key_expansion`

`src/toe-arduino/sketch_slowAes/aes.c:141-160` and `310-381`. The loop fills the expanded key by the
recurrence of the standard, and any `Nk` consecutive words of the result determine the key.
-/

namespace HorrorScope.Aes

open HorrorScope.Base

/-- `sub_word` (`aes.c:315`). -/
def subWord (w : Word) : Word :=
  (List.finRange 4).foldl (fun w i ↦ w.set i (sBox (w.get i))) w

/-- `rot_word` (`aes.c:328`). -/
def rotWord (w : Word) : Word :=
  let tmp := w.get 0
  let w := ([0, 1, 2] : List (Fin 4)).foldl (fun w i ↦ w.set i (w.get (i + 1))) w
  w.set 3 tmp

/-- `Rcon` (`aes.c:146`), from the array `R` to what it leaves there. -/
def rcon (R : Word) (i : UInt8) : Word :=
  if i = 1 then R.set 0 0x01
  else if i > 1 then
    -- behind `i--`, the loop runs while `i-1 > 0`
    (fun R : Word ↦ R.set 0 (gmult (R.get 0) 0x02))^[i.toNat - 2] (R.set 0 0x02)
  else R

section Words

variable {n : Nat}

private theorem wordPlace_lt (i : Fin n) (k : Fin 4) : 4 * i.1 + k.1 < 4 * n := by omega

/-- The place `4*i+k`. -/
def wordPlace (i : Fin n) (k : Fin 4) : Fin (4 * n) := ⟨4 * i + k, wordPlace_lt i k⟩

/-- The index `d` before `i`. -/
def back (i : Fin n) (d : Nat) : Fin n := ⟨i - d, by omega⟩

/-- The word at `4*i`. -/
def word (w : List.Vector UInt8 (4 * n)) (i : Fin n) : Word := .ofFn fun k ↦ w.get (wordPlace i k)

/-- The four assignments to the places from `4*i` on. -/
def putWord (w : List.Vector UInt8 (4 * n)) (i : Fin n)
    (f : List.Vector UInt8 (4 * n) → Fin 4 → UInt8) : List.Vector UInt8 (4 * n) :=
  (List.finRange 4).foldl (fun w k ↦ w.set (wordPlace i k) (f w k)) w

end Words

variable {ks : KeySize}

/-- `uint8_t key[]`. -/
abbrev Key (ks : KeySize) := List.Vector UInt8 (4 * ks.nk)

/-- `len`, the number of words. -/
abbrev KeySize.len (ks : KeySize) : Nat := Nb * (ks.nr + 1)

private theorem KeySize.nk_lt_len (ks : KeySize) : ks.nk < ks.len := by cases ks <;> decide

private theorem KeySize.two_le_nk (ks : KeySize) : 2 ≤ ks.nk := by cases ks <;> decide

/-- What `key_expansion` changes: the expanded key and the array of `Rcon`. -/
structure Expansion (ks : KeySize) where
  w : Schedule ks
  R : Word

/-- The body of the second loop (`aes.c:359-379`). -/
def Expansion.step (e : Expansion ks) (i : Fin ks.len) : Expansion ks :=
  let tmp := word e.w (back i 1)
  let (tmp, R) :=
    if i % ks.nk = 0 then
      let R := rcon e.R (UInt8.ofNat (i / ks.nk))
      (coefAdd (subWord (rotWord tmp)) R, R)
    else if ks.nk > 6 ∧ i % ks.nk = 4 then (subWord tmp, e.R)
    else (tmp, e.R)
  ⟨putWord e.w i fun w k ↦ w.get (wordPlace (back i ks.nk) k) ^^^ tmp.get k, R⟩

/-- `key_expansion` (`aes.c:345`). -/
def keyExpansion (key : Key ks) (e : Expansion ks) : Expansion ks :=
  let w := (List.finRange ks.nk).foldl (fun (w : Schedule ks) (i : Fin ks.nk) ↦
    putWord w (i.castLE ks.nk_lt_len.le) fun _ k ↦ key.get (wordPlace i k)) e.w
  ((List.finRange ks.len).drop ks.nk).foldl Expansion.step ⟨w, e.R⟩

/-! ### The words -/

/-- Each byte goes through the S-box. -/
theorem get_subWord (w : Word) (k : Fin 4) : (subWord w).get k = sBox (w.get k) := by
  have hlist : List.finRange 4 = [0, 1, 2, 3] := rfl
  rw [subWord, hlist]
  simp only [List.foldl_cons, List.foldl_nil, List.Vector.get_set_eq_if]
  fin_cases k <;> simp

/-- The first byte goes behind the last one. -/
theorem get_rotWord (w : Word) (k : Fin 4) : (rotWord w).get k = w.get (k + 1) := by
  simp only [rotWord, List.foldl_cons, List.foldl_nil, List.Vector.get_set_eq_if]
  fin_cases k <;> simp

/-- The sum is the exclusive or, byte by byte. -/
theorem get_coefAdd (a b : Word) (k : Fin 4) : (coefAdd a b).get k = a.get k ^^^ b.get k := by
  fin_cases k <;> rfl

/-! ### The recurrence -/

section Words

variable {n : Nat}

private theorem wordPlace_inj {i j : Fin n} {k l : Fin 4} :
    wordPlace i k = wordPlace j l ↔ i = j ∧ k = l := by
  simp only [wordPlace, Fin.ext_iff]
  omega

/-- A byte of a word. -/
@[simp] theorem get_word (w : List.Vector UInt8 (4 * n)) (i : Fin n) (k : Fin 4) :
    (word w i).get k = w.get (wordPlace i k) := List.Vector.get_ofFn _ k

/-- The four assignments change one word, if what they assign does not depend on it. -/
theorem word_putWord {f : List.Vector UInt8 (4 * n) → Fin 4 → UInt8} {i : Fin n}
    (hf : ∀ v l x, f (v.set (wordPlace i l) x) = f v) (w : List.Vector UInt8 (4 * n)) (j : Fin n) :
    word (putWord w i f) j = if j = i then .ofFn (f w) else word w j := by
  have hlist : List.finRange 4 = [0, 1, 2, 3] := rfl
  apply List.Vector.ext
  intro k
  rw [get_word, putWord, hlist]
  simp only [List.foldl_cons, List.foldl_nil, hf, List.Vector.get_set_eq_if, wordPlace_inj]
  by_cases h : j = i
  · subst h
    fin_cases k <;> simp
  · simp [h, Ne.symm h]

private theorem word_injective {w w' : List.Vector UInt8 (4 * n)} (h : ∀ i, word w i = word w' i) :
    w = w' := by
  apply List.Vector.ext
  intro p
  have hp : p = wordPlace ⟨p / 4, by omega⟩ ⟨p % 4, by omega⟩ := by
    apply Fin.ext
    simp only [wordPlace]
    omega
  rw [hp, ← get_word, ← get_word, h]

end Words

/-- `{02}` to the power `n`. -/
def power (n : Nat) : UInt8 := (fun x ↦ gmult x 0x02)^[n] 0x01

private theorem power_succ (n : Nat) : power (n + 1) = gmult (power n) 0x02 :=
  Function.iterate_succ_apply' ..

private theorem gf_power (n : Nat) : gf (power n) = gf 0x02 ^ n := by
  induction n with
  | zero => exact gf_one
  | succ n ih => rw [power_succ, gf_gmult, ih, pow_succ]

/-- The word with one byte in front of zeros. -/
def single (x : UInt8) : Word := ⟨[x, 0, 0, 0], rfl⟩

/-- The round constant of the standard. -/
def roundConstant (j : Nat) : Word := single (power (j - 1))

/-- Behind its first byte the word is zero. -/
theorem get_single_of_ne (x : UInt8) {k : Fin 4} (h : k ≠ 0) : (single x).get k = 0 := by
  fin_cases k
  · exact absurd rfl h
  · rfl
  · rfl
  · rfl

private theorem set_zero_eq_single {R : Word} (hR : ∀ k ≠ 0, R.get k = 0) (x : UInt8) :
    R.set 0 x = single x := by
  apply List.Vector.ext
  intro k
  rw [List.Vector.get_set_eq_if]
  split
  · next h => rw [← h]; rfl
  · next h =>
    rw [hR k (Ne.symm h), get_single_of_ne x (Ne.symm h)]

private theorem rcon_eq_roundConstant {R : Word} (hR : ∀ k ≠ 0, R.get k = 0) {j : Nat} (h : 0 < j)
    (hj : j < 256) : rcon R (UInt8.ofNat j) = roundConstant j := by
  have hloop (n : Nat) : (fun R : Word ↦ R.set 0 (gmult (R.get 0) 0x02))^[n] (single 0x02) =
      single (power (n + 1)) := by
    induction n with
    | zero => rfl
    | succ n ih =>
      rw [Function.iterate_succ_apply', ih, power_succ (n + 1)]
      rfl
  have hnat : (UInt8.ofNat j).toNat = j := by rw [UInt8.toNat_ofNat', Nat.mod_eq_of_lt hj]
  rw [rcon, set_zero_eq_single hR, set_zero_eq_single hR, roundConstant]
  split
  · next h1 =>
    have : j = 1 := hnat.symm.trans (congrArg UInt8.toNat h1)
    rw [this]
    rfl
  · next h1 =>
    have hne : j ≠ 1 := fun he ↦ h1 (by rw [he]; rfl)
    have hgt : UInt8.ofNat j > 1 := by
      rw [gt_iff_lt, UInt8.lt_iff_toNat_lt, hnat]
      change 1 < j
      omega
    rw [if_pos hgt, hnat, hloop, show j - 2 + 1 = j - 1 by omega]

/-- The sum of two words of the standard. -/
def xorWord (a b : Word) : Word := .map₂ (· ^^^ ·) a b

/-- `temp` of the standard for word `i`, from the word before it: each byte goes through the S-box
with that behind it in its place, through the S-box alone, or stays. -/
def temp (ks : KeySize) (i : Nat) (t : Word) : Word := .ofFn fun k ↦
  if i % ks.nk = 0 then sBox (t.get (k + 1)) ^^^ (roundConstant (i / ks.nk)).get k
  else if ks.nk > 6 ∧ i % ks.nk = 4 then sBox (t.get k)
  else t.get k

/-- The words before `m` are those of the standard's recurrence. -/
structure ExpandedTo (key : Key ks) (m : Nat) (w : Schedule ks) : Prop where
  head : ∀ i : Fin ks.nk, word w (i.castLE ks.nk_lt_len.le) = word key i
  tail : ∀ i : Fin ks.len, ks.nk ≤ i → i < m → word w i =
    xorWord (word w (back i ks.nk)) (temp ks i (word w (back i 1)))

private theorem KeySize.len_lt (ks : KeySize) : ks.len < 256 := by cases ks <;> decide

/-- One iteration, with the array of `Rcon` as it is before every iteration. -/
theorem Expansion.step_eq {e : Expansion ks} (hR : ∀ k ≠ 0, e.R.get k = 0) {i : Fin ks.len}
    (hi : ks.nk ≤ i) : ∃ R : Word, (∀ k ≠ 0, R.get k = 0) ∧ e.step i =
      ⟨putWord e.w i fun w k ↦ w.get (wordPlace (back i ks.nk) k) ^^^
        (temp ks i (word e.w (back i 1))).get k, R⟩ := by
  have hpos : 0 < ks.nk := Nat.lt_of_lt_of_le (by decide) ks.two_le_nk
  unfold Expansion.step temp
  simp only [List.Vector.get_ofFn]
  split
  · have hdiv : 0 < i.1 / ks.nk := Nat.div_pos hi hpos
    have hlt : i.1 / ks.nk < 256 :=
      Nat.lt_of_le_of_lt (Nat.div_le_self _ _) (i.2.trans ks.len_lt)
    refine ⟨roundConstant (i / ks.nk), fun k hk ↦ get_single_of_ne _ hk, ?_⟩
    simp only [rcon_eq_roundConstant hR hdiv hlt, get_coefAdd, get_subWord, get_rotWord]
  · split
    · exact ⟨e.R, hR, by simp only [get_subWord]⟩
    · exact ⟨e.R, hR, rfl⟩

/-- What an iteration makes of each word. -/
theorem Expansion.word_step {e : Expansion ks} (hR : ∀ k ≠ 0, e.R.get k = 0) {i : Fin ks.len}
    (hi : ks.nk ≤ i) (j : Fin ks.len) :
    word (e.step i).w j =
      if j = i then xorWord (word e.w (back i ks.nk)) (temp ks i (word e.w (back i 1)))
      else word e.w j := by
  have hne : back i ks.nk ≠ i := by
    have h2 := ks.two_le_nk
    simp only [back, ne_eq, Fin.ext_iff]
    omega
  obtain ⟨R, -, hstep⟩ := step_eq hR hi
  rw [hstep, word_putWord]
  · split
    · apply List.Vector.ext
      intro k
      rw [List.Vector.get_ofFn, xorWord, List.Vector.get_map₂, get_word]
    · rfl
  · intro v l x
    funext k
    rw [List.Vector.get_set_of_ne]
    exact fun h ↦ hne (wordPlace_inj.mp h).1.symm

/-- What holds in front of iteration `m`. -/
structure Loop (key : Key ks) (m : Nat) (e : Expansion ks) : Prop where
  expanded : ExpandedTo key m e.w
  tail_eq_zero : ∀ k ≠ 0, e.R.get k = 0

private theorem Loop.step {key : Key ks} {e : Expansion ks} (i : Fin ks.len) (hi : ks.nk ≤ i)
    (h : Loop key i e) : Loop key (i + 1) (e.step i) := by
  have hword := Expansion.word_step h.tail_eq_zero hi
  have hpos := ks.two_le_nk
  -- the words before `i` stay as they are
  have hbefore (j : Fin ks.len) (hj : j.1 < i.1) : word (e.step i).w j = word e.w j := by
    rw [hword, if_neg (Fin.ne_of_lt hj)]
  refine ⟨⟨fun j ↦ ?_, fun j hj hji ↦ ?_⟩, ?_⟩
  · rw [hbefore _ (Nat.lt_of_lt_of_le j.2 hi), h.expanded.head]
  · have hb (d : Nat) (hd : 0 < d) : word (e.step i).w (back j d) = word e.w (back j d) :=
      hbefore _ (by simp only [back]; omega)
    rw [hb _ (by omega), hb 1 (by omega)]
    by_cases hji' : j = i
    · rw [hword, if_pos hji', hji']
    · have hlt : j.1 < i.1 := by
        have := Fin.val_ne_of_ne hji'
        omega
      rw [hbefore j hlt, h.expanded.tail j hj hlt]
  · obtain ⟨R, hR, hstep⟩ := Expansion.step_eq h.tail_eq_zero hi
    rw [hstep]
    exact hR

/-- At the end the loop has filled the whole array. -/
theorem loop_keyExpansion (key : Key ks) {e : Expansion ks} (hR : ∀ k ≠ 0, e.R.get k = 0) :
    Loop key ks.len (keyExpansion key e) := by
  have hcopy : ChangesPart
      (fun (w : Schedule ks) (i : Fin ks.nk) ↦ word w (i.castLE ks.nk_lt_len.le))
      (fun i _ ↦ word key i) (fun w i ↦
        putWord w (i.castLE ks.nk_lt_len.le) fun _ k ↦ key.get (wordPlace i k)) := by
    constructor
    · intro w i
      rw [word_putWord fun _ _ _ ↦ rfl, if_pos rfl]
      rfl
    · intro w i j hj
      rw [word_putWord fun _ _ _ ↦ rfl, if_neg]
      exact (Fin.castLE_injective _).ne hj
  have hstart : Loop key ks.nk ⟨(List.finRange ks.nk).foldl (fun (w : Schedule ks) (i : Fin ks.nk) ↦
      putWord w (i.castLE ks.nk_lt_len.le) fun _ k ↦ key.get (wordPlace i k)) e.w, e.R⟩ := by
    refine ⟨⟨fun i ↦ ?_, fun i hi hlt ↦ ?_⟩, hR⟩
    · exact hcopy.foldl_of_mem (List.nodup_finRange _) (List.mem_finRange i) e.w
    · omega
  exact foldl_drop_finRange (P := Loop key) ks.nk_lt_len.le (fun i hi e ↦ Loop.step i hi) hstart

/-- The expanded key is the one of the standard, whatever was in the arrays: the key, and behind it
the recurrence, byte for byte, with the powers of `{02}` as round constants. -/
theorem keyExpansion_standard (key : Key ks) (e : Expansion ks) (hR : ∀ k ≠ 0, e.R.get k = 0) :
    ExpandedTo key ks.len (keyExpansion key e).w ∧
      ∀ j, gf ((roundConstant j).get 0) = gf 0x02 ^ (j - 1) :=
  ⟨(loop_keyExpansion key hR).expanded, fun j ↦ gf_power (j - 1)⟩

/-- The key of zeros, in an array of other bytes. -/
theorem keyExpansion_standard_zero :
    (∀ k ≠ 0, (single 0x02).get k = 0) ∧
      ExpandedTo (.replicate _ 0 : Key .b128) KeySize.b128.len
        (keyExpansion (.replicate _ 0 : Key .b128) ⟨.replicate _ 0xff, single 0x02⟩).w := by
  have hR : ∀ k ≠ 0, (single 0x02).get k = 0 := fun k hk ↦ get_single_of_ne _ hk
  exact ⟨hR, (keyExpansion_standard (.replicate _ 0) ⟨.replicate _ 0xff, single 0x02⟩ hR).1⟩

/-- The recurrence leaves no choice. -/
theorem ExpandedTo.unique {key : Key ks} {w w' : Schedule ks} (h : ExpandedTo key ks.len w)
    (h' : ExpandedTo key ks.len w') : w = w' := by
  have hpos := ks.two_le_nk
  apply word_injective
  rintro ⟨i, hi⟩
  induction i using Nat.strong_induction_on with
  | _ i ih =>
    by_cases hlt : i < ks.nk
    · exact (h.head ⟨i, hlt⟩).trans (h'.head ⟨i, hlt⟩).symm
    · have hback (d : Nat) (hd : 0 < d) : word w (back ⟨i, hi⟩ d) = word w' (back ⟨i, hi⟩ d) :=
        ih (i - d) (by omega) _
      rw [h.tail ⟨i, hi⟩ (Nat.le_of_not_lt hlt) hi, h'.tail ⟨i, hi⟩ (Nat.le_of_not_lt hlt) hi,
        hback ks.nk (by omega), hback 1 (by omega)]

/-! ### The key from a part of the schedule -/

private theorem xorWord_right_cancel {a b c : Word} (h : xorWord a c = xorWord b c) : a = b := by
  apply List.Vector.ext
  intro k
  have hk := congrArg (List.Vector.get · k) h
  simpa only [xorWord, List.Vector.get_map₂, UInt8.xor_left_inj] using hk

/-- Two schedules that agree on `Nk` words in a row agree on all the words before them. -/
theorem ExpandedTo.word_eq_of_window {key key' : Key ks} {w w' : Schedule ks}
    (h : ExpandedTo key ks.len w) (h' : ExpandedTo key' ks.len w') {m : Nat}
    (hm : m + ks.nk ≤ ks.len)
    (hw : ∀ i : Fin ks.len, m ≤ i → i < m + ks.nk → word w i = word w' i) :
    ∀ i : Fin ks.len, i < m + ks.nk → word w i = word w' i := by
  have hpos := ks.two_le_nk
  induction m with
  | zero => exact fun i hi ↦ hw i (Nat.zero_le i) hi
  | succ m ih =>
    -- word `m` is what word `m + Nk` was computed from
    let top : Fin ks.len := ⟨m + ks.nk, by omega⟩
    let bottom : Fin ks.len := ⟨m, by omega⟩
    have hback : back top ks.nk = bottom := Fin.ext (Nat.add_sub_cancel m ks.nk)
    have hm' : word w bottom = word w' bottom := by
      have ht := hw top (by simp only [top]; omega) (by simp only [top]; omega)
      have hb := hw (back top 1) (by simp only [top, back]; omega)
        (by simp only [top, back]; omega)
      rw [h.tail top (by simp only [top]; omega) top.2,
        h'.tail top (by simp only [top]; omega) top.2, hb, hback] at ht
      exact xorWord_right_cancel ht
    have hall := ih (by omega) fun i hmi hi ↦ by
      by_cases him : i.1 = m
      · have he : i = bottom := Fin.ext him
        rw [he, hm']
      · exact hw i (by omega) (by omega)
    intro i hi
    by_cases hlt : i.1 < m + ks.nk
    · exact hall i hlt
    · exact hw i (by omega) hi

/-- Any `Nk` consecutive words of an expanded key determine the key. -/
theorem key_of_window (key key' : Key ks) (e e' : Expansion ks) (hR : ∀ k ≠ 0, e.R.get k = 0)
    (hR' : ∀ k ≠ 0, e'.R.get k = 0) (m : Nat) (hm : m + ks.nk ≤ ks.len)
    (hw : ∀ i : Fin ks.len, m ≤ i → i < m + ks.nk →
      word (keyExpansion key e).w i = word (keyExpansion key' e').w i) : key = key' := by
  have h := (loop_keyExpansion key hR).expanded
  have h' := (loop_keyExpansion key' hR').expanded
  apply word_injective
  intro i
  rw [← h.head, ← h'.head]
  exact h.word_eq_of_window h' hm hw _ (Nat.lt_add_left m i.2)

/-- The last words of two schedules, from arrays with different contents. -/
theorem key_of_window_last :
    (∀ i : Fin KeySize.b128.len, 40 ≤ i.1 → i < 40 + KeySize.b128.nk →
      word (keyExpansion (.replicate _ 0x2b : Key .b128) ⟨.replicate _ 0, single 0x02⟩).w i =
        word (keyExpansion (.replicate _ 0x2b : Key .b128) ⟨.replicate _ 0xff, single 0x36⟩).w i) ∧
      (.replicate _ 0x2b : Key .b128) = .replicate _ 0x2b := by
  have hR (x : UInt8) : ∀ k ≠ 0, (single x).get k = 0 := fun k hk ↦ get_single_of_ne x hk
  have hw := (loop_keyExpansion (.replicate _ 0x2b : Key .b128) (hR 0x02)
    (e := ⟨.replicate _ 0, single 0x02⟩)).expanded.unique
    (loop_keyExpansion _ (hR 0x36) (e := ⟨.replicate _ 0xff, single 0x36⟩)).expanded
  have hwindow : ∀ i : Fin KeySize.b128.len, 40 ≤ i.1 → i < 40 + KeySize.b128.nk →
      word (keyExpansion (.replicate _ 0x2b : Key .b128) ⟨.replicate _ 0, single 0x02⟩).w i =
        word (keyExpansion (.replicate _ 0x2b : Key .b128) ⟨.replicate _ 0xff, single 0x36⟩).w i :=
    fun i _ _ ↦ by rw [hw]
  exact ⟨hwindow, key_of_window _ _ _ _ (hR 0x02) (hR 0x36) 40 (by decide) hwindow⟩

end HorrorScope.Aes
