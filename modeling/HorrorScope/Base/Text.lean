import Mathlib.Data.List.Infix

/-!
# Text as a list of characters

Where a text can occur in a longer one, the lines of a text, and the decimal and
hexadecimal spellings of numbers and bytes with the functions that read them back.
-/

namespace HorrorScope.Base

variable {α : Type}

/-- The characters of a string. -/
@[irreducible] def text (s : String) : List Char := s.toList

/-- The characters of a literal. -/
theorem text_ofList (cs : List Char) : text (String.ofList cs) = cs := by
  rw [text, String.toList_ofList]

/-! ### Occurrences -/

/-- What is left after a non-empty part lies in the tail. -/
theorem suffix_tail_of_append {x : α} {xs us vs : List α} (h : x :: xs = us ++ vs)
    (hne : us ≠ []) : vs <:+ xs := by
  cases us with
  | nil => exact absurd rfl hne
  | cons u us =>
    obtain ⟨_, rfl⟩ : x = u ∧ xs = us ++ vs := by simpa using h
    exact List.suffix_append us vs

/-- A suffix that starts with a symbol the first part does not have lies in the second. -/
theorem suffix_of_suffix_append {c : α} {w xs ys : List α} (h : c :: w <:+ xs ++ ys)
    (hc : c ∉ xs) : c :: w <:+ ys := by
  obtain ⟨t, ht⟩ := h
  rcases List.append_eq_append_iff.mp ht with ⟨us, rfl, hus⟩ | ⟨us, _, hus⟩
  · cases us with
    | nil =>
      rw [hus]
      exact List.suffix_refl _
    | cons u us =>
      obtain ⟨rfl, _⟩ : c = u ∧ w = us ++ ys := by simpa using hus
      exact absurd (by simp) hc
  · exact ⟨us, hus.symm⟩

/-- An occurrence of `s` cannot stretch over a symbol that `s` does not have: it lies
before the symbol or after it. -/
theorem infix_or_suffix_of_append_suffix {c : α} {s w xs ys : List α} (hc : c ∉ s) (hs : s ≠ [])
    (h : s ++ w <:+ xs ++ c :: ys) : s <:+: xs ∨ s ++ w <:+ ys := by
  obtain ⟨t, ht⟩ := h
  rcases List.append_eq_append_iff.mp ht with ⟨us, rfl, hus⟩ | ⟨us, _, hus⟩
  · -- the occurrence starts before the symbol, so it ends before it
    left
    rcases List.append_eq_append_iff.mp hus with ⟨vs, rfl, _⟩ | ⟨vs, rfl, hvs⟩
    · exact ⟨t, vs, List.append_assoc ..⟩
    · cases vs with
      | nil => exact ⟨t, [], by simp⟩
      | cons v vs =>
        obtain ⟨rfl, _⟩ : c = v ∧ ys = vs ++ w := by simpa using hvs
        exact absurd (by simp) hc
  · cases us with
    | nil =>
      cases s with
      | nil => exact absurd rfl hs
      | cons a s =>
        obtain ⟨rfl, _⟩ : c = a ∧ ys = s ++ w := by simpa using hus
        exact absurd (by simp) hc
    | cons u us =>
      obtain ⟨_, rfl⟩ : c = u ∧ ys = us ++ (s ++ w) := by simpa using hus
      exact Or.inr (List.suffix_append us _)

/-- A word without `c` stands on one side of a `c`. -/
theorem infix_append_cons_iff {c : α} {s xs ys : List α} (hc : c ∉ s) (hs : s ≠ []) :
    s <:+: xs ++ c :: ys ↔ s <:+: xs ∨ s <:+: ys := by
  constructor
  · rintro ⟨t, w, h⟩
    rcases infix_or_suffix_of_append_suffix hc hs ⟨t, (List.append_assoc ..).symm.trans h⟩
      with h | h
    · exact Or.inl h
    · exact Or.inr ((List.prefix_append s w).isInfix.trans h.isInfix)
  · rintro (h | h)
    · exact h.trans (List.prefix_append xs _).isInfix
    · exact h.trans ((List.suffix_cons c ys).isInfix.trans (List.suffix_append xs _).isInfix)

/-- A text with a symbol that the longer one does not have does not occur in it. -/
theorem not_infix_of_not_mem {c : α} {s xs : List α} (hs : c ∈ s) (hc : c ∉ xs) :
    ¬ s <:+: xs :=
  fun h ↦ hc (h.subset hs)

/-! ### Lines -/

/-- The lines of a text, each with the newline that ends it. -/
def readlines : List Char → List (List Char)
  | [] => []
  | c :: cs =>
    if c = '\n' then ['\n'] :: readlines cs
    else
      match readlines cs with
      | [] => [[c]]
      | l :: ls => (c :: l) :: ls

/-- One line, with the newline that ends it. -/
def IsLine (t : List Char) : Prop := ∃ l, '\n' ∉ l ∧ t = l ++ ['\n']

/-- What stands before a line without a newline becomes part of it. -/
theorem IsLine.append {w t : List Char} (hw : '\n' ∉ w) (ht : IsLine t) : IsLine (w ++ t) := by
  obtain ⟨l, hl, rfl⟩ := ht
  exact ⟨w ++ l, List.not_mem_append hw hl, (List.append_assoc ..).symm⟩

private theorem readlines_append_newline {l : List Char} (h : '\n' ∉ l) (rest : List Char) :
    readlines (l ++ '\n' :: rest) = (l ++ ['\n']) :: readlines rest := by
  induction l with
  | nil => simp [readlines]
  | cons c l ih =>
    rw [List.mem_cons, not_or] at h
    rw [List.cons_append, readlines, if_neg (Ne.symm h.1), ih h.2]
    rfl

/-- A line at the start of a text is its first line. -/
theorem IsLine.readlines_append {t : List Char} (ht : IsLine t) (rest : List Char) :
    readlines (t ++ rest) = t :: readlines rest := by
  obtain ⟨l, hl, rfl⟩ := ht
  rw [List.append_assoc]
  exact readlines_append_newline hl rest

/-- The end of a text may be a line without its newline. -/
theorem readlines_of_not_mem {t : List Char} (h : '\n' ∉ t) (hne : t ≠ []) :
    readlines t = [t] := by
  induction t with
  | nil => exact absurd rfl hne
  | cons c t ih =>
    rw [List.mem_cons, not_or] at h
    rw [readlines, if_neg (Ne.symm h.1)]
    by_cases ht : t = []
    · rw [ht]
      rfl
    · rw [ih h.2 ht]

/-! ### Decimal numbers -/

/-- The decimal spelling of a number. -/
def decimal (n : Nat) : List Char := Nat.toDigits 10 n

/-- The number that decimal digits spell. -/
def int (cs : List Char) : Nat := Nat.ofDigitChars 10 cs 0

/-- A numeral is read back. -/
theorem int_decimal (n : Nat) : int (decimal n) = n := Nat.ofDigitChars_ten_toDigits

/-- Different numbers have different numerals. -/
theorem decimal_injective : Function.Injective decimal := by
  intro m n h
  rw [← int_decimal m, h, int_decimal]

/-- A numeral has digits only. -/
theorem isDigit_of_mem_decimal {n : Nat} {c : Char} (h : c ∈ decimal n) : c.isDigit :=
  Nat.isDigit_of_mem_toDigits (by decide) (by decide) h

/-- A numeral is not empty. -/
theorem length_decimal_pos (n : Nat) : 0 < (decimal n).length := Nat.length_toDigits_pos

/-- What is no digit is in no numeral. -/
theorem not_mem_decimal {c : Char} (h : c.isDigit = false) (n : Nat) : c ∉ decimal n := by
  intro hc
  rw [isDigit_of_mem_decimal hc] at h
  cases h

/-! ### Hexadecimal bytes -/

/-- The hexadecimal digits in lower case. -/
def hexDigits : List Char :=
  ['0', '1', '2', '3', '4', '5', '6', '7', '8', '9', 'a', 'b', 'c', 'd', 'e', 'f']

/-- The two hexadecimal digits of each byte, in lower case. -/
def hexlify (bs : List UInt8) : List Char :=
  bs.flatMap fun b ↦ [Nat.digitChar (b.toNat / 16), Nat.digitChar (b.toNat % 16)]

/-- The value of a hexadecimal digit of either case. -/
def hexValue (c : Char) : Option Nat :=
  if '0' ≤ c ∧ c ≤ '9' then some (c.toNat - '0'.toNat)
  else if 'a' ≤ c ∧ c ≤ 'f' then some (c.toNat - 'a'.toNat + 10)
  else if 'A' ≤ c ∧ c ≤ 'F' then some (c.toNat - 'A'.toNat + 10)
  else none

/-- The bytes that pairs of hexadecimal digits spell, if the text is such pairs. -/
def unhexlify : List Char → Option (List UInt8)
  | [] => some []
  | [_] => none
  | c :: d :: cs => do
    let high ← hexValue c
    let low ← hexValue d
    let bs ← unhexlify cs
    pure (UInt8.ofNat (16 * high + low) :: bs)

/-- The two digits of the first byte. -/
theorem hexlify_cons (b : UInt8) (bs : List UInt8) :
    hexlify (b :: bs) =
      Nat.digitChar (b.toNat / 16) :: Nat.digitChar (b.toNat % 16) :: hexlify bs := rfl

private theorem hexValue_digitChar : ∀ n < 16, hexValue (Nat.digitChar n) = some n := by
  decide

private theorem digitChar_mem : ∀ n < 16, Nat.digitChar n ∈ hexDigits := by
  decide

/-- The digits of bytes. -/
theorem mem_hexlify {bs : List UInt8} {c : Char} (h : c ∈ hexlify bs) : c ∈ hexDigits := by
  obtain ⟨b, _, hb⟩ := List.mem_flatMap.mp h
  have hhigh : b.toNat / 16 < 16 := Nat.div_lt_of_lt_mul b.toNat_lt
  have hlow : b.toNat % 16 < 16 := Nat.mod_lt _ (by decide)
  rw [List.mem_cons, List.mem_singleton] at hb
  rcases hb with rfl | rfl
  · exact digitChar_mem _ hhigh
  · exact digitChar_mem _ hlow

/-- What is no hexadecimal digit is in no digits of bytes. -/
theorem not_mem_hexlify {c : Char} (hc : c ∉ hexDigits) (bs : List UInt8) : c ∉ hexlify bs :=
  fun h ↦ hc (mem_hexlify h)

/-- Digits are read back. -/
theorem unhexlify_hexlify (bs : List UInt8) : unhexlify (hexlify bs) = some bs := by
  induction bs with
  | nil => rfl
  | cons b bs ih =>
    have hhigh : b.toNat / 16 < 16 := Nat.div_lt_of_lt_mul b.toNat_lt
    have hlow : b.toNat % 16 < 16 := Nat.mod_lt _ (by decide)
    rw [hexlify_cons, unhexlify, hexValue_digitChar _ hhigh, hexValue_digitChar _ hlow, ih]
    change some (UInt8.ofNat (16 * (b.toNat / 16) + b.toNat % 16) :: bs) = some (b :: bs)
    rw [Nat.div_add_mod, UInt8.ofNat_toNat]

/-- A text that spells bytes has only hexadecimal digits, two for each byte. -/
theorem of_unhexlify {cs : List Char} {bs : List UInt8} (h : unhexlify cs = some bs) :
    cs.length = 2 * bs.length ∧ ∀ c ∈ cs, hexValue c ≠ none := by
  induction cs using unhexlify.induct generalizing bs with
  | case1 =>
    obtain rfl : [] = bs := by simpa [unhexlify] using h
    simp
  | case2 c => simp [unhexlify] at h
  | case3 c d cs ih =>
    simp only [unhexlify, Option.bind_eq_bind, Option.bind_eq_some_iff, Option.pure_def,
      Option.some.injEq] at h
    obtain ⟨high, hc, low, hd, bs, hbs, rfl⟩ := h
    obtain ⟨hlen, hall⟩ := ih hbs
    constructor
    · simp only [List.length_cons, hlen]
      omega
    · simp [hc, hd]
      simpa using hall

end HorrorScope.Base
