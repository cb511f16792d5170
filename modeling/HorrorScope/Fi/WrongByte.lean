import HorrorScope.Aes.Fault
import HorrorScope.Acq.SlowAes
import HorrorScope.Fi.Classified

/-!
# The plot of an attempt that hits one byte

The scripts decide by the number of changed bytes whether a glitch came too early, too late or just
right. Here the response is that of the target with one byte of its state replaced at some point of
the encryption, and the colour of the attempt tells where that point is.
-/

namespace HorrorScope.Fi

open HorrorScope.Base HorrorScope.Aes HorrorScope.Acq

/-- `dataIn` (`src/fi/runSetup.py:57`). -/
def dataIn : Aes.Block := .replicate _ 0x42

/-- The reference of `plotLog.py` and `parseLog.py` is what the target answers to the script. -/
theorem encrypt_dataIn : (encrypt dataIn).toList = normal := by
  decide +kernel

/-- `diffBytes` on responses of the same length counts the places that differ. -/
theorem diffBytes_toList {n : Nat} (a b : List.Vector UInt8 n) :
    diffBytes a.toList b.toList = (Finset.univ.filter fun k ↦ a.get k ≠ b.get k).card := by
  induction n with
  | zero =>
    rw [a.eq_nil, b.eq_nil]
    rfl
  | succ n ih =>
    obtain ⟨x, a, rfl⟩ := a.exists_eq_cons
    obtain ⟨y, b, rfl⟩ := b.exists_eq_cons
    have hcount : diffBytes (x :: a.toList) (y :: b.toList) =
        diffBytes a.toList b.toList + if x ≠ y then 1 else 0 := by
      rw [diffBytes, List.zip_cons_cons, List.countP_cons, ← diffBytes]
      simp only [bne_iff_ne, ne_comm]
    rw [List.Vector.toList_cons, List.Vector.toList_cons, hcount, ih, Fin.card_filter_univ_succ]
    simp only [List.Vector.get_zero, List.Vector.head_cons, List.Vector.get_cons_succ]
    split <;> rfl

private theorem not_infix_of_diffBytes {bytes response : List UInt8} (hlen : response.length = 16)
    (hdiff : diffBytes normal response < bytes.length) (hnew : ∀ b ∈ bytes, b ∉ normal) :
    ¬ bytes <:+: response := by
  -- bytes that the reference does not have are all changed ones
  intro h
  have hle := length_le_diffBytes h (by rw [hlen]; decide) hnew
  omega

section

variable {a : Attempt} (htime : a.glitcherTimeout = false) (hlen : a.response.length = 16)
  (hdiff : diffBytes normal a.response < 7)

include htime hlen hdiff

/-- A few changed bytes do not make the response look like a greeting. -/
theorem outcome_of_diffBytes (hne : normal ≠ a.response) : outcome normal a = .corrupted := by
  have harduino : ¬ encode (text "arduino") <:+: a.response := by
    rw [text_ofList]
    exact not_infix_of_diffBytes hlen hdiff (by simp [encode, normal])
  rw [outcome, htime, if_neg Bool.false_ne_true, if_neg hne, if_neg, if_pos hlen]
  rw [hlen]
  exact not_or.mpr ⟨by decide, harduino⟩

/-- A few changed bytes spell none of the words that matter. -/
theorem legible_of_diffBytes (hne : normal ≠ a.response) : Legible a := by
  have houtcome := outcome_of_diffBytes htime hlen hdiff hne
  have hwords (w : Text) (hfaithful : ∀ c ∈ w, Faithful c) (hlong : 7 ≤ w.length)
      (hnew : ∀ b ∈ encode w, b ∉ normal) : ¬ w <:+: hexAscii a.response := by
    rw [infix_hexAscii_iff hfaithful]
    refine not_infix_of_diffBytes hlen ?_ hnew
    rw [encode, List.length_map]
    omega
  refine ⟨?_, fun gs hgs ↦ ?_⟩
  · simp only [houtcome, misleading, embedded, List.forall_mem_cons, List.not_mem_nil,
      false_implies, implies_true, and_true]
    constructor
    · rw [text_ofList]
      exact hwords _ (by simp [Faithful]) (by decide) (by simp [encode, normal])
    · rw [text_ofList]
      exact hwords _ (by simp [Faithful]) (by decide) (by simp [encode, normal])
  · -- parameters would have the word `delay`
    exfalso
    rw [houtcome, embedded, settingsPattern] at hgs
    obtain ⟨ys, zs, gs', hdata, -, -, hm, -⟩ := Regex.groups_many_eq_some_iff.mp hgs
    obtain ⟨g, -, -, ws, -, rfl⟩ := exists_of_groups_settingsTail hm
    have hdelay : text " delay: " <:+: hexAscii a.response := by
      rw [hdata]
      exact ⟨ys ++ (text "length: " ++ g), ws, by simp⟩
    revert hdelay
    rw [text_ofList]
    exact hwords _ (by simp [Faithful]) (by decide) (by simp [encode, normal])

end

/-- An attempt whose response has `n` changed bytes, few enough, is plotted in their colour. -/
theorem classified_of_diffBytes (uniform : Nat → Jitter) (drawn : Nat) {l : Loop} {a : Attempt}
    (hdots : l.dots = 0) (htime : a.glitcherTimeout = false) (hlen : a.response.length = 16)
    {n : Nat} (hdiff : diffBytes normal a.response = n) (hpos : 0 < n) (hlt : n < 7) :
    Classified uniform drawn a (logLine normal l a) ∧ trueColor a = diffColor n := by
  have hne : normal ≠ a.response := by
    intro h
    have hself : diffBytes normal normal = 0 := by decide
    rw [← h, hself] at hdiff
    omega
  rw [← hdiff] at hlt
  rw [logLine_eq, hdots]
  refine ⟨classified_line uniform drawn l.stats (legible_of_diffBytes htime hlen hlt hne), ?_⟩
  rw [trueColor, outcome_of_diffBytes htime hlen hlt hne]
  simp only [hdiff]

/-- How many bytes of the response to a faulted encryption count as changed. -/
theorem diffBytes_faulted {done rest : List (Stmt (.ofSizeof 16))}
    (hsplit : done ++ rest = statements (.ofSizeof 16)) (p : Fin 4 × Fin Nb) {x : UInt8}
    (hx : x ≠ (done.foldl (exec schedule) (load blank dataIn)).cell p) {response : List UInt8}
    (hresponse : response = (faulted schedule dataIn done rest p x).toList) :
    (rest.count .mixColumns = 0 → diffBytes normal response = 1) ∧
    (rest.count .mixColumns = 1 → diffBytes normal response = 4) ∧
    (rest.count .mixColumns = 2 → diffBytes normal response = 16) := by
  have hcounted : diffBytes normal response =
      changedBytes (encrypt dataIn) (faulted schedule dataIn done rest p x) := by
    rw [hresponse, ← encrypt_dataIn]
    exact diffBytes_toList (encrypt dataIn) (faulted schedule dataIn done rest p x)
  rw [hcounted, encrypt, changedBytes_cipher_faulted schedule dataIn hsplit]
  exact card_diff_rest schedule ⟨done, hsplit⟩ (card_diff_put _ hx)

/-- An attempt without a timeout of the glitcher, on a line of its own, in which one byte of the
target's state is replaced, at any point of the encryption, by any other value: behind the last
`mix_columns` it is plotted as too late, between the last two as just right, and between the two
before as too early, if its words do not mislead the script. -/
theorem plotted_wrongByte (uniform : Nat → Jitter) (drawn : Nat) {l : Loop} {a : Attempt}
    (hdots : l.dots = 0) (htime : a.glitcherTimeout = false)
    {done rest : List (Stmt (.ofSizeof 16))}
    (hsplit : done ++ rest = statements (.ofSizeof 16)) (p : Fin 4 × Fin Nb) {x : UInt8}
    (hx : x ≠ (done.foldl (exec schedule) (load blank dataIn)).cell p)
    (hresponse : a.response = (faulted schedule dataIn done rest p x).toList) :
    (rest.count .mixColumns = 0 →
      Classified uniform drawn a (logLine (encrypt dataIn).toList l a) ∧ trueColor a = .b) ∧
    (rest.count .mixColumns = 1 →
      Classified uniform drawn a (logLine (encrypt dataIn).toList l a) ∧ trueColor a = .r) ∧
    (rest.count .mixColumns = 2 → outcome normal a = .corrupted → Legible a →
      Classified uniform drawn a (logLine (encrypt dataIn).toList l a) ∧ trueColor a = .k) := by
  obtain ⟨hzero, hone, htwo⟩ := diffBytes_faulted hsplit p hx hresponse
  have hlen : a.response.length = 16 := by
    rw [hresponse, List.Vector.toList_length]
    rfl
  rw [encrypt_dataIn]
  refine ⟨fun hcount ↦ ?_, fun hcount ↦ ?_, fun hcount houtcome hlegible ↦ ?_⟩
  · exact classified_of_diffBytes uniform drawn hdots htime hlen (hzero hcount) (by decide)
      (by decide)
  · exact classified_of_diffBytes uniform drawn hdots htime hlen (hone hcount) (by decide)
      (by decide)
  · rw [logLine_eq, hdots]
    refine ⟨classified_line uniform drawn l.stats hlegible, ?_⟩
    rw [trueColor, houtcome]
    simp only [htwo hcount]
    rfl

/-- The lowest bit of the first cell turned over between the last two `mix_columns`. -/
def turnedBit : Aes.Block :=
  let done := (statements (.ofSizeof 16)).take 33
  faulted schedule dataIn done ((statements (.ofSizeof 16)).drop 33) (0, 0)
    ((done.foldl (exec schedule) (load blank dataIn)).cell (0, 0) ^^^ 1)

/-- One bit turned between the last two `mix_columns`. -/
theorem plotted_wrongByte_turnedBit :
    Classified noJitter 0 (answering turnedBit.toList)
      (logLine (encrypt dataIn).toList .start (answering turnedBit.toList)) ∧
    trueColor (answering turnedBit.toList) = .r := by
  have hcount : ((statements (.ofSizeof 16)).drop 33).count .mixColumns = 1 := by decide +kernel
  exact (plotted_wrongByte _ 0 rfl rfl (List.take_append_drop 33 _) (0, 0)
    (xor_one_ne _) rfl).2.1 hcount

end HorrorScope.Fi
