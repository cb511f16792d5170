import HorrorScope.Fi.ParseLog
import Mathlib.Algebra.Order.Ring.Rat
import Mathlib.Algebra.Order.Ring.Abs

/-!
# The attempts as the plot shows them

`parseLines` of `src/fi/plotLog.py:18`. The parameters of an attempt are the last ones on
its line, and its colour is decided by words found anywhere on the line; both the last
parameters and the words can come from what the target sent.
-/

namespace HorrorScope.Fi

open HorrorScope.Base HorrorScope.Base.Regex

/-! ### The script -/

/-- The colours of the plot, by their letters in the source. -/
inductive Color where
  | g
  | r
  | b
  | k
  | m
  | y
  deriving DecidableEq, Repr

/-- A value of `random.uniform(-0.1,0.1)`, without the rounding of a float. -/
def Jitter : Type := { q : ℚ // |q| ≤ 1 / 10 }

/-- An attempt as it is plotted. -/
structure Record where
  attempt : ℚ
  length : ℚ
  wait : ℚ
  pulses : ℚ
  color : Color

/-- The pattern of the parameters after the glitch length is found. -/
def settingsTail : List (Item Char) :=
  [.lit (text "length: "), .many Char.isDigit 1 true, .lit (text " delay: "),
    .many Char.isDigit 1 true, .lit (text " pulses: "), .many Char.isDigit 1 true]

/-- The parameters from anywhere on a line. -/
def settingsPattern : List (Item Char) := .many dot 0 false :: settingsTail

/-- The pattern of the parameters; `src/fi/plotLog.py:24`. -/
def parameterPattern : List (Item Char) :=
  .lit (text "Attempt:  ") :: .many Char.isDigit 1 true :: settingsPattern

/-- The pattern of a response; `src/fi/plotLog.py:39`. -/
def targetPattern : List (Item Char) :=
  .many dot 0 false :: .lit (text "TARGET ") :: .many dot 0 false :: .lit (text ": b'") ::
    payloadPattern

/-- The colour of a response by its number of changed bytes; `src/fi/plotLog.py:47`. -/
def diffColor (diff : Nat) : Color :=
  if diff = 4 then .r else if diff < 4 then .b else .k

/-- What the words on a line make of it: a colour, nothing if its response does not match,
or the exception of a response that is not hexadecimal. -/
inductive Verdict where
  | color (c : Color)
  | unmatched
  | typeError
  deriving DecidableEq

/-- A line with a changed response; `src/fi/plotLog.py:39`. -/
def compareResponse (l : Text) : Verdict :=
  match groups targetPattern l with
  | none => .unmatched
  | some gs =>
    match unhexlify (group gs 1) with
    | none => .typeError
    | some data => .color (diffColor (diffBytes normal data))

/-- The tests for the colour, in their order; `src/fi/plotLog.py:36`. -/
def classify (l : Text) : Verdict :=
  if text "Correct" <:+: l then .color .g
  else if text "TARGET CORRUPTED" <:+: l then compareResponse l
  else if text "TARGET" <:+: l then .color .m
  else .color .y

/-- The record of a line: the numbers of the groups, each moved by the next random value;
`src/fi/plotLog.py:29`. -/
def record (uniform : Nat → Jitter) (drawn : Nat) (gs : List Text) (color : Color) : Record where
  attempt := int (group gs 1) + (uniform drawn).1
  length := int (group gs 2) + (uniform (drawn + 1)).1
  wait := int (group gs 3) + (uniform (drawn + 2)).1
  pulses := int (group gs 4) + (uniform (drawn + 3)).1
  color := color

/-- The loop over the lines; `drawn` counts the random values used so far, and `none` is
the exception of `classify`. `src/fi/plotLog.py:18`. -/
def parseLines (uniform : Nat → Jitter) : Nat → List Text → Option (List Record)
  | _, [] => some []
  | drawn, l :: ls =>
    if text "Attempt" <:+: l then
      match groups parameterPattern l with
      | none => parseLines uniform drawn ls
      | some gs =>
        match classify l with
        | .typeError => none
        | .unmatched => parseLines uniform (drawn + 4) ls
        | .color c => (parseLines uniform (drawn + 4) ls).map (record uniform drawn gs c :: ·)
    else parseLines uniform drawn ls

/-! ### The words behind each colour -/

private theorem diffColor_ne (diff : Nat) :
    diffColor diff ≠ .g ∧ diffColor diff ≠ .m ∧ diffColor diff ≠ .y := by
  unfold diffColor
  split
  · decide
  · split <;> decide

/-- The colour of a corrupted response is that of the bytes its line names. -/
theorem compareResponse_eq_color_iff {l : Text} {c : Color} :
    compareResponse l = .color c ↔
      ∃ gs data, groups targetPattern l = some gs ∧ unhexlify (group gs 1) = some data ∧
        diffColor (diffBytes normal data) = c := by
  unfold compareResponse
  split
  · next h => simp [h]
  · next gs h =>
    split
    · next hdata => simp [h, hdata]
    · next data hdata => simp [h, hdata]

private theorem compareResponse_ne (l : Text) :
    compareResponse l ≠ .color .m ∧ compareResponse l ≠ .color .y := by
  simp only [ne_eq, compareResponse_eq_color_iff]
  constructor
  · rintro ⟨_, _, _, _, h⟩
    exact (diffColor_ne _).2.1 h
  · rintro ⟨_, _, _, _, h⟩
    exact (diffColor_ne _).2.2 h

/-- A changed response is compared unless the line has the word of the correct one. -/
theorem classify_eq_diffColor_iff {l : Text} {diff : Nat} :
    classify l = .color (diffColor diff) ↔
      ¬ text "Correct" <:+: l ∧ text "TARGET CORRUPTED" <:+: l ∧
        compareResponse l = .color (diffColor diff) := by
  obtain ⟨hg, hm, hy⟩ := diffColor_ne diff
  unfold classify
  split
  · next h => simp [h, hg.symm]
  · next h =>
    split
    · next ht => simp [h, ht]
    · next ht =>
      split
      · simp [h, ht, hm.symm]
      · simp [h, ht, hy.symm]

/-- The words of a line that is plotted as a response. -/
theorem classify_eq_m_iff {l : Text} :
    classify l = .color .m ↔
      ¬ text "Correct" <:+: l ∧ ¬ text "TARGET CORRUPTED" <:+: l ∧ text "TARGET" <:+: l := by
  unfold classify
  split
  · next h => simp [h]
  · next h =>
    split
    · next ht => simp [ht, (compareResponse_ne l).1]
    · next ht =>
      split
      · next hT => simp [h, ht, hT]
      · next hT => simp [hT]

private theorem target_infix_of_corrupted {l : Text} (h : text "TARGET CORRUPTED" <:+: l) :
    text "TARGET" <:+: l := by
  have hp : text "TARGET" <+: text "TARGET CORRUPTED" := by
    rw [text_ofList, text_ofList]
    decide
  exact hp.isInfix.trans h

/-- The words of a line that is plotted as mute. -/
theorem classify_eq_y_iff {l : Text} :
    classify l = .color .y ↔ ¬ text "Correct" <:+: l ∧ ¬ text "TARGET" <:+: l := by
  unfold classify
  split
  · next h => simp [h]
  · next h =>
    split
    · next ht => simp [(compareResponse_ne l).2, target_infix_of_corrupted ht]
    · split
      · next hT => simp [hT]
      · next hT => simp [h, hT]

/-! ### The parameters -/

/-- A line that does not start like that of an attempt has no parameters. -/
theorem groups_parameterPattern_eq_none {l : Text} (h : l.head? ≠ some 'A') :
    groups parameterPattern l = none := by
  rw [Option.eq_none_iff_forall_ne_some]
  intro gs hm
  obtain ⟨zs, rfl, _⟩ := groups_lit_eq_some_iff.mp hm
  rw [text_ofList] at h
  simp at h

/-- The parameters of an attempt match where its line has them. -/
theorem groups_settings (a : Attempt) (rest : Text) :
    groups settingsTail (settings a ++ ' ' :: rest) =
      some [decimal a.glitchLength, decimal a.glitchDelay, decimal a.pulses] := by
  have hspace : ∀ c ∈ (' ' :: rest).head?, c.isDigit = false := by simp
  have hdelay : ∀ zs : Text, ∀ c ∈ (text " delay: " ++ zs).head?, c.isDigit = false := by
    rw [text_ofList]
    simp
  have hpulses : ∀ zs : Text, ∀ c ∈ (text " pulses: " ++ zs).head?, c.isDigit = false := by
    rw [text_ofList]
    simp
  rw [settings, settingsTail]
  simp only [List.append_assoc, groups_lit_append]
  apply groups_decimal (hdelay _)
  rw [groups_lit_append]
  apply groups_decimal (hpulses _)
  rw [groups_lit_append]
  exact groups_decimal hspace (groups_nil _)

/-- A match has three groups, and the word `delay` after the first. -/
theorem exists_of_groups_settingsTail {xs : Text} {gs : List Text}
    (h : groups settingsTail xs = some gs) :
    ∃ g₁ g₂ g₃ ws, gs = [g₁, g₂, g₃] ∧ xs = text "length: " ++ (g₁ ++ (text " delay: " ++ ws)) := by
  rw [settingsTail] at h
  obtain ⟨w₁, rfl, h₁⟩ := groups_lit_eq_some_iff.mp h
  obtain ⟨g₁, w₂, gs₁, rfl, _, _, h₂, rfl, _⟩ := groups_many_eq_some_iff.mp h₁
  obtain ⟨w₃, rfl, h₃⟩ := groups_lit_eq_some_iff.mp h₂
  obtain ⟨g₂, w₄, gs₂, rfl, _, _, h₄, rfl, _⟩ := groups_many_eq_some_iff.mp h₃
  obtain ⟨w₅, rfl, h₅⟩ := groups_lit_eq_some_iff.mp h₄
  obtain ⟨g₃, w₆, gs₃, rfl, _, _, h₆, rfl, _⟩ := groups_many_eq_some_iff.mp h₅
  rw [groups_nil, Option.some.injEq] at h₆
  exact ⟨g₁, g₂, g₃, _, by simp [← h₆], rfl⟩

/-- Parameters behind the attempt's own can only be in what the target sent. -/
def OnlySent (words sent : Text) : Prop :=
  ∀ vs gs, groups settingsTail vs = some gs → vs <:+ words ++ (sent ++ ['\n']) →
    vs <:+ sent ++ ['\n']

private theorem not_length_lead {s : Stats} {a : Attempt} {o : Outcome} (h : embedded a o ≠ []) :
    ¬ text "length" <:+: lead s a o := by
  cases o with
  | timeout =>
    rw [embedded, resetText] at h
    rw [lead]
    split at h
    · exact absurd rfl h
    · next hreset =>
      rw [if_neg hreset]
      repeat rw [text_ofList]
      decide
  | correct => exact absurd rfl h
  | mute =>
    apply not_infix_of_not_mem (c := 'g') (by rw [text_ofList]; decide)
    exact not_mem_lead s a rfl (by decide)
  | corrupted =>
    apply not_infix_of_not_mem (c := 'l') (by rw [text_ofList]; decide)
    exact not_mem_lead s a rfl (by decide)
  | responded =>
    apply not_infix_of_not_mem (c := 'l') (by rw [text_ofList]; decide)
    exact not_mem_lead s a rfl (by decide)

private theorem y_not_mem_lead (s : Stats) (a : Attempt) (o : Outcome) : 'y' ∉ lead s a o := by
  apply not_mem_lead s a rfl
  cases o <;> decide

private theorem onlySent_embedded (s : Stats) (a : Attempt) (o : Outcome) :
    OnlySent (lead s a o) (embedded a o) := by
  intro vs gs hm h
  obtain ⟨g₁, _, _, ws, _, rfl⟩ := exists_of_groups_settingsTail hm
  by_cases he : embedded a o = []
  · -- without a text of the target there is no `y` for the word `delay`
    exfalso
    have hy : 'y' ∈ lead s a o ++ (embedded a o ++ ['\n']) := by
      apply h.subset
      rw [text_ofList, text_ofList]
      simp
    simp [he, y_not_mem_lead] at hy
  · obtain ⟨words, hwords⟩ := (embedded_nil_or_lead s a o).resolve_left he
    have hlength := not_length_lead (s := s) he
    rw [hwords] at hlength
    rw [hwords, List.append_assoc, List.singleton_append] at h
    rw [text_ofList] at h hlength ⊢
    have hsuffix : ['l', 'e', 'n', 'g', 't', 'h'] ++ (':' :: ' ' :: (g₁ ++ (text " delay: " ++ ws)))
        <:+ words ++ ' ' :: (embedded a o ++ ['\n']) := h
    rcases infix_or_suffix_of_append_suffix (by decide) (by decide) hsuffix with hw | hw
    · exact absurd (hw.trans (List.prefix_append words _).isInfix) hlength
    · exact hw

/-- Words of the script that do not have the name of a parameter. -/
theorem onlySent_nil {words : Text} (h : ¬ text "length" <:+: words) : OnlySent words [] := by
  intro vs gs hm hvs
  obtain ⟨g₁, _, _, ws, _, rfl⟩ := exists_of_groups_settingsTail hm
  have hin : text "length" <:+: words ++ '\n' :: [] := by
    refine List.IsInfix.trans ?_ hvs.isInfix
    rw [text_ofList, text_ofList]
    exact ⟨[], ':' :: ' ' :: (g₁ ++ (text " delay: " ++ ws)), by simp⟩
  rw [text_ofList] at hin h
  rw [infix_append_cons_iff (by decide) (by decide)] at hin
  exact absurd (hin.resolve_right (by decide)) h

private theorem rejects_newline : ∀ item ∈ settingsPattern, item.Rejects '\n' := by
  rw [settingsPattern, settingsTail]
  repeat rw [text_ofList]
  simp [Item.Rejects, dot]

private theorem suffix_sent_of_append {a : Attempt} {words sent us vs : Text} {gs : List Text}
    (honly : OnlySent words sent) (hm : groups settingsTail vs = some gs)
    (h : settings a ++ ' ' :: (words ++ (sent ++ ['\n'])) = us ++ vs)
    (hne : us ≠ []) : vs <:+ sent ++ ['\n'] := by
  apply honly vs gs hm
  obtain ⟨g₁, _, _, ws, _, rfl⟩ := exists_of_groups_settingsTail hm
  have hvalues : 'n' ∉ decimal a.glitchLength ++ (text " delay: " ++ (decimal a.glitchDelay ++
      (text " pulses: " ++ decimal a.pulses))) := by
    have hdec : ∀ n, 'n' ∉ decimal n := not_mem_decimal rfl
    rw [text_ofList, text_ofList]
    simp [hdec]
  rw [settings, List.append_assoc] at h
  rw [text_ofList] at h ⊢
  have htail : ['l', 'e', 'n', 'g', 't', 'h'] ++ (':' :: ' ' :: (g₁ ++ (text " delay: " ++ ws))) <:+
      ['e', 'n', 'g', 't', 'h', ':'] ++ ' ' :: ((decimal a.glitchLength ++ (text " delay: " ++
        (decimal a.glitchDelay ++ (text " pulses: " ++ decimal a.pulses)))) ++
          ' ' :: (words ++ (sent ++ ['\n']))) :=
    suffix_tail_of_append h hne
  rcases infix_or_suffix_of_append_suffix (by decide) (by decide) htail with hw | hw
  · exact absurd hw (by decide)
  · rcases infix_or_suffix_of_append_suffix (by decide) (by decide) hw with hw | hw
    · exact absurd hw (not_infix_of_not_mem (by decide) hvalues)
    · exact hw

private theorem groups_settingsPattern_of_none {a : Attempt} {words sent : Text}
    (honly : OnlySent words sent) (h : groups settingsPattern sent = none) :
    groups settingsPattern (settings a ++ ' ' :: (words ++ (sent ++ ['\n']))) =
      some [decimal a.glitchLength, decimal a.glitchDelay, decimal a.pulses] := by
  rw [← groups_append_cons rejects_newline _ [], settingsPattern, groups_many_eq_none_iff] at h
  rw [settingsPattern, groups_many_eq_some_iff]
  refine ⟨[], _, _, rfl, by simp, Nat.zero_le _, groups_settings a _, rfl, ?_⟩
  intro us vs hzs hne hus
  rw [Option.eq_none_iff_forall_ne_some]
  intro gs hm
  obtain ⟨us', hus'⟩ := suffix_sent_of_append honly hm hzs hne
  -- the run up to the later parameters is the end of the run `us`
  have heq : (settings a ++ ' ' :: (words ++ us')) ++ vs = us ++ vs := by
    rw [← hzs, ← hus']
    simp
  have hdots : ∀ c ∈ us', dot c := by
    intro c hc
    apply hus
    rw [← List.append_cancel_right heq]
    simp [hc]
  rw [h us' vs hus'.symm hdots (Nat.zero_le _)] at hm
  cases hm

/-- The parameters found are the last ones: those that the target sent, if there are any. -/
theorem groups_parameterPattern_append (a : Attempt) {words sent : Text}
    (honly : OnlySent words sent) (hwords : '\n' ∉ words) :
    groups parameterPattern (parameters a ++ (words ++ (sent ++ ['\n']))) =
      some (decimal a.attempt :: (groups settingsPattern sent).getD
        [decimal a.glitchLength, decimal a.glitchDelay, decimal a.pulses]) := by
  have hp := newline_not_mem_parameters a
  rw [parameters_eq_settings] at hp ⊢
  simp only [List.mem_append, not_or] at hp
  obtain ⟨_, _, hpreamble, hsettings, _⟩ := hp
  simp only [List.append_assoc, List.singleton_append]
  rw [parameterPattern, groups_lit_append]
  apply groups_decimal
  · rw [preamble, text_ofList]
    simp
  cases hm : groups settingsPattern sent with
  | some gs =>
    have hgs : groups settingsPattern (sent ++ ['\n']) = some gs := by
      rw [groups_append_cons rejects_newline, hm]
    have hdots : ∀ c ∈ preamble a ++ (settings a ++ ' ' :: words), dot c := by
      apply dot_of_mem
      simp [hpreamble, hsettings, hwords]
    have happend := groups_many_append_of_some hdots hgs
    simpa [settingsPattern] using happend
  | none =>
    exact groups_many_append_of_some (dot_of_mem hpreamble)
      (groups_settingsPattern_of_none honly hm)

/-- The parameters found on the line of an outcome. -/
theorem groups_parameterPattern (s : Stats) (a : Attempt) (o : Outcome) :
    groups parameterPattern (line s a o) =
      some (decimal a.attempt :: (groups settingsPattern (embedded a o)).getD
        [decimal a.glitchLength, decimal a.glitchDelay, decimal a.pulses]) :=
  groups_parameterPattern_append a (onlySent_embedded s a o) (newline_not_mem_lead s a o)

end HorrorScope.Fi
