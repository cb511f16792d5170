import Mathlib.Tactic.Linarith
import HorrorScope.Fi.PlotLog
import HorrorScope.Fi.RunLog

/-!
# Which attempts are plotted as they came out

The record that `parseLines` (`src/fi/plotLog.py:18`) makes of the first log line of an
attempt, against the attempt itself. The line embeds what the target sent; the record is
right exactly when that text spells none of the words that decide the colour and no other
parameters, and the attempt does not start behind the dots that `testTarget` leaves after an
exception.
-/

namespace HorrorScope.Fi

open HorrorScope.Base HorrorScope.Base.Regex

/-! ### The right record -/

/-- The colour that the outcome of an attempt asks for. -/
def trueColor (a : Attempt) : Color :=
  match outcome normal a with
  | .timeout => .y
  | .correct => .g
  | .mute => .y
  | .corrupted => diffColor (diffBytes normal a.response)
  | .responded => .m

/-- A record shows the parameters of an attempt, up to the jitter, and its outcome. -/
structure Right (a : Attempt) (r : Record) : Prop where
  length : |r.length - a.glitchLength| ≤ 1 / 10
  wait : |r.wait - a.glitchDelay| ≤ 1 / 10
  pulses : |r.pulses - a.pulses| ≤ 1 / 10
  color : r.color = trueColor a

/-- The words of the target that change the colour of its attempt. -/
def misleading : Outcome → List Text
  | .timeout => [text "Correct", text "TARGET"]
  | .correct => []
  | .mute => [text "Correct", text "TARGET"]
  | .corrupted => [text "Correct", text "' ascii"]
  | .responded => [text "Correct", text "TARGET CORRUPTED"]

/-- What the target sent has none of the words that matter, and no other parameters. -/
structure Legible (a : Attempt) : Prop where
  words : ∀ w ∈ misleading (outcome normal a), ¬ w <:+: embedded a (outcome normal a)
  settings : ∀ gs, groups settingsPattern (embedded a (outcome normal a)) = some gs →
    gs.map int = [a.glitchLength, a.glitchDelay, a.pulses]

/-! ### A corrupted response on its line -/

private theorem line_corrupted (s : Stats) (a : Attempt) :
    line s a .corrupted = parameters a ++ (text "TARGET " ++ (text "CORRUPTED" ++
      (text ": b'" ++ payload a.response))) := by
  rw [line, lead, embedded, payload]
  repeat rw [text_ofList]
  simp

private theorem infix_of_groups_payloadPattern {xs : Text} {gs : List Text}
    (h : groups payloadPattern xs = some gs) : text "' ascii" <:+: xs := by
  obtain ⟨g, ws, _, rfl, _⟩ := exists_of_groups_payloadPattern h
  exact ⟨g, ws, List.append_assoc ..⟩

private theorem infix_hexAscii_of_newline {response : List UInt8}
    (h : text "' ascii" <:+: hexAscii response ++ ['\n']) :
    text "' ascii" <:+: hexAscii response := by
  rw [text_ofList] at h ⊢
  rw [infix_append_cons_iff (by decide) (by decide)] at h
  exact h.resolve_right (by decide)

private theorem groups_after_quote {response : List UInt8}
    (h : ¬ text "' ascii" <:+: hexAscii response) {us vs : Text}
    (hzs : text ": b'" ++ payload response = us ++ vs) (hne : us ≠ []) :
    groups (.lit (text ": b'") :: payloadPattern) vs = none := by
  rw [Option.eq_none_iff_forall_ne_some]
  intro gs hm
  apply h
  apply infix_hexAscii_of_newline
  obtain ⟨ws, rfl, hws⟩ := groups_lit_eq_some_iff.mp hm
  have hin := infix_of_groups_payloadPattern hws
  have hhex : ':' ∉ hexlify response := not_mem_hexlify (by decide) _
  rw [payload] at hzs
  rw [text_ofList, text_ofList] at hzs
  have htail : ':' :: ([' ', 'b', '\''] ++ ws) <:+
      ([' ', 'b', '\''] ++ (hexlify response ++ ['\'', ' ', 'a', 's', 'c', 'i', 'i'])) ++
        (':' :: ' ' :: (hexAscii response ++ ['\n'])) := by
    have ht := suffix_tail_of_append hzs hne
    simpa using ht
  have hs := suffix_of_suffix_append htail (by simp [hhex])
  have hlen := hs.length_le
  have hws : ws <:+ hexAscii response ++ ['\n'] := by
    apply List.suffix_of_suffix_length_le
      ((List.suffix_append [':', ' ', 'b', '\''] ws).trans hs)
      (List.suffix_append [':', ' '] (hexAscii response ++ ['\n']))
    simp only [List.length_cons, List.length_append] at hlen ⊢
    omega
  exact hin.trans hws.isInfix

private theorem groups_after_target {response : List UInt8}
    (h : ¬ text "' ascii" <:+: hexAscii response) {us vs : Text}
    (hzs : text "TARGET " ++ (text "CORRUPTED" ++ (text ": b'" ++ payload response)) = us ++ vs)
    (hne : us ≠ []) : groups targetPattern.tail vs = none := by
  rw [Option.eq_none_iff_forall_ne_some]
  intro gs hm
  apply h
  apply infix_hexAscii_of_newline
  rw [targetPattern, List.tail_cons] at hm
  obtain ⟨w₁, rfl, h₁⟩ := groups_lit_eq_some_iff.mp hm
  obtain ⟨ys, w₂, gs₂, rfl, _, _, h₂, _⟩ := groups_many_eq_some_iff.mp h₁
  obtain ⟨w₃, rfl, h₃⟩ := groups_lit_eq_some_iff.mp h₂
  have hin := infix_of_groups_payloadPattern h₃
  -- the script's own words behind its `TARGET`
  obtain ⟨words, hwords, hG⟩ : ∃ words, text "CORRUPTED" ++ (text ": b'" ++ payload response) =
      words ++ ' ' :: (hexAscii response ++ ['\n']) ∧ 'G' ∉ words := by
    refine ⟨text "CORRUPTED: b'" ++ (hexlify response ++ text "' ascii:"), ?_, ?_⟩
    · rw [payload]
      repeat rw [text_ofList]
      simp
    · have hhex : 'G' ∉ hexlify response := not_mem_hexlify (by decide) _
      rw [text_ofList, text_ofList]
      simp [hhex]
  rw [hwords] at hzs
  rw [text_ofList] at hzs
  have htail : ['T', 'A', 'R', 'G', 'E', 'T'] ++ (' ' :: (ys ++ (text ": b'" ++ w₃))) <:+
      ['A', 'R', 'G', 'E', 'T'] ++ ' ' :: (words ++ ' ' :: (hexAscii response ++ ['\n'])) :=
    suffix_tail_of_append hzs hne
  rcases infix_or_suffix_of_append_suffix (by decide) (by decide) htail with hw | hw
  · exact absurd hw (by decide)
  · rcases infix_or_suffix_of_append_suffix (by decide) (by decide) hw with hw | hw
    · exact absurd hw (not_infix_of_not_mem (by decide) hG)
    · have hws : w₃ <:+ hexAscii response ++ ['\n'] := by
        refine List.IsSuffix.trans ?_ hw
        exact ⟨['T', 'A', 'R', 'G', 'E', 'T', ' '] ++ (ys ++ text ": b'"), by simp⟩
      exact hin.trans hws.isInfix

/-- The group of a corrupted response is its hexadecimal digits, if its text does not have
`' ascii`. -/
theorem groups_targetPattern_line (s : Stats) {a : Attempt}
    (h : ¬ text "' ascii" <:+: hexAscii a.response) :
    groups targetPattern (line s a .corrupted) = some [hexlify a.response] := by
  rw [line_corrupted, targetPattern, groups_many_eq_some_iff]
  refine ⟨parameters a, _, [hexlify a.response], rfl, dot_of_mem (newline_not_mem_parameters a),
    Nat.zero_le _, ?_, rfl, fun us vs hzs hne _ ↦ groups_after_target h hzs hne⟩
  rw [groups_lit_append, groups_many_eq_some_iff]
  refine ⟨text "CORRUPTED", _, [hexlify a.response], rfl, ?_, Nat.zero_le _, ?_, rfl,
    fun us vs hzs hne _ ↦ groups_after_quote h hzs hne⟩
  · rw [text_ofList]
    simp [dot]
  · rw [groups_lit_append]
    exact (groups_payload_iff a.response).mpr h

/-! ### A response that spells the end of its group -/

private theorem diffBytes_le (normal changed : List UInt8) :
    diffBytes normal changed ≤ changed.length := by
  rw [diffBytes]
  apply Nat.le_trans List.countP_le_length
  rw [List.length_zip]
  exact Nat.min_le_left ..

private theorem diffBytes_cons (n c : UInt8) (normal changed : List UInt8) :
    diffBytes (n :: normal) (c :: changed) =
      diffBytes normal changed + if c != n then 1 else 0 :=
  List.countP_cons ..

private theorem length_le_diffBytes_append {normal bytes after : List UInt8}
    (hlen : (bytes ++ after).length ≤ normal.length) (hnew : ∀ b ∈ bytes, b ∉ normal) :
    bytes.length ≤ diffBytes normal (bytes ++ after) := by
  induction bytes generalizing normal with
  | nil => exact Nat.zero_le _
  | cons b bytes ih =>
    cases normal with
    | nil => simp at hlen
    | cons n normal =>
      rw [List.forall_mem_cons, List.mem_cons, not_or] at hnew
      have htail : (bytes ++ after).length ≤ normal.length := by simpa using hlen
      have hih := ih htail fun x hx hn ↦ hnew.2 x hx (List.mem_cons_of_mem _ hn)
      rw [List.cons_append, diffBytes_cons, if_pos (bne_iff_ne.mpr hnew.1.1), List.length_cons]
      omega

/-- Bytes that the reference does not have all count as changed. -/
theorem length_le_diffBytes {normal changed bytes : List UInt8} (h : bytes <:+: changed)
    (hlen : changed.length ≤ normal.length) (hnew : ∀ b ∈ bytes, b ∉ normal) :
    bytes.length ≤ diffBytes normal changed := by
  obtain ⟨before, after, rfl⟩ := h
  rw [List.append_assoc] at hlen ⊢
  induction before generalizing normal with
  | nil => exact length_le_diffBytes_append hlen hnew
  | cons x before ih =>
    cases normal with
    | nil => simp at hlen
    | cons n normal =>
      have htail : (before ++ (bytes ++ after)).length ≤ normal.length := by simpa using hlen
      have hih := ih (fun b hb hn ↦ hnew b hb (List.mem_cons_of_mem _ hn)) htail
      rw [List.cons_append, diffBytes_cons]
      omega

private theorem length_group_le {words g ws : Text} {response : List UInt8}
    (hwords : '\n' ∉ words) (h : text "' ascii" <:+: hexAscii response)
    (hgroup : g ++ (text "' ascii" ++ ws) <:+ words ++ ' ' :: (hexAscii response ++ ['\n']))
    (hlast : IsLast ws) (hspace : ' ' ∉ g) : g.length + 7 ≤ response.length := by
  -- a group that ends at the last `' ascii` and has no space lies in the text
  obtain ⟨before, after, htext⟩ := h
  have hbefore : '\n' ∉ before := fun hb ↦ newline_not_mem_hexAscii response (by
    rw [← htext]
    simp [hb])
  -- the group does not end before the text: the text has a later `' ascii`
  have hno : ∀ us, '\n' ∉ us →
      text "' ascii" ++ ws ≠ us ++ ' ' :: (hexAscii response ++ ['\n']) := by
    intro us hus heq
    have hmem := hlast (us ++ ' ' :: before) (after ++ ['\n'])
      (by rw [heq, ← htext]; simp) (by simp)
    simp [hus, hbefore] at hmem
  obtain ⟨t, ht⟩ := hgroup
  rcases List.append_eq_append_iff.mp ht with ⟨us, rfl, hus⟩ | ⟨us, rfl, hus⟩
  · exfalso
    have husn : '\n' ∉ us := fun hu ↦ hwords (List.mem_append_right _ hu)
    rcases List.append_eq_append_iff.mp hus with ⟨vs, rfl, hvs⟩ | ⟨vs, rfl, hvs⟩
    · exact hno vs (fun hv ↦ husn (List.mem_append_right _ hv)) hvs
    · cases vs with
      | nil => exact hno [] (by simp) hvs.symm
      | cons v vs =>
        obtain ⟨rfl, _⟩ : ' ' = v ∧ hexAscii response ++ ['\n'] = vs ++ (text "' ascii" ++ ws) := by
          simpa using hvs
        simp at hspace
  · cases us with
    | nil =>
      cases g with
      | nil => exact absurd hus.symm (hno [] (by simp))
      | cons c g =>
        obtain ⟨rfl, _⟩ : ' ' = c ∧ hexAscii response ++ ['\n'] = g ++ (text "' ascii" ++ ws) := by
          simpa using hus
        simp at hspace
    | cons u us =>
      obtain ⟨_, hin⟩ : ' ' = u ∧
          hexAscii response ++ ['\n'] = us ++ (g ++ (text "' ascii" ++ ws)) := by simpa using hus
      have hlen := congrArg List.length hin
      rw [text_ofList] at hin hlen
      -- the newline stands behind the last `' ascii`
      have hws : ws ≠ [] := by
        rintro rfl
        have hnl := congrArg List.getLast? hin
        simp at hnl
      have hpos := List.length_pos_iff.mpr hws
      simp only [List.length_append, length_hexAscii, List.length_cons, List.length_nil] at hlen
      omega

private theorem exists_of_groups_targetPattern {l : Text} {gs : List Text}
    (h : groups targetPattern l = some gs) :
    ∃ g ws, gs = [g] ∧ g ++ (text "' ascii" ++ ws) <:+ l ∧ IsLast ws := by
  -- the group lies between some `: b'` and the last `' ascii`
  rw [targetPattern] at h
  obtain ⟨y₁, w₁, gs₁, rfl, _, _, h₁, rfl, _⟩ := groups_many_eq_some_iff.mp h
  obtain ⟨w₂, rfl, h₂⟩ := groups_lit_eq_some_iff.mp h₁
  obtain ⟨y₂, w₃, gs₂, rfl, _, _, h₃, rfl, _⟩ := groups_many_eq_some_iff.mp h₂
  obtain ⟨w₄, rfl, h₄⟩ := groups_lit_eq_some_iff.mp h₃
  obtain ⟨g, ws, rfl, rfl, hlast⟩ := exists_of_groups_payloadPattern h₄
  refine ⟨g, ws, rfl, ⟨y₁ ++ (text "TARGET " ++ (y₂ ++ text ": b'")), ?_⟩, hlast⟩
  simp

private theorem exists_line_corrupted (s : Stats) (a : Attempt) :
    ∃ words, '\n' ∉ words ∧
      line s a .corrupted = words ++ ' ' :: (hexAscii a.response ++ ['\n']) := by
  have hlead := newline_not_mem_lead s a .corrupted
  rw [lead_corrupted, List.mem_append, not_or] at hlead
  refine ⟨parameters a ++ (text "TARGET CORRUPTED: b'" ++
    (hexlify a.response ++ text "' ascii:")), ?_, ?_⟩
  · exact List.not_mem_append (newline_not_mem_parameters a) hlead.1
  · rw [line, lead_corrupted, embedded]
    simp

/-- Such a group is not the hexadecimal digits of more than four bytes. -/
theorem compareResponse_ne_k (s : Stats) {a : Attempt} (hlen : a.response.length = 16)
    (h : text "' ascii" <:+: hexAscii a.response) :
    compareResponse (line s a .corrupted) ≠ .color .k := by
  intro hk
  obtain ⟨gs, data, hgs, hdata, hcolor⟩ := compareResponse_eq_color_iff.mp hk
  obtain ⟨g, ws, rfl, hsuffix, hlast⟩ := exists_of_groups_targetPattern hgs
  have hmany : 4 < diffBytes normal data := by
    unfold diffColor at hcolor
    split at hcolor
    · cases hcolor
    · split at hcolor
      · cases hcolor
      · omega
  have hle := diffBytes_le normal data
  obtain ⟨hglen, hghex⟩ := of_unhexlify (show unhexlify g = some data from hdata)
  have hspace : ' ' ∉ g := fun hs ↦ hghex ' ' hs (by decide)
  obtain ⟨words, hwords, hline⟩ := exists_line_corrupted s a
  rw [hline] at hsuffix
  have hbound := length_group_le hwords h hsuffix hlast hspace
  omega

/-! ### The record of an attempt -/

private theorem diffColor_of_ascii {response : List UInt8} (hlen : response.length = 16)
    (h : text "' ascii" <:+: hexAscii response) :
    diffColor (diffBytes normal response) = .k := by
  -- the bytes of `' ascii` are not in the reference, so that all of them are changed ones
  have hfaithful : ∀ c ∈ text "' ascii", Faithful c := by
    rw [text_ofList]
    simp [Faithful]
  rw [infix_hexAscii_iff hfaithful, text_ofList] at h
  have hle : 7 ≤ diffBytes normal response := by
    apply length_le_diffBytes h
    · rw [hlen]
      decide
    · simp [encode, normal]
  unfold diffColor
  rw [if_neg (by omega), if_neg (by omega)]

private theorem classify_corrupted_iff (s : Stats) {a : Attempt} (hlen : a.response.length = 16) :
    classify (line s a .corrupted) = .color (diffColor (diffBytes normal a.response)) ↔
      ¬ text "Correct" <:+: hexAscii a.response ∧ ¬ text "' ascii" <:+: hexAscii a.response := by
  rw [classify_eq_diffColor_iff, correct_infix_line_iff]
  by_cases h : text "' ascii" <:+: hexAscii a.response
  · -- the colour asked for is `k`, which the shorter group cannot give
    rw [diffColor_of_ascii hlen h]
    simp [compareResponse_ne_k s hlen h, h]
  · have hcompare : compareResponse (line s a .corrupted) =
        .color (diffColor (diffBytes normal a.response)) :=
      compareResponse_eq_color_iff.mpr ⟨_, _, groups_targetPattern_line s h,
        unhexlify_hexlify a.response, rfl⟩
    simp [h, hcompare, corrupted_infix_line, embedded]

/-- The colour is that of the outcome exactly when the target sent none of the words that
matter. -/
theorem classify_line_iff (s : Stats) (a : Attempt) :
    classify (line s a (outcome normal a)) = .color (trueColor a) ↔
      ∀ w ∈ misleading (outcome normal a), ¬ w <:+: embedded a (outcome normal a) := by
  cases ho : outcome normal a with
  | timeout =>
    simp only [trueColor, ho, misleading, List.forall_mem_cons]
    rw [classify_eq_y_iff, correct_infix_line_iff, target_infix_line_iff s a (Or.inl rfl)]
    simp
  | correct =>
    have h : text "Correct" <:+: line s a .correct :=
      (correct_infix_line_iff s a .correct).mpr (Or.inl rfl)
    simp [trueColor, ho, misleading, classify, h]
  | mute =>
    simp only [trueColor, ho, misleading, List.forall_mem_cons]
    rw [classify_eq_y_iff, correct_infix_line_iff, target_infix_line_iff s a (Or.inr rfl)]
    simp
  | corrupted =>
    simp only [trueColor, ho, misleading, List.forall_mem_cons]
    rw [classify_corrupted_iff s (length_response_of_corrupted ho)]
    simp [embedded]
  | responded =>
    simp only [trueColor, ho, misleading, List.forall_mem_cons]
    rw [classify_eq_m_iff, correct_infix_line_iff, corrupted_infix_line_responded_iff]
    simp [target_infix_line_responded]

private theorem near_iff (n m : Nat) (j : Jitter) :
    |(n : ℚ) + j.1 - m| ≤ 1 / 10 ↔ n = m := by
  constructor
  · intro h
    have hj := abs_le.mp j.2
    have hd := abs_le.mp h
    by_contra hne
    rcases Nat.lt_or_gt_of_ne hne with hlt | hlt
    · have hle : (n : ℚ) + 1 ≤ m := by exact_mod_cast hlt
      linarith [hd.1, hj.2]
    · have hle : (m : ℚ) + 1 ≤ n := by exact_mod_cast hlt
      linarith [hd.2, hj.1]
  · rintro rfl
    rw [add_sub_cancel_left]
    exact j.2

/-- The script's own word is on the line of every attempt. -/
theorem attempt_infix_append (a : Attempt) (rest : Text) :
    text "Attempt" <:+: parameters a ++ rest := by
  have hp : text "Attempt" <+: parameters a := by
    rw [parameters_eq, text_ofList, text_ofList]
    exact ⟨':' :: ' ' :: ' ' :: _, rfl⟩
  exact (hp.trans (List.prefix_append _ _)).isInfix

/-- The line of an attempt becomes a record when it gets a colour. -/
theorem parseLines_cons (uniform : Nat → Jitter) (drawn : Nat) {l : Text}
    (hin : text "Attempt" <:+: l) {gs : List Text} (hgs : groups parameterPattern l = some gs)
    {c : Color} (hc : classify l = .color c) (ls : List Text) :
    parseLines uniform drawn (l :: ls) =
      (parseLines uniform (drawn + 4) ls).map (record uniform drawn gs c :: ·) := by
  rw [parseLines, if_pos hin, hgs]
  simp only [hc]

/-- Only a line with a colour becomes a record. -/
theorem exists_color_of_parseLines {uniform : Nat → Jitter} {drawn : Nat} {l : Text} {r : Record}
    (h : parseLines uniform drawn [l] = some [r]) :
    ∃ gs c, groups parameterPattern l = some gs ∧ classify l = .color c ∧
      r = record uniform drawn gs c := by
  rw [parseLines] at h
  split at h
  · split at h
    · simp [parseLines] at h
    · next gs hgs =>
      split at h
      · cases h
      · simp [parseLines] at h
      · next c hc =>
        refine ⟨gs, c, hgs, hc, ?_⟩
        simpa [parseLines, eq_comm] using h
  · simp [parseLines] at h

/-- One record of the line of an attempt, wherever it stands in the log, with the attempt's
parameters and the colour of its outcome. -/
def Classified (uniform : Nat → Jitter) (drawn : Nat) (a : Attempt) (l : Text) : Prop :=
  ∃ r, Right a r ∧ ∀ ls, parseLines uniform drawn (l :: ls) =
    (parseLines uniform (drawn + 4) ls).map (r :: ·)

private theorem right_record_iff (uniform : Nat → Jitter) (drawn : Nat) (a : Attempt)
    (gs : List Text) (c : Color) :
    Right a (record uniform drawn gs c) ↔
      int (group gs 2) = a.glitchLength ∧ int (group gs 3) = a.glitchDelay ∧
        int (group gs 4) = a.pulses ∧ c = trueColor a := by
  constructor
  · rintro ⟨hl, hw, hp, hc⟩
    exact ⟨(near_iff ..).mp hl, (near_iff ..).mp hw, (near_iff ..).mp hp, hc⟩
  · rintro ⟨hl, hw, hp, hc⟩
    exact ⟨(near_iff ..).mpr hl, (near_iff ..).mpr hw, (near_iff ..).mpr hp, hc⟩

private theorem last_settings_iff (a : Attempt) (number sent : Text) :
    let gs := number :: (groups settingsPattern sent).getD
      [decimal a.glitchLength, decimal a.glitchDelay, decimal a.pulses]
    (int (group gs 2) = a.glitchLength ∧ int (group gs 3) = a.glitchDelay ∧
        int (group gs 4) = a.pulses) ↔
      ∀ gs, groups settingsPattern sent = some gs →
        gs.map int = [a.glitchLength, a.glitchDelay, a.pulses] := by
  cases hm : groups settingsPattern sent with
  | none => simp [group, int_decimal]
  | some gs =>
    obtain ⟨_, _, gs', _, _, _, hgs, rfl, _⟩ := groups_many_eq_some_iff.mp hm
    obtain ⟨g₁, g₂, g₃, _, rfl, _⟩ := exists_of_groups_settingsTail hgs
    simp [group]

/-- A legible attempt is plotted as it came out. -/
theorem classified_line (uniform : Nat → Jitter) (drawn : Nat) (s : Stats) {a : Attempt}
    (h : Legible a) : Classified uniform drawn a (line s a (outcome normal a)) := by
  have hgs := groups_parameterPattern s a (outcome normal a)
  have hc := (classify_line_iff s a).mpr h.words
  obtain ⟨hl, hw, hp⟩ := (last_settings_iff a (decimal a.attempt) _).mpr h.settings
  exact ⟨_, (right_record_iff ..).mpr ⟨hl, hw, hp, rfl⟩,
    parseLines_cons uniform drawn (attempt_infix_append a _) hgs hc⟩

/-- The first line of an attempt becomes one record with the attempt's parameters and the
colour of its outcome exactly when no dots of the target's test are on the line, as there are
behind an iteration that raised an exception, and what the target sent is legible. -/
theorem classified_iff (uniform : Nat → Jitter) (drawn : Nat) (l : Loop) (a : Attempt) :
    Classified uniform drawn a (logLine normal l a) ↔ l.dots = 0 ∧ Legible a := by
  rw [logLine_eq]
  constructor
  · rintro ⟨r, hright, hparse⟩
    obtain ⟨gs, c, hgs, hc, rfl⟩ := exists_color_of_parseLines (hparse [])
    have hdots : l.dots = 0 := by
      by_contra hne
      rw [groups_parameterPattern_eq_none (by simp [head?_dots_append hne])] at hgs
      cases hgs
    rw [hdots] at hgs hc
    obtain rfl := Option.some.inj
      (hgs.symm.trans (groups_parameterPattern l.stats a (outcome normal a)))
    obtain ⟨hl, hw, hp, rfl⟩ := (right_record_iff ..).mp hright
    exact ⟨hdots, (classify_line_iff l.stats a).mp hc, (last_settings_iff a _ _).mp ⟨hl, hw, hp⟩⟩
  · rintro ⟨hdots, h⟩
    rw [hdots]
    exact classified_line uniform drawn l.stats h

/-- The line of the correct response behind an iteration that raised an exception. -/
example : groups parameterPattern (logLine normal (Loop.step normal .start
    ⟨answering [], some .command, ⟨[], 0⟩⟩) (answering normal)) = none := by
  decide +kernel

private theorem abs_zero_le_jitter : |(0 : ℚ)| ≤ 1 / 10 := by
  rw [abs_zero]
  norm_num

/-- Draws of zero. -/
def noJitter (_ : Nat) : Jitter := ⟨0, abs_zero_le_jitter⟩

/-- A mute target that sends `TARGET` is plotted as one that responded. -/
theorem not_classified_target :
    outcome normal (answering (encode (text "TARGET"))) = .mute ∧
      ¬ Classified noJitter 0 (answering (encode (text "TARGET")))
        (logLine normal .start (answering (encode (text "TARGET")))) := by
  have hcolor : classify (logLine normal .start (answering (encode (text "TARGET")))) =
      .color .m := by decide +kernel
  refine ⟨by decide +kernel, ?_⟩
  rintro ⟨r, hright, hparse⟩
  obtain ⟨gs, c, _, hc, rfl⟩ := exists_color_of_parseLines (hparse [])
  obtain rfl : c = .m := Verdict.color.inj (hc.symm.trans hcolor)
  have hy : trueColor (answering (encode (text "TARGET"))) = .y := by decide +kernel
  have hm := hright.color
  rw [hy] at hm
  cases hm

end HorrorScope.Fi
