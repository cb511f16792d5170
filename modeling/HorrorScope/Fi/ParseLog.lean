import HorrorScope.Base.Regex
import HorrorScope.Fi.LogLine

/-!
# Reading the corrupted responses back from the log

`src/fi/parseLog.py`. A corrupted response stands twice on its line, once in hexadecimal
and once as text. The third group of the pattern is greedy and ends at the last `' ascii`
of the line, which is the script's own unless the text of the response has one too.
-/

namespace HorrorScope.Fi

open HorrorScope.Base HorrorScope.Base.Regex

/-! ### The script -/

/-- The reference response (`src/fi/parseLog.py:36`). -/
def normal : List UInt8 :=
  [0xb7, 0x11, 0x0b, 0x15, 0x0e, 0x67, 0xee, 0x0b, 0xae, 0x6a, 0x7b, 0xcf, 0x44, 0x49, 0x3f, 0x1f]

-- as the source has it, in hexadecimal
example : unhexlify (text "b7110b150e67ee0bae6a7bcf44493f1f") = some normal := by
  rw [text_ofList]
  decide +kernel

/-- Number of bytes in which `normal` and `changed` differ; `src/fi/parseLog.py:7`. -/
def diffBytes (normal changed : List UInt8) : Nat :=
  (changed.zip normal).countP fun p ↦ p.1 != p.2

/-- Changed bytes are marked by `x` and unchanged ones by a dot; `src/fi/parseLog.py:11`. -/
def diffX (normal changed : List UInt8) : Text :=
  (changed.zip normal).map fun p ↦ if p.1 != p.2 then 'x' else '.'

/-- The class `.` of a pattern. -/
def dot (c : Char) : Bool := c != '\n'

/-- Group `n` of a match. -/
def group (gs : List Text) (n : Nat) : Text := gs.getD (n - 1) []

/-- The last part of the pattern, from the hexadecimal digits on. -/
def payloadPattern : List (Item Char) :=
  [.many dot 0 true, .lit (text "' ascii"), .many dot 0 false]

/-- The pattern of a corrupted response; `src/fi/parseLog.py:47`. -/
def corruptedPattern : List (Item Char) :=
  .many dot 0 false :: .lit (text "delay: ") :: .many Char.isDigit 1 true ::
    .lit (text " pulses: ") :: .many Char.isDigit 1 true ::
    .lit (text " TARGET CORRUPTED: b'") :: payloadPattern

/-- One line of the script's output. -/
structure Finding where
  wait : Nat
  data : Text
  mask : Text
  count : Nat
  deriving DecidableEq

/-- How the loop over the lines ends: at the last line, at one that does not match, or
with the exception of a text that is not hexadecimal. -/
inductive Ending where
  | finished
  | failedToMatch
  | typeError
  deriving DecidableEq

/-- The loop over the lines; `src/fi/parseLog.py:43`. -/
def parseLog : List Text → List Finding × Ending
  | [] => ([], .finished)
  | l :: ls =>
    if text "TARGET CORRUPTED" <:+: l then
      match groups corruptedPattern l with
      | none => ([], .failedToMatch)
      | some gs =>
        let data := group gs 3
        match unhexlify data with
        | none => ([], .typeError)
        | some dataBytes =>
          let (findings, ending) := parseLog ls
          (⟨int (group gs 1), data, diffX normal dataBytes, diffBytes normal dataBytes⟩ ::
            findings, ending)
    else parseLog ls

/-- A line that matches and whose group is hexadecimal is printed. -/
theorem parseLog_cons {l : Text} {gs : List Text} {dataBytes : List UInt8}
    (hin : text "TARGET CORRUPTED" <:+: l) (hgs : groups corruptedPattern l = some gs)
    (hdata : unhexlify (group gs 3) = some dataBytes) (ls : List Text) :
    parseLog (l :: ls) =
      (⟨int (group gs 1), group gs 3, diffX normal dataBytes, diffBytes normal dataBytes⟩ ::
        (parseLog ls).1, (parseLog ls).2) := by
  rw [parseLog, if_pos hin, hgs]
  simp only [hdata]

/-! ### The hexadecimal group -/

/-- A corrupted response on its line, from the hexadecimal digits on. -/
def payload (response : List UInt8) : Text :=
  hexlify response ++ (text "' ascii: " ++ (hexAscii response ++ ['\n']))

/-- A dot matches everything but a line break. -/
theorem dot_of_mem {cs : Text} (h : '\n' ∉ cs) : ∀ c ∈ cs, dot c := by
  intro c hc
  have hne : c ≠ '\n' := fun he ↦ h (he ▸ hc)
  simpa [dot] using hne

private theorem dot_hexlify (data : List UInt8) : ∀ c ∈ hexlify data, dot c :=
  dot_of_mem (not_mem_hexlify (by decide) data)

private theorem text_ascii_colon : text "' ascii: " = text "' ascii" ++ [':', ' '] := by
  rw [text_ofList, text_ofList]
  rfl

private theorem groups_ascii (zs : Text) :
    groups [.lit (text "' ascii"), .many dot 0 false] (text "' ascii" ++ zs) = some [] := by
  rw [groups_lit_append, groups_many_last]

private theorem infix_hexAscii_of_append {response : List UInt8} {us ws : Text}
    (h : text "' ascii: " ++ (hexAscii response ++ ['\n']) = us ++ (text "' ascii" ++ ws))
    (hne : us ≠ []) : text "' ascii" <:+: hexAscii response := by
  rw [text_ofList, text_ofList] at h
  have htail : '\'' :: ([' ', 'a', 's', 'c', 'i', 'i'] ++ ws) <:+
      [' ', 'a', 's', 'c', 'i', 'i', ':', ' '] ++ (hexAscii response ++ ['\n']) :=
    suffix_tail_of_append h hne
  -- no character between the two places is a quote mark
  have hs := suffix_of_suffix_append htail (by decide)
  have hi : ['\'', ' ', 'a', 's', 'c', 'i', 'i'] <:+: hexAscii response ++ ['\n'] :=
    (List.prefix_append _ ws).isInfix.trans hs.isInfix
  rw [text_ofList]
  rw [infix_append_cons_iff (by decide) (by decide)] at hi
  exact hi.resolve_right (by decide)

/-- The group is the hexadecimal digits of the response exactly when its text does not
have `' ascii`. -/
theorem groups_payload_iff (response : List UInt8) :
    groups payloadPattern (payload response) = some [hexlify response] ↔
      ¬ text "' ascii" <:+: hexAscii response := by
  rw [payloadPattern, payload, groups_many_eq_some_iff]
  constructor
  · rintro ⟨ys, zs, gs, hsplit, _, _, _, hgs, hmax⟩ ⟨before, after, htext⟩
    obtain ⟨rfl, _⟩ : ys = hexlify response ∧ gs = [] := by simpa using hgs
    have hzs := List.append_cancel_left hsplit
    -- the later occurrence would match as well, and its group is longer
    have hnone := hmax (text "' ascii: " ++ before) (text "' ascii" ++ (after ++ ['\n']))
      (by rw [← hzs, ← htext]; simp) ?_ ?_
    · rw [groups_ascii] at hnone
      cases hnone
    · rw [text_ofList]
      simp
    · apply dot_of_mem
      have hb : '\n' ∉ before := fun hb ↦ newline_not_mem_hexAscii response
        (by rw [← htext]; simp [hb])
      rw [text_ofList]
      simpa using hb
  · intro h
    refine ⟨hexlify response, _, [], rfl, dot_hexlify response, Nat.zero_le _, ?_, rfl, ?_⟩
    · rw [text_ascii_colon, List.append_assoc, groups_ascii]
    · intro us vs hzs hne _
      rw [Option.eq_none_iff_forall_ne_some]
      intro gs hm
      obtain ⟨ws, rfl, _⟩ := groups_lit_eq_some_iff.mp hm
      exact h (infix_hexAscii_of_append hzs hne)

/-- No other `' ascii` follows on the line where one is followed by `ws`. -/
def IsLast (ws : Text) : Prop :=
  ∀ us vs, text "' ascii" ++ ws = us ++ (text "' ascii" ++ vs) → us ≠ [] → '\n' ∈ us

/-- The one group ends at the last `' ascii`. -/
theorem exists_of_groups_payloadPattern {xs : Text} {gs : List Text}
    (h : groups payloadPattern xs = some gs) :
    ∃ g ws, gs = [g] ∧ xs = g ++ (text "' ascii" ++ ws) ∧ IsLast ws := by
  rw [payloadPattern, groups_many_eq_some_iff] at h
  obtain ⟨g, zs, gs', rfl, _, _, hzs, rfl, hmax⟩ := h
  obtain ⟨ws, rfl, hws⟩ := groups_lit_eq_some_iff.mp hzs
  rw [groups_many_last, Option.some.injEq] at hws
  refine ⟨g, ws, by rw [← hws, keep_true], rfl, fun us vs hus hne ↦ ?_⟩
  by_contra hn
  have hnone := hmax us _ hus hne (dot_of_mem hn)
  rw [groups_ascii] at hnone
  cases hnone

private theorem groups_payload_ne_none (response : List UInt8) :
    groups payloadPattern (payload response) ≠ none := by
  intro h
  have hnone := groups_many_eq_none_iff.mp h (hexlify response) _ rfl (dot_hexlify response)
    (Nat.zero_le _)
  rw [text_ascii_colon, List.append_assoc, groups_ascii] at hnone
  cases hnone

/-! ### The whole line -/

/-- A line up to the delay. -/
def beforeDelay (n : Nat) (a : Attempt) : Text :=
  dots n ++ (text "Attempt:  " ++ (decimal a.attempt ++ (preamble a ++
    (text "length: " ++ (decimal a.glitchLength ++ [' '])))))

/-- The parameters, with the dots before them, taken apart at the delay. -/
theorem parameters_eq_beforeDelay (n : Nat) (a : Attempt) :
    dots n ++ parameters a = beforeDelay n a ++ (text "delay: " ++ (decimal a.glitchDelay ++
      (text " pulses: " ++ (decimal a.pulses ++ [' '])))) := by
  rw [parameters_eq, beforeDelay]
  repeat rw [text_ofList]
  simp

/-- The line of a corrupted response taken apart as the pattern asks for it. -/
theorem logLine_corrupted {expectedResponse : List UInt8} (l : Loop) {a : Attempt}
    (h : outcome expectedResponse a = .corrupted) :
    logLine expectedResponse l a = beforeDelay l.dots a ++ (text "delay: " ++
      (decimal a.glitchDelay ++ (text " pulses: " ++ (decimal a.pulses ++
        (text " TARGET CORRUPTED: b'" ++ payload a.response))))) := by
  rw [logLine_eq, h, line, lead, embedded, payload, ← List.append_assoc,
    parameters_eq_beforeDelay]
  repeat rw [text_ofList]
  simp

/-- A repetition of digits takes a decimal number that no digit follows. -/
theorem groups_decimal {items : List (Item Char)} {n : Nat} {zs : Text} {gs : List Text}
    (hzs : ∀ c ∈ zs.head?, c.isDigit = false) (h : groups items zs = some gs) :
    groups (.many Char.isDigit 1 true :: items) (decimal n ++ zs) = some (decimal n :: gs) :=
  groups_many_run (fun _ hc ↦ isDigit_of_mem_decimal hc) (length_decimal_pos n) hzs h

/-- A corrupted response on its line, from the delay to the last word before its text. -/
def afterDelay (a : Attempt) : Text :=
  decimal a.glitchDelay ++ (text " pulses: " ++ (decimal a.pulses ++
    (text " TARGET CORRUPTED: b'" ++ (hexlify a.response ++ text "' ascii:"))))

private theorem afterDelay_append (a : Attempt) :
    decimal a.glitchDelay ++ (text " pulses: " ++ (decimal a.pulses ++
      (text " TARGET CORRUPTED: b'" ++ payload a.response))) =
      afterDelay a ++ ' ' :: (hexAscii a.response ++ ['\n']) := by
  rw [payload, afterDelay]
  repeat rw [text_ofList]
  simp

private theorem not_mem_afterDelay (a : Attempt) : 'y' ∉ afterDelay a := by
  have hdec : ∀ n, 'y' ∉ decimal n := not_mem_decimal rfl
  have hhex : 'y' ∉ hexlify a.response := not_mem_hexlify (by decide) _
  rw [afterDelay]
  repeat rw [text_ofList]
  simp [hdec, hhex]

private theorem groups_after_delay {a : Attempt} (hlen : a.response.length = 16) {us vs : Text}
    (h : text "delay: " ++ (afterDelay a ++ ' ' :: (hexAscii a.response ++ ['\n'])) = us ++ vs)
    (hne : us ≠ []) : groups corruptedPattern.tail vs = none := by
  -- only the text of the response could start a match, and it is too short
  by_cases hvs : vs <:+ hexAscii a.response ++ ['\n']
  · apply groups_eq_none_of_length_lt
    have hle := hvs.length_le
    rw [List.length_append, length_hexAscii, hlen] at hle
    rw [corruptedPattern, payloadPattern]
    repeat rw [text_ofList]
    exact Nat.lt_of_le_of_lt hle (by decide)
  · rw [Option.eq_none_iff_forall_ne_some]
    intro gs hm
    rw [corruptedPattern, List.tail_cons] at hm
    obtain ⟨ws, rfl, _⟩ := groups_lit_eq_some_iff.mp hm
    rw [text_ofList] at h hvs
    have htail : ['d', 'e', 'l', 'a', 'y'] ++ (':' :: ' ' :: ws) <:+ ['e', 'l', 'a', 'y', ':'] ++
        ' ' :: (afterDelay a ++ ' ' :: (hexAscii a.response ++ ['\n'])) :=
      suffix_tail_of_append h hne
    -- the word `delay` neither starts inside itself nor occurs up to the text
    rcases infix_or_suffix_of_append_suffix (by decide) (by decide) htail with hw | hw
    · exact absurd hw (by decide)
    · rcases infix_or_suffix_of_append_suffix (by decide) (by decide) hw with hw | hw
      · exact not_infix_of_not_mem (by decide) (not_mem_afterDelay a) hw
      · exact hvs hw

private theorem groups_logLine (n : Nat) {a : Attempt} (hlen : a.response.length = 16)
    {gs : List Text} (h : groups payloadPattern (payload a.response) = some gs) :
    groups corruptedPattern (beforeDelay n a ++ (text "delay: " ++ (decimal a.glitchDelay ++
      (text " pulses: " ++ (decimal a.pulses ++ (text " TARGET CORRUPTED: b'" ++
        payload a.response)))))) = some (decimal a.glitchDelay :: decimal a.pulses :: gs) := by
  rw [corruptedPattern, groups_many_eq_some_iff]
  refine ⟨beforeDelay n a, _, _, rfl, ?_, Nat.zero_le _, ?_, rfl, ?_⟩
  · apply dot_of_mem
    have hp : '\n' ∉ dots n ++ parameters a :=
      List.not_mem_append (newline_not_mem_dots n) (newline_not_mem_parameters a)
    rw [parameters_eq_beforeDelay, List.mem_append, not_or] at hp
    exact hp.1
  · rw [groups_lit_append]
    apply groups_decimal
    · rw [text_ofList]
      simp
    · rw [groups_lit_append]
      apply groups_decimal
      · rw [text_ofList]
        simp
      · rw [groups_lit_append, h]
  · intro us vs hzs hne _
    rw [afterDelay_append] at hzs
    exact groups_after_delay hlen hzs hne

/-! ### The log read back -/

/-- What the script should print of a corrupted response. -/
def finding (a : Attempt) : Finding where
  wait := a.glitchDelay
  data := hexlify a.response
  mask := diffX normal a.response
  count := diffBytes normal a.response

/-- The script finds the delay and the response of an attempt on its line. -/
structure Recovered (a : Attempt) (l : Text) : Prop where
  /-- The line matches; group 1 is the delay and group 3 the response. -/
  matched : ∃ gs, groups corruptedPattern l = some gs ∧
    group gs 1 = decimal a.glitchDelay ∧ group gs 3 = hexlify a.response
  /-- Wherever the line stands, the response is compared with the reference and printed. -/
  printed : ∀ ls, parseLog (l :: ls) = (finding a :: (parseLog ls).1, (parseLog ls).2)

/-- A corrupted response is read back from its line, also from one that starts with dots,
exactly when it does not have the bytes of `' ascii`. -/
theorem recovered_iff {expectedResponse : List UInt8} (l : Loop) {a : Attempt}
    (h : outcome expectedResponse a = .corrupted) :
    Recovered a (logLine expectedResponse l a) ↔ ¬ encode (text "' ascii") <:+: a.response := by
  have hlen := length_response_of_corrupted h
  have hfaithful : ∀ c ∈ text "' ascii", Faithful c := by
    rw [text_ofList]
    simp [Faithful]
  rw [← infix_hexAscii_iff hfaithful, ← groups_payload_iff]
  constructor
  · rintro ⟨⟨gs, hgs, _, hdata⟩, _⟩
    cases hm : groups payloadPattern (payload a.response) with
    | none => exact absurd hm (groups_payload_ne_none a.response)
    | some gs' =>
      obtain ⟨g, _, rfl, _⟩ := exists_of_groups_payloadPattern hm
      rw [logLine_corrupted l h, groups_logLine l.dots hlen hm, Option.some.injEq] at hgs
      rw [← hgs] at hdata
      rw [show g = hexlify a.response from hdata]
  · intro hm
    have hgs := groups_logLine l.dots hlen hm
    rw [← logLine_corrupted l h] at hgs
    refine ⟨⟨_, hgs, rfl, rfl⟩, fun ls ↦ ?_⟩
    have hin : text "TARGET CORRUPTED" <:+: logLine expectedResponse l a := by
      rw [logLine_eq, h]
      exact (corrupted_infix_line l.stats a).trans (List.suffix_append _ _).isInfix
    rw [parseLog_cons hin hgs (unhexlify_hexlify a.response)]
    simp [group, int_decimal, finding]

/-- An attempt with the parameters of the line quoted in the script, by the bytes that the
target answers. -/
def answering (response : List UInt8) : Attempt where
  attempt := 1416
  timeSpent := ⟨0, 0, 95829, by decide, by decide⟩
  glitchLength := 1
  glitchDelay := 13842
  pulses := 1
  response := response
  glitcherTimeout := false
  afterTimeout := []
  afterMutes := []

/-- A response with a changed byte is recovered. -/
theorem recovered_iff_plain :
    outcome normal (answering (normal.set 0 0x62)) = .corrupted ∧
      Recovered (answering (normal.set 0 0x62))
        (logLine normal .start (answering (normal.set 0 0x62))) := by
  have h : outcome normal (answering (normal.set 0 0x62)) = .corrupted := by decide +kernel
  exact ⟨h, (recovered_iff _ h).mpr (by decide +kernel)⟩

/-- A response that spells `' ascii` stops the script with an exception. -/
theorem not_recovered_ascii :
    outcome normal (answering (encode (text "' ascii") ++ List.replicate 9 0)) = .corrupted ∧
      parseLog [logLine normal .start
        (answering (encode (text "' ascii") ++ List.replicate 9 0))] = ([], .typeError) ∧
      ¬ Recovered (answering (encode (text "' ascii") ++ List.replicate 9 0))
        (logLine normal .start
          (answering (encode (text "' ascii") ++ List.replicate 9 0))) := by
  have hraise : parseLog [logLine normal .start
      (answering (encode (text "' ascii") ++ List.replicate 9 0))] = ([], .typeError) := by
    decide +kernel
  refine ⟨by decide +kernel, hraise, fun h ↦ ?_⟩
  have hprinted := h.printed []
  rw [hraise] at hprinted
  cases hprinted

end HorrorScope.Fi
