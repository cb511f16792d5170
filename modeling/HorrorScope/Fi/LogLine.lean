import HorrorScope.Fi.RunSetup

/-!
# Words on a line of the log

Where a word can stand on the first line of an attempt (`src/fi/runSetup.py:75`): in the
parameters, in the words that the script prints for the outcome, or in what the target
sent. The parts are set apart by spaces, so that no word stretches over two of them.
-/

namespace HorrorScope.Fi

open HorrorScope.Base

/-! ### The parts of a line -/

/-- The parameters of an attempt as its line has them. -/
def settings (a : Attempt) : Text :=
  text "length: " ++ (decimal a.glitchLength ++ (text " delay: " ++ (decimal a.glitchDelay ++
    (text " pulses: " ++ decimal a.pulses))))

/-- The parameters on the line. -/
theorem parameters_eq_settings (a : Attempt) :
    parameters a = text "Attempt:  " ++ (decimal a.attempt ++ (preamble a ++
      (settings a ++ [' ']))) := by
  rw [parameters_eq, settings]
  simp

/-- A space ends the parameters. -/
theorem exists_parameters_eq (a : Attempt) : ∃ ps, parameters a = ps ++ [' '] :=
  ⟨text "Attempt:  " ++ (decimal a.attempt ++ (preamble a ++ settings a)), by
    simp [parameters_eq_settings]⟩

/-- The words on the line of a corrupted response. -/
theorem lead_corrupted (s : Stats) (a : Attempt) :
    lead s a .corrupted =
      (text "TARGET CORRUPTED: b'" ++ (hexlify a.response ++ text "' ascii:")) ++ [' '] := by
  rw [lead]
  repeat rw [text_ofList]
  simp

private theorem lead_responded (s : Stats) (a : Attempt) :
    lead s a .responded =
      (text "TARGET RESPONDED: b'" ++ (hexlify a.response ++ text "' ascii:")) ++ [' '] := by
  rw [lead]
  repeat rw [text_ofList]
  simp

/-- What the target sent is empty or stands after a space. -/
theorem embedded_nil_or_lead (s : Stats) (a : Attempt) (o : Outcome) :
    embedded a o = [] ∨ ∃ words, lead s a o = words ++ [' '] := by
  cases o with
  | timeout =>
    rw [embedded, resetText, lead]
    split
    · exact Or.inl rfl
    · right
      refine ⟨text "[G] The glitcher timed out " ++ text "[T] Target failed to come back up", ?_⟩
      repeat rw [text_ofList]
      simp
  | correct => exact Or.inl rfl
  | mute =>
    right
    exact ⟨text "mute!: respLen " ++ decimal a.response.length, by rw [lead, List.append_assoc]⟩
  | corrupted => exact Or.inr ⟨_, lead_corrupted s a⟩
  | responded => exact Or.inr ⟨_, lead_responded s a⟩

/-! ### Words -/

/-- A word stands in the parameters, in the script's own words or in what the target
sent. -/
theorem infix_line_iff {w : Text} (hspace : ' ' ∉ w) (hnewline : '\n' ∉ w) (hw : w ≠ [])
    (s : Stats) (a : Attempt) (o : Outcome) :
    w <:+: line s a o ↔
      w <:+: parameters a ∨ w <:+: lead s a o ∨ w <:+: embedded a o := by
  have hnil : ¬ w <:+: [] := fun h ↦ hw (List.infix_nil.mp h)
  have hend : ∀ xs : Text, w <:+: xs ++ ['\n'] ↔ w <:+: xs := by
    intro xs
    rw [infix_append_cons_iff hnewline hw]
    exact or_iff_left hnil
  have hlast : ∀ xs : Text, w <:+: xs ++ [' '] ↔ w <:+: xs := by
    intro xs
    rw [infix_append_cons_iff hspace hw]
    exact or_iff_left hnil
  have hbody : w <:+: lead s a o ++ (embedded a o ++ ['\n']) ↔
      w <:+: lead s a o ∨ w <:+: embedded a o := by
    rcases embedded_nil_or_lead s a o with h | ⟨words, h⟩
    · rw [h, List.nil_append, hend]
      exact (or_iff_left hnil).symm
    · rw [h, List.append_assoc, List.singleton_append, infix_append_cons_iff hspace hw, hend,
        hlast]
  obtain ⟨ps, hps⟩ := exists_parameters_eq a
  rw [line, hps, List.append_assoc, List.singleton_append, infix_append_cons_iff hspace hw, hbody,
    hlast]

/-- A word with a character that the script's own text does not have can only come from the
target. -/
theorem infix_line_iff_embedded {w : Text} {c d : Char} (hspace : ' ' ∉ w) (hnewline : '\n' ∉ w)
    (s : Stats) (a : Attempt) {o : Outcome} (hc : c ∈ w) (hcp : c ∉ parameters a)
    (hd : d ∈ w) (hdl : d ∉ lead s a o) :
    w <:+: line s a o ↔ w <:+: embedded a o := by
  rw [infix_line_iff hspace hnewline (List.ne_nil_of_mem hc)]
  have hp := not_infix_of_not_mem hc hcp
  have hl := not_infix_of_not_mem hd hdl
  rw [or_iff_right hp, or_iff_right hl]

/-- `Correct` stands on the line of the correct response, or the target sent it. -/
theorem correct_infix_line_iff (s : Stats) (a : Attempt) (o : Outcome) :
    text "Correct" <:+: line s a o ↔ o = .correct ∨ text "Correct" <:+: embedded a o := by
  have hp : 'C' ∉ parameters a := not_mem_parameters a rfl (by decide)
  by_cases ho : o = .correct
  · subst ho
    refine iff_of_true ?_ (Or.inl rfl)
    have hlead : text "Correct" <+: lead s a .correct := by
      rw [lead, text_ofList, text_ofList]
      exact ⟨' ' :: 'r' :: 'e' :: 's' :: 'p' :: 'o' :: 'n' :: 's' :: 'e' :: '!' :: ' ' :: _, rfl⟩
    exact (hlead.trans (List.prefix_append _ _)).isInfix.trans (List.suffix_append _ _).isInfix
  · -- the script's own words have no `C`, or no `o` where a response is corrupted
    obtain ⟨d, hd, hdl⟩ : ∃ d ∈ text "Correct", d ∉ lead s a o := by
      cases o with
      | correct => exact absurd rfl ho
      | corrupted =>
        exact ⟨'o', by rw [text_ofList]; decide, not_mem_lead s a rfl (by decide)⟩
      | _ => exact ⟨'C', by rw [text_ofList]; decide, not_mem_lead s a rfl (by decide)⟩
    rw [or_iff_right ho]
    rw [text_ofList] at hd ⊢
    exact infix_line_iff_embedded (by decide) (by decide) s a (by decide) hp hd hdl

/-- Where the script itself does not print `TARGET`, only the target can. -/
theorem target_infix_line_iff (s : Stats) (a : Attempt) {o : Outcome}
    (ho : o = .timeout ∨ o = .mute) :
    text "TARGET" <:+: line s a o ↔ text "TARGET" <:+: embedded a o := by
  have hp : 'R' ∉ parameters a := not_mem_parameters a rfl (by decide)
  have hl : 'R' ∉ lead s a o := by
    apply not_mem_lead s a rfl
    rcases ho with rfl | rfl <;> decide
  rw [text_ofList]
  exact infix_line_iff_embedded (by decide) (by decide) s a (by decide) hp (by decide) hl

/-- `TARGET` stands on the line of a response that is too long. -/
theorem target_infix_line_responded (s : Stats) (a : Attempt) :
    text "TARGET" <:+: line s a .responded := by
  have hlead : text "TARGET" <+: lead s a .responded := by
    rw [lead, text_ofList, text_ofList]
    exact ⟨' ' :: 'R' :: 'E' :: 'S' :: 'P' :: 'O' :: 'N' :: 'D' :: 'E' :: 'D' :: _, rfl⟩
  exact (hlead.trans (List.prefix_append _ _)).isInfix.trans (List.suffix_append _ _).isInfix

/-- `TARGET CORRUPTED` stands on the line of a corrupted response. -/
theorem corrupted_infix_line (s : Stats) (a : Attempt) :
    text "TARGET CORRUPTED" <:+: line s a .corrupted := by
  have hlead : text "TARGET CORRUPTED" <+: lead s a .corrupted := by
    rw [lead, text_ofList, text_ofList]
    exact ⟨':' :: ' ' :: 'b' :: '\'' :: _, rfl⟩
  exact (hlead.trans (List.prefix_append _ _)).isInfix.trans (List.suffix_append _ _).isInfix

/-- On the line of a response that is too long only the target can write `TARGET CORRUPTED`. -/
theorem corrupted_infix_line_responded_iff (s : Stats) (a : Attempt) :
    text "TARGET CORRUPTED" <:+: line s a .responded ↔
      text "TARGET CORRUPTED" <:+: embedded a .responded := by
  have hp : 'U' ∉ parameters a ++ (text "TARGET RESPONDED: b'" ++
      (hexlify a.response ++ text "' ascii")) := by
    have hparams : 'U' ∉ parameters a := not_mem_parameters a rfl (by decide)
    have hhex : 'U' ∉ hexlify a.response := not_mem_hexlify (by decide) _
    rw [text_ofList, text_ofList]
    simp [hparams, hhex]
  have hline : line s a .responded =
      (parameters a ++ (text "TARGET RESPONDED: b'" ++ (hexlify a.response ++ text "' ascii"))) ++
        ':' :: ' ' :: (embedded a .responded ++ ['\n']) := by
    rw [line, lead]
    repeat rw [text_ofList]
    simp
  rw [hline, text_ofList]
  rw [infix_append_cons_iff (by decide) (by decide),
    or_iff_right (not_infix_of_not_mem (by decide) hp), List.infix_cons_iff,
    infix_append_cons_iff (by decide) (by decide)]
  simp

end HorrorScope.Fi
