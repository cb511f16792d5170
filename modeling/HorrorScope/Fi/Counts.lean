import Mathlib.Data.List.Count
import HorrorScope.Fi.Classified

/-!
# The counters of the loop and of the plot

`src/fi/runSetup.py:62` counts the attempts by the branch they take, and `src/fi/plotLog.py:83`
counts the records of its log by their colour. The two scripts share nothing but the text of the
log. They differ where an iteration raises an exception: if it does not come to its branch, its
line is plotted all the same, and the line of the next attempt is not.
-/

namespace HorrorScope.Fi

open HorrorScope.Base HorrorScope.Base.Regex

/-- The records of one colour; `src/fi/plotLog.py:84`. -/
def colorAttempts (color : Color) (attempts : List Record) : List Record :=
  attempts.filter fun x ↦ x.color = color

namespace Loop

variable (l : Loop) (it : Iteration)

/-- The colour of the outcome that an iteration reports. -/
def reported : List Color := if reports normal l it then [trueColor it.attempt] else []

/-- The colour that an iteration is plotted in. -/
def plots : List Color :=
  if l.dots = 0 then [if reports normal l it then trueColor it.attempt else .y] else []

/-- The outcome is counted and not plotted, because the line starts with dots. -/
def hides : List Color := if l.dots = 0 then [] else l.reported it

/-- The attempt is plotted and not counted, because it does not come to its outcome. -/
def cuts : List Attempt := if l.dots = 0 ∧ reports normal l it = false then [it.attempt] else []

/-- The glitcher timed out, which no counter of the loop counts. -/
def timeouts : List Attempt :=
  if reports normal l it ∧ it.attempt.glitcherTimeout then [it.attempt] else []

end Loop

/-! ### The counters -/

/-- The counters agree with the numbers of colours, up to the timeouts. -/
structure Agree (s : Stats) (timeouts : Nat) (colors : List Color) : Prop where
  g : colors.count .g = s.expected
  m : colors.count .m = s.glitched
  rbk : colors.count .r + colors.count .b + colors.count .k = s.corrupted
  y : colors.count .y = s.mute + timeouts

private theorem outcome_eq_timeout_iff (expectedResponse : List UInt8) (a : Attempt) :
    outcome expectedResponse a = .timeout ↔ a.glitcherTimeout = true := by
  unfold outcome
  split
  · next h => simp [h]
  · next h =>
    refine iff_of_false ?_ h
    split
    · exact Outcome.noConfusion
    · split
      · exact Outcome.noConfusion
      · split <;> exact Outcome.noConfusion

private theorem count_diffColor (diff : Nat) :
    [diffColor diff].count .r + [diffColor diff].count .b + [diffColor diff].count .k = 1 ∧
      [diffColor diff].count .g = 0 ∧ [diffColor diff].count .m = 0 ∧
        [diffColor diff].count .y = 0 := by
  unfold diffColor
  split
  · decide
  · split <;> decide

/-- An outcome adds one to a counter and to the colour that goes with it. -/
theorem Agree.count {s : Stats} {n : Nat} {colors : List Color} (h : Agree s n colors)
    (a : Attempt) :
    Agree (s.count (outcome normal a)) (n + if a.glitcherTimeout then 1 else 0)
      (colors ++ [trueColor a]) := by
  obtain ⟨hg, hm, hrbk, hy⟩ := h
  have htimeout : (if a.glitcherTimeout then 1 else 0) =
      if outcome normal a = .timeout then 1 else 0 := by
    simp only [outcome_eq_timeout_iff]
  constructor
  all_goals
    simp only [List.count_append, htimeout]
    rw [trueColor]
    cases outcome normal a
    case corrupted =>
      obtain ⟨hone, hno, hno', hno''⟩ := count_diffColor (diffBytes normal a.response)
      simp only [Stats.count, hno, hno', hno'', reduceCtorEq, if_false]
      omega
    all_goals
      simp only [Stats.count, List.count_singleton_self, List.count_singleton, beq_iff_eq,
        reduceCtorEq, if_true, if_false]
      omega

private theorem exists_stats_step (l : Loop) (it : Iteration) :
    ∃ m, (l.step normal it).stats =
      { if reports normal l it then l.stats.count (outcome normal it.attempt) else l.stats with
        mutesInARow := m } := by
  rw [Loop.step, runIteration]
  cases hraised : raised normal l it with
  | none =>
    have hreports : reports normal l it = true := by simp [reports, hraised]
    simp only [hreports, if_true, runAttempt, finish]
    split
    · exact ⟨0, rfl⟩
    · exact ⟨_, rfl⟩
  | some exit =>
    obtain ⟨f, hf, hraise⟩ := Option.bind_eq_some_iff.mp hraised
    have hreports : reports normal l it = (f == .mutesReset) := by simp [reports, hraised, hf]
    cases f with
    | command =>
      obtain rfl := Option.some.inj hraise
      exact ⟨l.stats.mutesInARow, by simp [hreports]⟩
    | timeoutReset =>
      rw [raiseAttempt] at hraise
      split at hraise
      · obtain rfl := Option.some.inj hraise
        exact ⟨l.stats.mutesInARow, by simp [hreports]⟩
      · cases hraise
    | mutesReset =>
      rw [raiseAttempt] at hraise
      split at hraise
      · obtain rfl := Option.some.inj hraise
        exact ⟨0, by simp [hreports]⟩
      · cases hraise

/-- One iteration keeps the counters in agreement with the colours that it reports. -/
theorem Agree.step {l : Loop} {n : Nat} {colors : List Color} (h : Agree l.stats n colors)
    (it : Iteration) :
    Agree (l.step normal it).stats (n + (l.timeouts it).length) (colors ++ l.reported it) := by
  obtain ⟨m, hm⟩ := exists_stats_step l it
  rw [hm]
  cases hreports : reports normal l it with
  | true =>
    have hcount := h.count it.attempt
    simp only [Loop.timeouts, Loop.reported, hreports, true_and, if_true]
    refine ⟨hcount.g, hcount.m, hcount.rbk, ?_⟩
    rw [hcount.y]
    cases it.attempt.glitcherTimeout <;> rfl
  | false =>
    simp only [Loop.timeouts, Loop.reported, hreports, Bool.false_eq_true, false_and, if_false,
      List.append_nil]
    exact ⟨h.g, h.m, h.rbk, h.y⟩

/-- The counters of a whole run agree with the colours that it reports. -/
theorem Agree.run {l : Loop} {n : Nat} {colors : List Color} (h : Agree l.stats n colors)
    (its : List Iteration) :
    Agree (Base.run (Loop.step normal) l its).stats
      (n + (observed Loop.timeouts (Loop.step normal) l its).length)
      (colors ++ observed Loop.reported (Loop.step normal) l its) := by
  induction its generalizing l n colors with
  | nil => simpa [observed] using h
  | cons it its ih =>
    have hih := ih (h.step it)
    rw [List.append_assoc, Nat.add_assoc, ← List.length_append] at hih
    exact hih

/-! ### The records -/

/-- Between the colours plotted and those reported: what the dots hide and what an exception cuts
off. -/
theorem count_plots (c : Color) (l : Loop) (its : List Iteration) :
    (observed Loop.plots (Loop.step normal) l its).count c +
        (observed Loop.hides (Loop.step normal) l its).count c =
      (observed Loop.reported (Loop.step normal) l its).count c +
        if c = .y then (observed Loop.cuts (Loop.step normal) l its).length else 0 := by
  induction its generalizing l with
  | nil => simp [observed]
  | cons it its ih =>
    have hih := ih (l.step normal it)
    have hstep : (l.plots it).count c + (l.hides it).count c =
        (l.reported it).count c + if c = .y then (l.cuts it).length else 0 := by
      by_cases hdots : l.dots = 0
      · cases hreports : reports normal l it with
        | true => simp [Loop.plots, Loop.hides, Loop.reported, Loop.cuts, hdots, hreports]
        | false =>
          cases c <;> simp [Loop.plots, Loop.hides, Loop.reported, Loop.cuts, hdots, hreports]
      · simp [Loop.plots, Loop.hides, Loop.cuts, hdots]
    simp only [observed, List.count_append, List.length_append]
    split
    · next hc =>
      rw [if_pos hc] at hih hstep
      omega
    · next hc =>
      rw [if_neg hc] at hih hstep
      omega

private theorem parseLines_skip (uniform : Nat → Jitter) (drawn : Nat) {l : Text}
    (h : l.head? ≠ some 'A') (ls : List Text) :
    parseLines uniform drawn (l :: ls) = parseLines uniform drawn ls := by
  rw [parseLines, groups_parameterPattern_eq_none h]
  simp

private theorem parseLines_skip_all (uniform : Nat → Jitter) (drawn : Nat) {ls : List Text}
    (h : ∀ l ∈ ls, l.head? ≠ some 'A') (rest : List Text) :
    parseLines uniform drawn (ls ++ rest) = parseLines uniform drawn rest := by
  induction ls with
  | nil => rfl
  | cons l ls ih =>
    rw [List.forall_mem_cons] at h
    rw [List.cons_append, parseLines_skip uniform drawn h.1, ih h.2]

private theorem parseLines_dots (uniform : Nat → Jitter) (drawn n : Nat) :
    parseLines uniform drawn (readlines (dots n)) = some [] := by
  -- the dots after the last exception are a line without a newline
  by_cases hn : n = 0
  · rw [hn]
    rfl
  · have hhead := head?_dots_append hn []
    rw [List.append_nil] at hhead
    have hne : dots n ≠ [] := by
      rintro hnil
      rw [hnil] at hhead
      cases hhead
    rw [readlines_of_not_mem (newline_not_mem_dots _) hne,
      parseLines_skip uniform drawn (by simp [hhead])]
    rfl

private theorem exists_cutWords (failure : Option Failure) :
    ∃ words, cutWords failure = words ++ ([] ++ ['\n']) ∧ '\n' ∉ words ∧
      ¬ text "length" <:+: words ∧ ¬ text "Correct" <:+: words ∧ ¬ text "TARGET" <:+: words := by
  unfold cutWords testScope
  split
  · refine ⟨text "[G] The glitcher timed out " ++
      (text "Testing Scope: if you're getting a lot of dots, reset the scope board. " ++
        text "Maybe board is waiting for trigger?"), ?_⟩
    repeat rw [text_ofList]
    exact ⟨rfl, by decide, by decide +kernel, by decide +kernel, by decide +kernel⟩
  · refine ⟨_, rfl, ?_⟩
    repeat rw [text_ofList]
    exact ⟨by decide, by decide +kernel, by decide +kernel, by decide +kernel⟩

private theorem not_infix_cut {w words : Text} {c : Char} {a : Attempt} (hc : c ∈ w)
    (hcp : c ∉ parameters a) (hspace : ' ' ∉ w) (hnewline : '\n' ∉ w) (hwords : ¬ w <:+: words) :
    ¬ w <:+: parameters a ++ (words ++ ([] ++ ['\n'])) := by
  have hne : w ≠ [] := List.ne_nil_of_mem hc
  obtain ⟨ps, hps⟩ := exists_parameters_eq a
  have hnot : ¬ w <:+: ps := by
    refine not_infix_of_not_mem hc fun hmem ↦ hcp ?_
    rw [hps]
    exact List.mem_append_left _ hmem
  rw [hps, List.append_assoc, List.singleton_append, infix_append_cons_iff hspace hne,
    List.nil_append, infix_append_cons_iff hnewline hne, List.infix_nil]
  exact not_or.mpr ⟨hnot, not_or.mpr ⟨hwords, hne⟩⟩

private theorem exists_parseLines_cut (uniform : Nat → Jitter) (drawn : Nat) (a : Attempt)
    (failure : Option Failure) :
    ∃ r : Record, r.color = .y ∧ ∀ ls,
      parseLines uniform drawn ((parameters a ++ cutWords failure) :: ls) =
        (parseLines uniform (drawn + 4) ls).map (r :: ·) := by
  obtain ⟨words, hcut, hnewline, hlength, hcorrect, htarget⟩ := exists_cutWords failure
  rw [hcut]
  have hgs := groups_parameterPattern_append a (onlySent_nil hlength) hnewline
  have hcolor : classify (parameters a ++ (words ++ ([] ++ ['\n']))) = .color .y := by
    rw [classify_eq_y_iff]
    constructor
    · refine not_infix_cut (c := 'C') ?_ (not_mem_parameters a rfl (by decide)) ?_ ?_ hcorrect
      all_goals
        rw [text_ofList]
        decide
    · refine not_infix_cut (c := 'R') ?_ (not_mem_parameters a rfl (by decide)) ?_ ?_ htarget
      all_goals
        rw [text_ofList]
        decide
  exact ⟨_, rfl, parseLines_cons uniform drawn (attempt_infix_append a _) hgs hcolor⟩

private theorem exists_parseLines_firstLine (uniform : Nat → Jitter) (drawn : Nat) (l : Loop)
    {it : Iteration} (h : Legible it.attempt) :
    ∃ rs : List Record, ∃ drawn', rs.map Record.color = l.plots it ∧ ∀ ls,
      parseLines uniform drawn ((dots l.dots ++ firstLine normal l it) :: ls) =
        (parseLines uniform drawn' ls).map (rs ++ ·) := by
  by_cases hdots : l.dots = 0
  · have hempty : dots l.dots = [] := by rw [hdots]; rfl
    rw [hempty, List.nil_append, firstLine, Loop.plots, if_pos hdots]
    cases reports normal l it with
    | true =>
      obtain ⟨r, hright, hparse⟩ := classified_line uniform drawn l.stats h
      exact ⟨[r], drawn + 4, by simp [hright.color], hparse⟩
    | false =>
      obtain ⟨r, hcolor, hparse⟩ := exists_parseLines_cut uniform drawn it.attempt it.failure
      exact ⟨[r], drawn + 4, by simp [hcolor], hparse⟩
  · refine ⟨[], drawn, by simp [Loop.plots, hdots], fun ls ↦ ?_⟩
    rw [parseLines_skip uniform drawn (by simp [head?_dots_append hdots])]
    simp

/-- The records of a run have the colours that its iterations are plotted in. -/
theorem exists_parseLines_runLog (uniform : Nat → Jitter) (drawn : Nat) (l : Loop)
    {its : List Iteration} (h : ∀ it ∈ its, Legible it.attempt) :
    ∃ records, parseLines uniform drawn (readlines (dots l.dots ++ runLog normal l its)) =
        some records ∧
      records.map Record.color = observed Loop.plots (Loop.step normal) l its := by
  induction its generalizing l drawn with
  | nil =>
    refine ⟨[], ?_, rfl⟩
    rw [runLog, observed, List.append_nil]
    exact parseLines_dots uniform drawn l.dots
  | cons it its ih =>
    rw [List.forall_mem_cons] at h
    obtain ⟨rs, drawn', hcolors, hparse⟩ := exists_parseLines_firstLine uniform drawn l h.1
    obtain ⟨ls, hls, hother⟩ := exists_readlines_prints normal l it
      (runLog normal (l.step normal it) its)
    obtain ⟨records, hrecords, hrest⟩ := ih drawn' (l.step normal it) h.2
    refine ⟨rs ++ records, ?_, ?_⟩
    · change parseLines uniform drawn (readlines (dots l.dots ++ (l.prints normal it ++
        runLog normal (l.step normal it) its))) = _
      rw [hls, hparse, parseLines_skip_all uniform drawn' hother, hrecords]
      rfl
    · rw [List.map_append, hcolors, hrest]
      rfl

private theorem length_colorAttempts (color : Color) (records : List Record) :
    (colorAttempts color records).length = (records.map Record.color).count color := by
  rw [colorAttempts, ← List.countP_eq_length_filter, List.count, List.countP_map]
  refine List.countP_congr fun r _ ↦ ?_
  simp

/-- For every run of the script whose attempts are all legible, exceptions included: the plot of its
log counts as many green, magenta, red, blue or black and yellow records as the loop has counted
expected, glitched, corrupted and mute responses, the timeouts among the yellow ones. The attempts
right behind an exception are missing from the plot, and those that an exception cuts off before
their outcome are yellow and not counted. -/
theorem plotted_counts (uniform : Nat → Jitter) (failedTests : Nat) (r : Recovery)
    {its : List Iteration} (h : ∀ it ∈ its, Legible it.attempt) :
    ∃ records, parseLines uniform 0
        (readlines (opening failedTests r normal ++ runLog normal .start its)) = some records ∧
      let s := (run (Loop.step normal) .start its).stats
      let hidden := observed Loop.hides (Loop.step normal) .start its
      (colorAttempts .g records).length + hidden.count .g = s.expected ∧
      (colorAttempts .m records).length + hidden.count .m = s.glitched ∧
      (colorAttempts .r records).length + (colorAttempts .b records).length +
          (colorAttempts .k records).length +
        (hidden.count .r + hidden.count .b + hidden.count .k) = s.corrupted ∧
      (colorAttempts .y records).length + hidden.count .y =
        s.mute + (observed Loop.timeouts (Loop.step normal) .start its).length +
          (observed Loop.cuts (Loop.step normal) .start its).length := by
  obtain ⟨records, hrecords, hcolors⟩ := exists_parseLines_runLog uniform 0 .start h
  obtain ⟨ls, hls, hother⟩ := otherLines_opening failedTests r normal (runLog normal .start its)
  have hzero : Agree Loop.start.stats 0 [] := ⟨rfl, rfl, rfl, rfl⟩
  have hagree := hzero.run its
  rw [Nat.zero_add, List.nil_append] at hagree
  have hplots (c : Color) := count_plots c .start its
  refine ⟨records, ?_, ?_⟩
  · rw [hls, parseLines_skip_all uniform 0 hother]
    exact hrecords
  · simp only [length_colorAttempts, hcolors]
    refine ⟨?_, ?_, ?_, ?_⟩
    · exact (hplots .g).trans hagree.g
    · exact (hplots .m).trans hagree.m
    · have hr := hplots .r
      have hb := hplots .b
      have hk := hplots .k
      have hrbk := hagree.rbk
      simp only [reduceCtorEq, if_false, Nat.add_zero] at hr hb hk
      omega
    · have hy := hplots .y
      rw [if_pos rfl, hagree.y] at hy
      exact hy

/-- A correct response; an exception behind the parameters; no response, on the line with the dots;
and one with the last byte changed. -/
def fourIterations : List Iteration :=
  [⟨answering normal, none, ⟨[], 0⟩⟩, ⟨answering [], some .command, ⟨[], 2⟩⟩,
    ⟨answering [], none, ⟨[], 0⟩⟩, ⟨answering (normal.dropLast ++ [0]), none, ⟨[], 0⟩⟩]

private theorem legible_fourIterations : ∀ it ∈ fourIterations, Legible it.attempt := by
  have hnone : ∀ it ∈ fourIterations,
      groups settingsPattern (embedded it.attempt (outcome normal it.attempt)) = none := by
    decide +kernel
  have hwords : ∀ it ∈ fourIterations, ∀ w ∈ misleading (outcome normal it.attempt),
      ¬ w <:+: embedded it.attempt (outcome normal it.attempt) := by decide +kernel
  intro it hit
  refine ⟨hwords it hit, fun gs hgs ↦ ?_⟩
  rw [hnone it hit] at hgs
  cases hgs

/-- Four iterations, one with an exception. -/
theorem plotted_counts_fourIterations :
    ∃ records, parseLines noJitter 0
        (readlines (opening 0 ⟨[], 0⟩ normal ++ runLog normal .start fourIterations)) =
          some records ∧
      (colorAttempts .g records).length = 1 ∧ (colorAttempts .m records).length = 0 ∧
      (colorAttempts .r records).length + (colorAttempts .b records).length +
        (colorAttempts .k records).length = 1 ∧
      (colorAttempts .y records).length + 1 = 2 := by
  have hstats : (run (Loop.step normal) .start fourIterations).stats = ⟨1, 0, 1, 1, 0⟩ := by
    decide +kernel
  have hhidden : observed Loop.hides (Loop.step normal) .start fourIterations = [.y] := by
    decide +kernel
  have htimeouts :
      (observed Loop.timeouts (Loop.step normal) .start fourIterations).length = 0 := by
    decide +kernel
  have hcuts : (observed Loop.cuts (Loop.step normal) .start fourIterations).length = 1 := by
    decide +kernel
  obtain ⟨records, hrecords, hcounts⟩ :=
    plotted_counts noJitter 0 ⟨[], 0⟩ legible_fourIterations
  simp only [hstats, hhidden, htimeouts, hcuts] at hcounts
  exact ⟨records, hrecords, hcounts⟩

end HorrorScope.Fi
