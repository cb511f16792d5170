import HorrorScope.Fi.RunSetup

/-!
# The lines of the log

What the loop of `src/fi/runSetup.py:69` prints in a run of iterations, line by line. Each
iteration adds one line with the parameters of its attempt. It starts on a line of its own,
unless the iteration before has raised an exception: then `testTarget` has left dots on it.
-/

namespace HorrorScope.Fi

open HorrorScope.Base

/-! ### A run of iterations -/

/-- What an iteration leaves to the next one. -/
def Loop.step (expectedResponse : List UInt8) (l : Loop) (it : Iteration) : Loop :=
  (runIteration expectedResponse l it).2

/-- What an iteration prints. -/
def Loop.prints (expectedResponse : List UInt8) (l : Loop) (it : Iteration) : Text :=
  (runIteration expectedResponse l it).1

/-- What the loop prints. -/
def runLog (expectedResponse : List UInt8) (l : Loop) (its : List Iteration) : Text :=
  observed (Loop.prints expectedResponse) (Loop.step expectedResponse) l its

/-- What the script prints before the loop (`src/fi/runSetup.py:25,52`): the tests of the scope,
that of the target, and the response without a glitch. -/
def opening (failedTests : Nat) (r : Recovery) (expectedResponse : List UInt8) : Text :=
  (List.replicate (failedTests + 1) testScope).flatten ++ (testTarget r ++
    print ['\n'] [text "Expected response: ", reprBytes (encode (hexlify expectedResponse)),
      text "ascii:", hexAscii expectedResponse])

/-- The iteration comes to the branch of its outcome, which it counts and reports. -/
def reports (expectedResponse : List UInt8) (l : Loop) (it : Iteration) : Bool :=
  (raised expectedResponse l it).isNone || it.failure == some .mutesReset

/-- What stands behind the parameters of an attempt that does not come to its outcome: the test of
the scope ends the line. -/
def cutWords : Option Failure → Text
  | some .timeoutReset => print [' '] [text "[G] The glitcher timed out"] ++ testScope
  | _ => testScope

/-- The line that an attempt starts on, without the dots. -/
def firstLine (expectedResponse : List UInt8) (l : Loop) (it : Iteration) : Text :=
  if reports expectedResponse l it then
    line l.stats it.attempt (outcome expectedResponse it.attempt)
  else parameters it.attempt ++ cutWords it.failure

/-- The next attempt starts on a line with dots exactly if the iteration raises an exception. -/
theorem dots_step_eq_zero_iff (expectedResponse : List UInt8) (l : Loop) (it : Iteration) :
    (l.step expectedResponse it).dots = 0 ↔ raised expectedResponse l it = none := by
  rw [Loop.step, runIteration]
  cases raised expectedResponse l it with
  | none => simp
  | some exit => simp

/-! ### Lines that start otherwise -/

/-- A text of whole lines none of which starts like that of an attempt. -/
def OtherLines (t : Text) : Prop :=
  ∀ rest, ∃ ls, readlines (t ++ rest) = ls ++ readlines rest ∧ ∀ l ∈ ls, l.head? ≠ some 'A'

private theorem otherLines_nil : OtherLines [] := fun _ ↦ ⟨[], rfl, by simp⟩

private theorem otherLines_of_isLine {t : Text} (ht : IsLine t) (hhead : t.head? ≠ some 'A') :
    OtherLines t :=
  fun rest ↦ ⟨[t], ht.readlines_append rest, by simpa using hhead⟩

private theorem OtherLines.append {t t' : Text} (ht : OtherLines t) (ht' : OtherLines t') :
    OtherLines (t ++ t') := by
  intro rest
  obtain ⟨ls, hls, hother⟩ := ht (t' ++ rest)
  obtain ⟨ls', hls', hother'⟩ := ht' rest
  refine ⟨ls ++ ls', ?_, ?_⟩
  · rw [List.append_assoc, hls, hls', List.append_assoc]
  · intro l hl
    rcases List.mem_append.mp hl with hl | hl
    · exact hother l hl
    · exact hother' l hl

private theorem otherLines_fields (s : Stats) : OtherLines (print ['\n'] s.fields) := by
  have hdec : ∀ n, '\n' ∉ decimal n := not_mem_decimal rfl
  have hend : print ['\n'] s.fields = print [] s.fields ++ ['\n'] := print_eq_append ..
  apply otherLines_of_isLine
  · refine ⟨print [] s.fields, ?_, hend⟩
    rw [Stats.fields]
    repeat rw [text_ofList]
    simp [print, hdec]
  · rw [Stats.fields, text_ofList]
    simp [print]

private theorem isLine_resetTarget (response : List UInt8) : IsLine (resetTarget response) := by
  unfold resetTarget
  split
  · exact ⟨text "Target came back up", by rw [text_ofList]; decide, rfl⟩
  · refine ⟨print [] [text "[T] Target failed to come back up", hexAscii response], ?_, ?_⟩
    · rw [text_ofList]
      simp [print, newline_not_mem_hexAscii]
    · simp [print]

private theorem otherLines_resetTarget (response : List UInt8) :
    OtherLines (resetTarget response) := by
  refine otherLines_of_isLine (isLine_resetTarget response) ?_
  unfold resetTarget
  split
  · rw [text_ofList]
    simp [print]
  · rw [text_ofList]
    simp [print]

private theorem isLine_testScope : IsLine testScope := by
  refine ⟨text "Testing Scope: if you're getting a lot of dots, reset the scope board. " ++
    text "Maybe board is waiting for trigger?", ?_, rfl⟩
  rw [text_ofList, text_ofList]
  decide

private theorem otherLines_tooManyMutes {t : Text} (ht : IsLine t) :
    OtherLines (print [' '] [text "\nToo many mutes in row resetting"] ++ t) := by
  have hsplit : print [' '] [text "\nToo many mutes in row resetting"] =
      ['\n'] ++ text "Too many mutes in row resetting " := by
    rw [text_ofList, text_ofList]
    rfl
  rw [hsplit, List.append_assoc]
  refine (otherLines_of_isLine ⟨[], by simp, rfl⟩ (by simp)).append
    (otherLines_of_isLine (ht.append ?_) ?_)
  · rw [text_ofList]
    decide
  · rw [text_ofList]
    simp

/-- No line after the first one of an attempt starts like it. -/
theorem otherLines_afterLine (s : Stats) (a : Attempt) (o : Outcome) :
    OtherLines (afterLine s a o) := by
  rw [afterLine]
  split
  · exact otherLines_nil
  · unfold finish
    split
    · dsimp only
      rw [← List.append_assoc]
      exact (otherLines_tooManyMutes (isLine_resetTarget _)).append (otherLines_fields _)
    · exact otherLines_fields _

private theorem otherLines_testing (r : Recovery) :
    OtherLines (print ['\n'] [text "Testing target"] ++ resetTarget r.response) := by
  refine OtherLines.append (otherLines_of_isLine ⟨text "Testing target", ?_, rfl⟩ ?_)
    (otherLines_resetTarget r.response)
  · rw [text_ofList]
    decide
  · rw [text_ofList]
    simp [print]

private theorem testTarget_eq (r : Recovery) :
    testTarget r = print ['\n'] [text "Testing target"] ++ resetTarget r.response ++
      dots (r.failedTests + 1) := (List.append_assoc ..).symm

/-- `testTarget` prints two lines and leaves the third open. -/
theorem exists_readlines_testTarget (r : Recovery) (rest : Text) :
    ∃ ls, readlines (testTarget r ++ rest) = ls ++ readlines (dots (r.failedTests + 1) ++ rest) ∧
      ∀ l ∈ ls, l.head? ≠ some 'A' := by
  rw [testTarget_eq, List.append_assoc]
  exact otherLines_testing r _

private theorem otherLines_testScope : OtherLines testScope := by
  refine otherLines_of_isLine isLine_testScope ?_
  rw [testScope, text_ofList]
  simp [print]

private theorem otherLines_replicate (n : Nat) {t : Text} (ht : OtherLines t) :
    OtherLines (List.replicate n t).flatten := by
  induction n with
  | zero => exact otherLines_nil
  | succ n ih =>
    rw [List.replicate_succ, List.flatten_cons]
    exact ht.append ih

/-- No line before the loop starts like that of an attempt. -/
theorem otherLines_opening (failedTests : Nat) (r : Recovery) (expectedResponse : List UInt8) :
    OtherLines (opening failedTests r expectedResponse) := by
  have hline : IsLine (print ['\n'] [text "Expected response: ",
      reprBytes (encode (hexlify expectedResponse)), text "ascii:",
      hexAscii expectedResponse]) := by
    refine ⟨print [] [text "Expected response: ",
      reprBytes (encode (hexlify expectedResponse)), text "ascii:", hexAscii expectedResponse],
      ?_, print_eq_append ..⟩
    rw [text_ofList, text_ofList]
    simp [print, newline_not_mem_reprBytes, newline_not_mem_hexAscii]
  rw [opening, testTarget_eq, List.append_assoc]
  refine (otherLines_replicate _ otherLines_testScope).append ((otherLines_testing r).append
    (otherLines_of_isLine (hline.append (newline_not_mem_dots _)) ?_))
  rw [head?_dots_append (Nat.succ_ne_zero _)]
  simp

/-! ### The lines of an iteration -/

private theorem isLine_cutWords (failure : Option Failure) : IsLine (cutWords failure) := by
  unfold cutWords
  split
  · refine isLine_testScope.append ?_
    rw [text_ofList]
    decide
  · exact isLine_testScope

private theorem mutesReset_eq {s : Stats} {a : Attempt} {o : Outcome}
    (h : maxMutesInARow < (s.count o).mutesInARow) : report a o =
      lead s a o ++ (embedded a o ++ ['\n']) := by
  refine report_eq s a ?_
  rintro rfl
  exact absurd h (Nat.not_lt_zero _)

private theorem raiseAttempt_append {expectedResponse : List UInt8} {l : Loop} {it : Iteration}
    {printed : Text} {s : Stats} (h : raised expectedResponse l it = some (printed, s)) :
    ∃ t, OtherLines t ∧ printed ++ testScope = firstLine expectedResponse l it ++ t := by
  obtain ⟨f, hf, hraise⟩ := Option.bind_eq_some_iff.mp h
  cases f with
  | command =>
    obtain ⟨rfl, -⟩ : parameters it.attempt = printed ∧ l.stats = s := by
      simpa [raiseAttempt] using hraise
    refine ⟨[], otherLines_nil, ?_⟩
    simp [firstLine, reports, h, hf, cutWords]
  | timeoutReset =>
    rw [raiseAttempt] at hraise
    split at hraise
    · obtain ⟨rfl, -⟩ := Prod.mk.inj (Option.some.inj hraise)
      refine ⟨[], otherLines_nil, ?_⟩
      simp [firstLine, reports, h, hf, cutWords]
    · cases hraise
  | mutesReset =>
    rw [raiseAttempt] at hraise
    split at hraise
    · next hmutes =>
      obtain ⟨rfl, -⟩ := Prod.mk.inj (Option.some.inj hraise)
      refine ⟨_, otherLines_tooManyMutes isLine_testScope, ?_⟩
      rw [mutesReset_eq hmutes]
      simp [firstLine, reports, hf, line]
    · cases hraise

private theorem isLine_firstLine (expectedResponse : List UInt8) (l : Loop) (it : Iteration) :
    IsLine (dots l.dots ++ firstLine expectedResponse l it) := by
  rw [firstLine]
  split
  · exact isLine_line ..
  · exact ((isLine_cutWords _).append (newline_not_mem_parameters _)).append
      (newline_not_mem_dots _)

/-- An iteration adds the line of its attempt, behind the dots that are there, and lines that
start otherwise. -/
theorem exists_readlines_prints (expectedResponse : List UInt8) (l : Loop) (it : Iteration)
    (rest : Text) :
    ∃ ls, readlines (dots l.dots ++ (l.prints expectedResponse it ++ rest)) =
        (dots l.dots ++ firstLine expectedResponse l it) ::
          (ls ++ readlines (dots (l.step expectedResponse it).dots ++ rest)) ∧
      ∀ x ∈ ls, x.head? ≠ some 'A' := by
  have hfirst := isLine_firstLine expectedResponse l it
  rw [Loop.prints, Loop.step, runIteration]
  cases hraised : raised expectedResponse l it with
  | none =>
    obtain ⟨ls, hls, hother⟩ := otherLines_afterLine l.stats it.attempt
      (outcome expectedResponse it.attempt) rest
    have hline : firstLine expectedResponse l it =
        line l.stats it.attempt (outcome expectedResponse it.attempt) := by
      simp [firstLine, reports, hraised]
    refine ⟨ls, ?_, hother⟩
    rw [hline] at hfirst
    dsimp only
    rw [runAttempt_eq, List.append_assoc, ← List.append_assoc (dots _), hfirst.readlines_append,
      hls, hline]
    rfl
  | some exit =>
    obtain ⟨printed, s⟩ := exit
    obtain ⟨t, ht, happend⟩ := raiseAttempt_append hraised
    obtain ⟨ls, hls, hother⟩ := exists_readlines_testTarget it.recovery rest
    obtain ⟨ls', hls', hother'⟩ := ht (testTarget it.recovery ++ rest)
    refine ⟨ls' ++ ls, ?_, ?_⟩
    · dsimp only
      rw [← List.append_assoc printed, happend]
      simp only [List.append_assoc]
      rw [← List.append_assoc (dots _), hfirst.readlines_append, hls', hls]
    · intro x hx
      rcases List.mem_append.mp hx with hx | hx
      · exact hother' x hx
      · exact hother x hx

end HorrorScope.Fi
