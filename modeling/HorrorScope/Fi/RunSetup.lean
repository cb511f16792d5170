import HorrorScope.Base.Bits
import HorrorScope.Base.Run
import HorrorScope.Base.Text

/-!
# The log of the fault injection loop

`src/fi/runSetup.py:31,40,69` and `hexAscii` of `src/fi/scope.py:4`. One iteration of the
loop draws the glitch parameters, arms the glitcher, reads the target's answer and prints
what came of it. What the hardware returns in an iteration (the answer, the glitcher's
timeout, what the target sends when it is reset) is a field of `Attempt`; `target.read(100)`
bounds an answer at 100 bytes, which nothing below needs. An iteration may also raise an
exception, and then the scope and the target are tested before the loop goes on. The
traceback goes to the standard error, which is not part of the log.

A text is a list of characters; the scripts that read the log see its bytes, which differ
from the characters only in the two bytes of U+0080, and none of their patterns tells these
apart.
-/

namespace HorrorScope.Fi

open HorrorScope.Base

/-- Text as it is printed and read. -/
abbrev Text := List Char

/-! ### What Python prints -/

/-- The arguments of `print` with a space between them, then its `end`. -/
def print (ending : Text) : List Text → Text
  | [] => ending
  | [arg] => arg ++ ending
  | arg :: next :: args => arg ++ ' ' :: print ending (next :: args)

/-- The bytes of a text of ASCII characters. -/
def encode (cs : Text) : List UInt8 := cs.map fun c ↦ UInt8.ofNat c.toNat

/-- A byte as a printable character, or a dot (`src/fi/scope.py:6`). -/
def asciiChar (d : UInt8) : Char := if 0x20 ≤ d ∧ d ≤ 0x80 then Char.ofNat d.toNat else '.'

/-- One character for each byte; `src/fi/scope.py:4`. -/
def hexAscii (data : List UInt8) : Text := data.map asciiChar

/-- One byte in the `repr` of a bytes object. -/
def reprByte (quote : Char) (d : UInt8) : Text :=
  let c := Char.ofNat d.toNat
  if c = quote ∨ c = '\\' then ['\\', c]
  else if c = '\t' then ['\\', 't']
  else if c = '\n' then ['\\', 'n']
  else if c = '\r' then ['\\', 'r']
  else if d < 0x20 ∨ 0x7f ≤ d then ['\\', 'x'] ++ hexlify [d]
  else [c]

/-- The `repr` of a bytes object: in double quotes if it has a single quote and no double
one. -/
def reprBytes (data : List UInt8) : Text :=
  let quote := if 0x27 ∈ data ∧ 0x22 ∉ data then '"' else '\''
  'b' :: quote :: (data.flatMap (reprByte quote) ++ [quote])

/-- A `datetime.timedelta`, in the normal form Python keeps it in. -/
structure Timedelta where
  days : Int
  seconds : Nat
  microseconds : Nat
  seconds_lt : seconds < 86400
  microseconds_lt : microseconds < 1000000

/-- The `%d` of an integer. -/
def signed (n : Int) : Text := if n < 0 then '-' :: decimal n.natAbs else decimal n.natAbs

/-- The `%0<width>d` of a number. -/
def padded (width n : Nat) : Text := (decimal n).leftpad width '0'

/-- The `str` of a `timedelta`: days if there are any, `H:MM:SS`, microseconds if there
are any. -/
def Timedelta.str (t : Timedelta) : Text :=
  let days := if t.days = 0 then [] else
    signed t.days ++ text " day" ++ (if t.days.natAbs = 1 then [] else ['s']) ++ text ", "
  let microseconds := if t.microseconds = 0 then [] else '.' :: padded 6 t.microseconds
  days ++ decimal (t.seconds / 3600) ++ ':' :: padded 2 (t.seconds / 60 % 60) ++
    ':' :: padded 2 (t.seconds % 60) ++ microseconds

/-! ### One attempt -/

/-- The counters of the loop (`src/fi/runSetup.py:62`). -/
structure Stats where
  expected : Nat
  glitched : Nat
  mute : Nat
  corrupted : Nat
  mutesInARow : Nat
  deriving DecidableEq, Repr

/-- One iteration of the loop: its number and parameters, and what the hardware returns
in it. -/
structure Attempt where
  attempt : Nat
  timeSpent : Timedelta
  glitchLength : Nat
  glitchDelay : Nat
  pulses : Nat
  /-- What the target answers. -/
  response : List UInt8
  glitcherTimeout : Bool
  /-- What the target sends when it is reset because the glitcher timed out. -/
  afterTimeout : List UInt8
  /-- What the target sends when it is reset after too many mutes. -/
  afterMutes : List UInt8

/-- The branch that an attempt takes. -/
inductive Outcome where
  | timeout
  | correct
  | mute
  | corrupted
  | responded
  deriving DecidableEq, Repr

/-- `maxMutesInARow` (`src/fi/runSetup.py:16`). -/
def maxMutesInARow : Nat := 1

/-- The tests of the loop, in their order (`src/fi/runSetup.py:93`). -/
def outcome (expectedResponse : List UInt8) (a : Attempt) : Outcome :=
  if a.glitcherTimeout then .timeout
  else if expectedResponse = a.response then .correct
  else if a.response.length < 16 ∨ encode (text "arduino") <:+: a.response then .mute
  else if a.response.length = 16 then .corrupted
  else .responded

/-- The parameters printed first, on a line left open (`src/fi/runSetup.py:75`). -/
def parameters (a : Attempt) : Text :=
  print [' '] [text "Attempt: ", decimal a.attempt, text "TimeSpent:",
    a.timeSpent.str, text "length:", decimal a.glitchLength, text "delay:",
    decimal a.glitchDelay, text "pulses:", decimal a.pulses]

/-- What `resetTarget` prints (`src/fi/runSetup.py:40`). -/
def resetTarget (response : List UInt8) : Text :=
  if encode (text "arduino") <:+: response then print ['\n'] [text "Target came back up"]
  else print ['\n'] [text "[T] Target failed to come back up", hexAscii response]

/-- What each branch prints (`src/fi/runSetup.py:93`). `hexlify` returns bytes, which are
printed as their `repr`. -/
def report (a : Attempt) : Outcome → Text
  | .timeout =>
    print [' '] [text "[G] The glitcher timed out"] ++ resetTarget a.afterTimeout
  | .correct => print [' '] [text "Correct response!"]
  | .mute =>
    print [' '] [text "mute!: respLen", decimal a.response.length] ++
      print ['\n'] [reprBytes a.response]
  | .corrupted =>
    print ['\n'] [text "TARGET CORRUPTED:", reprBytes (encode (hexlify a.response)),
      text "ascii:", hexAscii a.response]
  | .responded =>
    print ['\n'] [text "TARGET RESPONDED:", reprBytes (encode (hexlify a.response)),
      text "ascii:", hexAscii a.response]

/-- What each branch counts. -/
def Stats.count (s : Stats) : Outcome → Stats
  | .timeout => s
  | .correct => { s with expected := s.expected + 1, mutesInARow := 0 }
  | .mute => { s with mute := s.mute + 1, mutesInARow := s.mutesInARow + 1 }
  | .corrupted => { s with corrupted := s.corrupted + 1, mutesInARow := s.mutesInARow + 1 }
  | .responded => { s with glitched := s.glitched + 1, mutesInARow := s.mutesInARow + 1 }

/-- The counters printed last (`src/fi/runSetup.py:118`). -/
def Stats.fields (s : Stats) : List Text :=
  [text "##### expected:", decimal s.expected, text "glitched:", decimal s.glitched,
    text "corrupted", decimal s.corrupted, text "mute:", decimal s.mute]

/-- The end of an iteration: the target is reset after too many mutes, and the counters
are printed (`src/fi/runSetup.py:114`). -/
def finish (s : Stats) (a : Attempt) : Text × Stats :=
  if maxMutesInARow < s.mutesInARow then
    let s := { s with mutesInARow := 0 }
    (print [' '] [text "\nToo many mutes in row resetting"] ++
      (resetTarget a.afterMutes ++ print ['\n'] s.fields), s)
  else (print ['\n'] s.fields, s)

/-- An iteration that raises no exception: what it prints and the counters after it
(`src/fi/runSetup.py:69`). -/
def runAttempt (expectedResponse : List UInt8) (s : Stats) (a : Attempt) : Text × Stats :=
  let o := outcome expectedResponse a
  let (closing, s) := finish (s.count o) a
  (parameters a ++ (report a o ++ closing), s)

/-! ### Exceptions -/

/-- The call that raises an exception, where an iteration comes to it. -/
inductive Failure where
  /-- A command to the glitcher or a use of the target's port, before the branches. -/
  | command
  /-- `resetTarget` after a timeout of the glitcher. -/
  | timeoutReset
  /-- `resetTarget` after too many mutes. -/
  | mutesReset
  deriving DecidableEq, Repr

/-- A test of the target: what it sends when it is reset, and how many tests it fails. -/
structure Recovery where
  response : List UInt8
  failedTests : Nat

/-- The dots of the tests, on a line left open. -/
def dots (n : Nat) : Text := (List.replicate n (print [' '] [text "."])).flatten

/-- What `testTarget` prints (`src/fi/runSetup.py:31`). -/
def testTarget (r : Recovery) : Text :=
  print ['\n'] [text "Testing target"] ++ (resetTarget r.response ++ dots (r.failedTests + 1))

/-- What `_testScope` prints (`src/fi/scope.py:57`). Its other message needs bytes that are
equal to a string. -/
def testScope : Text :=
  print ['\n'] [text "Testing Scope: if you're getting a lot of dots, reset the scope board. " ++
    text "Maybe board is waiting for trigger?"]

/-- What an iteration has printed and counted when a call raises an exception, if it comes to
this call. -/
def raiseAttempt (expectedResponse : List UInt8) (s : Stats) (a : Attempt) :
    Failure → Option (Text × Stats)
  | .command => some (parameters a, s)
  | .timeoutReset =>
    if a.glitcherTimeout then
      some (parameters a ++ print [' '] [text "[G] The glitcher timed out"], s)
    else none
  | .mutesReset =>
    let o := outcome expectedResponse a
    let s := s.count o
    if maxMutesInARow < s.mutesInARow then
      some (parameters a ++ (report a o ++ print [' '] [text "\nToo many mutes in row resetting"]),
        { s with mutesInARow := 0 })
    else none

/-- One iteration of the loop, with the call that raises an exception, if one does. -/
structure Iteration where
  attempt : Attempt
  failure : Option Failure
  recovery : Recovery

/-- What an iteration leaves to the next one. -/
structure Loop where
  stats : Stats
  /-- The dots on the line that the next attempt starts on. -/
  dots : Nat
  deriving DecidableEq, Repr

/-- The start of the loop (`src/fi/runSetup.py:29,62`). -/
def Loop.start : Loop := ⟨⟨0, 0, 0, 0, 0⟩, 0⟩

/-- The text and the counters at the exception of an iteration, if there is one. -/
def raised (expectedResponse : List UInt8) (l : Loop) (it : Iteration) : Option (Text × Stats) :=
  it.failure.bind (raiseAttempt expectedResponse l.stats it.attempt)

/-- One iteration: what it prints and what it leaves (`src/fi/runSetup.py:69`). -/
def runIteration (expectedResponse : List UInt8) (l : Loop) (it : Iteration) : Text × Loop :=
  match raised expectedResponse l it with
  | none =>
    let (printed, s) := runAttempt expectedResponse l.stats it.attempt
    (printed, ⟨s, 0⟩)
  | some (printed, s) =>
    (printed ++ (testScope ++ testTarget it.recovery), ⟨s, it.recovery.failedTests + 1⟩)

/-- The log line that an attempt starts on, if it raises no exception. -/
def logLine (expectedResponse : List UInt8) (l : Loop) (a : Attempt) : Text :=
  (readlines (dots l.dots ++ (runAttempt expectedResponse l.stats a).1)).headD []

/-- A corrupted response has sixteen bytes. -/
theorem length_response_of_corrupted {expectedResponse : List UInt8} {a : Attempt}
    (h : outcome expectedResponse a = .corrupted) : a.response.length = 16 := by
  unfold outcome at h
  split at h
  · cases h
  · split at h
    · cases h
    · split at h
      · cases h
      · split at h
        · assumption
        · cases h

/-! ### The text that the target controls -/

/-- What a reset lets the target print on the line that reports it. -/
def resetText (response : List UInt8) : Text :=
  if encode (text "arduino") <:+: response then [] else hexAscii response

/-- The part of the first line that spells what the target sent. -/
def embedded (a : Attempt) : Outcome → Text
  | .timeout => resetText a.afterTimeout
  | .correct => []
  | .mute => reprBytes a.response
  | .corrupted => hexAscii a.response
  | .responded => hexAscii a.response

/-- What the first line has between the parameters and that part. -/
def lead (s : Stats) (a : Attempt) : Outcome → Text
  | .timeout =>
    text "[G] The glitcher timed out " ++
      (if encode (text "arduino") <:+: a.afterTimeout then text "Target came back up"
      else text "[T] Target failed to come back up ")
  | .correct => text "Correct response! " ++ print [] (s.count .correct).fields
  | .mute => text "mute!: respLen " ++ (decimal a.response.length ++ [' '])
  | .corrupted => text "TARGET CORRUPTED: b'" ++ (hexlify a.response ++ text "' ascii: ")
  | .responded => text "TARGET RESPONDED: b'" ++ (hexlify a.response ++ text "' ascii: ")

/-- A line of the log: the parameters, the script's own words, what the target sent. -/
def line (s : Stats) (a : Attempt) (o : Outcome) : Text :=
  parameters a ++ (lead s a o ++ (embedded a o ++ ['\n']))

/-! ### Bytes as text -/

private theorem asciiChar_ne_newline : ∀ d, asciiChar d ≠ '\n' :=
  forall_uInt8 (by decide +kernel)

/-- The text of a response is on one line. -/
theorem newline_not_mem_hexAscii (data : List UInt8) : '\n' ∉ hexAscii data := by
  intro h
  obtain ⟨d, _, hd⟩ := List.mem_map.mp h
  exact asciiChar_ne_newline d hd

private theorem newline_not_mem_reprByte {quote : Char} (hq : '\n' ≠ quote) (d : UInt8) :
    '\n' ∉ reprByte quote d := by
  have hhex : '\n' ∉ hexlify [d] := not_mem_hexlify (by decide) [d]
  unfold reprByte
  simp only
  split
  · next h =>
    rcases h with h | h
    · simpa [h] using hq
    · simp [h]
  · repeat' split
    all_goals simp_all [eq_comm]

/-- The `repr` of a response is on one line. -/
theorem newline_not_mem_reprBytes (data : List UInt8) : '\n' ∉ reprBytes data := by
  have hbody : ∀ quote, '\n' ≠ quote → '\n' ∉ data.flatMap (reprByte quote) := by
    intro quote hq h
    obtain ⟨d, _, hd⟩ := List.mem_flatMap.mp h
    exact newline_not_mem_reprByte hq d hd
  unfold reprBytes
  split
  · simpa using hbody '"' (by decide)
  · simpa using hbody '\'' (by decide)

/-- The text of a response has a character for each byte. -/
theorem length_hexAscii (data : List UInt8) : (hexAscii data).length = data.length :=
  List.length_map ..

/-- A character that `hexAscii` prints for one byte only. -/
def Faithful (c : Char) : Prop := 0x20 ≤ c.toNat ∧ c.toNat ≤ 0x80 ∧ c ≠ '.'

private theorem toNat_asciiChar : ∀ d : UInt8, (asciiChar d = '.' ∨ (asciiChar d).toNat = d.toNat) ∧
    (0x20 ≤ d.toNat → d.toNat ≤ 0x80 → (asciiChar d).toNat = d.toNat) :=
  forall_uInt8 (by decide +kernel)

private theorem asciiChar_eq_iff {c : Char} (hc : Faithful c) (d : UInt8) :
    asciiChar d = c ↔ d = UInt8.ofNat c.toNat := by
  obtain ⟨hlow, hhigh, hdot⟩ := hc
  obtain ⟨hd, hprint⟩ := toNat_asciiChar d
  constructor
  · rintro rfl
    rw [hd.resolve_left hdot, UInt8.ofNat_toNat]
  · rintro rfl
    have hn : (UInt8.ofNat c.toNat).toNat = c.toNat :=
      UInt8.toNat_ofNat_of_lt' (show c.toNat < 256 by omega)
    rw [hn] at hprint
    exact Char.toNat_inj.mp (hprint hlow hhigh)

private theorem map_asciiChar_eq_iff {cs : Text} (h : ∀ c ∈ cs, Faithful c)
    (data : List UInt8) : cs = data.map asciiChar ↔ data = encode cs := by
  induction cs generalizing data with
  | nil => simp [encode, eq_comm]
  | cons c cs ih =>
    rw [List.forall_mem_cons] at h
    cases data with
    | nil => simp [encode]
    | cons d data =>
      have hd := asciiChar_eq_iff h.1 d
      have hih := ih h.2 data
      simp only [encode, List.map_cons, List.cons.injEq] at hih ⊢
      rw [eq_comm, hd, hih]

/-- A text of such characters is printed where the target sent its bytes. -/
theorem infix_hexAscii_iff {cs : Text} (h : ∀ c ∈ cs, Faithful c) (data : List UInt8) :
    cs <:+: hexAscii data ↔ encode cs <:+: data := by
  rw [hexAscii, List.infix_map_iff]
  constructor
  · rintro ⟨l, hl, hcs⟩
    rwa [← (map_asciiChar_eq_iff h l).mp hcs]
  · intro hl
    exact ⟨encode cs, hl, (map_asciiChar_eq_iff h _).mpr rfl⟩

private theorem reprByte_hexDigit {c : Char} (h : c ∈ hexDigits) :
    UInt8.ofNat c.toNat ≠ 0x27 ∧ reprByte '\'' (UInt8.ofNat c.toNat) = [c] := by
  have hall : hexDigits.all (fun c ↦ UInt8.ofNat c.toNat ≠ 0x27 ∧
      reprByte '\'' (UInt8.ofNat c.toNat) = [c]) = true := by decide +kernel
  exact of_decide_eq_true (List.all_eq_true.mp hall c h)

/-- The digits that `hexlify` returns are printed as they are, in single quotes. -/
theorem reprBytes_hexlify (data : List UInt8) :
    reprBytes (encode (hexlify data)) = ['b', '\''] ++ (hexlify data ++ ['\'']) := by
  have hquote : (0x27 : UInt8) ∉ encode (hexlify data) := by
    intro h
    obtain ⟨c, hc, he⟩ := List.mem_map.mp h
    exact (reprByte_hexDigit (mem_hexlify hc)).1 he
  have hbody : (encode (hexlify data)).flatMap (reprByte '\'') = hexlify data := by
    rw [encode, List.flatMap_map]
    calc (hexlify data).flatMap (fun c ↦ reprByte '\'' (UInt8.ofNat c.toNat))
        = (hexlify data).flatMap fun c ↦ [c] :=
          List.flatMap_congr fun c hc ↦ (reprByte_hexDigit (mem_hexlify hc)).2
      _ = hexlify data := List.flatMap_singleton' _
  unfold reprBytes
  rw [if_neg fun h ↦ hquote h.1]
  simp only [hbody]
  rfl

/-! ### The characters of the parameters -/

/-- The characters other than digits that the parameters can have. -/
def parameterChars : Text :=
  [' ', ':', '-', ',', '.', 'A', 'S', 'T', 'a', 'd', 'e', 'g', 'h', 'i', 'l', 'm', 'n', 'p', 's',
    't', 'u', 'y']

private theorem not_mem_str {c : Char} (t : Timedelta) (hd : c.isDigit = false)
    (hc : c ∉ parameterChars) : c ∉ t.str := by
  have hdec := not_mem_decimal hd
  have hpad : ∀ width n, c ∉ padded width n := by
    intro width n h
    rcases List.mem_append.mp h with h | h
    · rw [(List.mem_replicate.mp h).2] at hd
      cases hd
    · exact hdec n h
  simp only [parameterChars, List.mem_cons, List.not_mem_nil, or_false, not_or] at hc
  unfold Timedelta.str signed
  repeat rw [text_ofList]
  simp only [List.mem_append, List.mem_cons, not_or]
  refine ⟨⟨⟨⟨?_, hdec _⟩, ?_, hpad _ _⟩, ?_, hpad _ _⟩, ?_⟩
  · split
    · simp
    · split <;> split <;> simp [hc, hdec]
  · simp [hc]
  · simp [hc]
  · split <;> simp [hc, hpad]

/-- The parameters after the attempt's number and before the glitch length. -/
def preamble (a : Attempt) : Text := text " TimeSpent: " ++ (a.timeSpent.str ++ [' '])

/-- The parameters as the script prints them. -/
theorem parameters_eq (a : Attempt) :
    parameters a = text "Attempt:  " ++ (decimal a.attempt ++ (preamble a ++
      (text "length: " ++ (decimal a.glitchLength ++ (text " delay: " ++
        (decimal a.glitchDelay ++ (text " pulses: " ++ (decimal a.pulses ++ [' '])))))))) := by
  unfold parameters preamble
  repeat rw [text_ofList]
  simp only [print, List.append_assoc, List.cons_append, List.nil_append]

/-- A character that the parameters do not have. -/
theorem not_mem_parameters {c : Char} (a : Attempt) (hd : c.isDigit = false)
    (hc : c ∉ parameterChars) : c ∉ parameters a := by
  have hdec := not_mem_decimal hd
  have hstr := not_mem_str a.timeSpent hd hc
  unfold parameterChars at hc
  rw [parameters_eq, preamble]
  repeat rw [text_ofList]
  simp_all

/-- The parameters are on one line. -/
theorem newline_not_mem_parameters (a : Attempt) : '\n' ∉ parameters a :=
  not_mem_parameters a rfl (by decide)

/-! ### The first line -/

private theorem newline_not_mem_embedded (a : Attempt) (o : Outcome) : '\n' ∉ embedded a o := by
  cases o with
  | timeout =>
    rw [embedded, resetText]
    split
    · simp
    · exact newline_not_mem_hexAscii _
  | correct => simp [embedded]
  | mute => exact newline_not_mem_reprBytes _
  | corrupted => exact newline_not_mem_hexAscii _
  | responded => exact newline_not_mem_hexAscii _

/-- The characters that the script's own words can have, besides those of decimal
numbers. -/
def leadChars : Outcome → Text
  | .timeout =>
    [' ', '[', ']', 'G', 'T', 'a', 'b', 'c', 'd', 'e', 'f', 'g', 'h', 'i', 'k', 'l', 'm', 'o', 'p',
      'r', 't', 'u']
  | .correct =>
    [' ', '!', '#', ':', 'C', 'c', 'd', 'e', 'g', 'h', 'i', 'l', 'm', 'n', 'o', 'p', 'r', 's', 't',
      'u', 'x']
  | .mute => [' ', '!', ':', 'L', 'e', 'm', 'n', 'p', 'r', 's', 't', 'u']
  | .corrupted =>
    [' ', ':', '\'', 'A', 'C', 'D', 'E', 'G', 'O', 'P', 'R', 'T', 'U', 'a', 'b', 'c', 'i', 's'] ++
      hexDigits
  | .responded =>
    [' ', ':', '\'', 'A', 'D', 'E', 'G', 'N', 'O', 'P', 'R', 'S', 'T', 'a', 'b', 'c', 'i', 's'] ++
      hexDigits

/-- A character that the words for an outcome do not have. -/
theorem not_mem_lead {c : Char} (s : Stats) (a : Attempt) {o : Outcome} (hd : c.isDigit = false)
    (hc : c ∉ leadChars o) : c ∉ lead s a o := by
  have hdec := not_mem_decimal hd
  cases o with
  | timeout =>
    simp only [leadChars, List.mem_cons, List.not_mem_nil, or_false, not_or] at hc
    rw [lead]
    split <;> (repeat rw [text_ofList]) <;> simp [hc]
  | correct =>
    simp only [leadChars, List.mem_cons, List.not_mem_nil, or_false, not_or] at hc
    rw [lead, Stats.fields]
    repeat rw [text_ofList]
    simp [print, hc, hdec]
  | mute =>
    simp only [leadChars, List.mem_cons, List.not_mem_nil, or_false, not_or] at hc
    rw [lead, text_ofList]
    simp [hc, hdec]
  | corrupted =>
    rw [leadChars, List.mem_append, not_or] at hc
    have hhex := not_mem_hexlify hc.2 a.response
    simp only [List.mem_cons, List.not_mem_nil, or_false, not_or] at hc
    rw [lead, text_ofList, text_ofList]
    simp [hc.1, hhex]
  | responded =>
    rw [leadChars, List.mem_append, not_or] at hc
    have hhex := not_mem_hexlify hc.2 a.response
    simp only [List.mem_cons, List.not_mem_nil, or_false, not_or] at hc
    rw [lead, text_ofList, text_ofList]
    simp [hc.1, hhex]

/-- The words for an outcome are on one line. -/
theorem newline_not_mem_lead (s : Stats) (a : Attempt) (o : Outcome) : '\n' ∉ lead s a o := by
  apply not_mem_lead s a rfl
  cases o <;> decide

/-- The end of what is printed can be taken apart. -/
theorem print_eq_append (ending arg : Text) (args : List Text) :
    print ending (arg :: args) = print [] (arg :: args) ++ ending := by
  induction args generalizing arg with
  | nil => simp [print]
  | cons next args ih => simp [print, ih]

/-- Every branch but that of the correct response ends the first line itself. -/
theorem report_eq (s : Stats) (a : Attempt) {o : Outcome} (ho : o ≠ .correct) :
    report a o = lead s a o ++ (embedded a o ++ ['\n']) := by
  cases o with
  | timeout =>
    simp only [report, lead, embedded, resetTarget, resetText]
    split
    all_goals
      repeat rw [text_ofList]
      simp [print]
  | correct => exact absurd rfl ho
  | mute =>
    rw [report, lead, embedded, text_ofList, text_ofList]
    simp [print]
  | corrupted =>
    rw [report, lead, embedded, reprBytes_hexlify]
    repeat rw [text_ofList]
    simp [print]
  | responded =>
    rw [report, lead, embedded, reprBytes_hexlify]
    repeat rw [text_ofList]
    simp [print]

private theorem report_correct_append (s : Stats) (a : Attempt) :
    report a .correct ++ (finish (s.count .correct) a).1 =
      lead s a .correct ++ (embedded a .correct ++ ['\n']) := by
  -- the count of mutes is zero, so that the target is not reset
  have hfinish : (finish (s.count .correct) a).1 = print ['\n'] (s.count .correct).fields := rfl
  rw [hfinish, report, lead, embedded, Stats.fields, print_eq_append]
  repeat rw [text_ofList]
  simp [print]

/-- What an attempt prints after its first line. -/
def afterLine (s : Stats) (a : Attempt) (o : Outcome) : Text :=
  if o = .correct then [] else (finish (s.count o) a).1

/-- An attempt prints its line and what comes behind it. -/
theorem runAttempt_eq (expectedResponse : List UInt8) (s : Stats) (a : Attempt) :
    (runAttempt expectedResponse s a).1 =
      line s a (outcome expectedResponse a) ++ afterLine s a (outcome expectedResponse a) := by
  change parameters a ++ (report a (outcome expectedResponse a) ++
    (finish (s.count (outcome expectedResponse a)) a).1) = _
  rw [line, afterLine]
  split
  · next ho =>
    rw [ho, report_correct_append]
    simp
  · next ho =>
    rw [report_eq s a ho]
    simp

/-- The dots do not end the line. -/
theorem newline_not_mem_dots (n : Nat) : '\n' ∉ dots n := by
  have hdot : '\n' ∉ print [' '] [text "."] := by
    rw [text_ofList]
    decide
  intro h
  obtain ⟨l, hl, hmem⟩ := List.mem_flatten.mp h
  rw [List.eq_of_mem_replicate hl] at hmem
  exact hdot hmem

/-- A line with dots starts with one. -/
theorem head?_dots_append {n : Nat} (hn : n ≠ 0) (t : Text) :
    (dots n ++ t).head? = some '.' := by
  obtain ⟨m, rfl⟩ := Nat.exists_eq_succ_of_ne_zero hn
  rw [dots, List.replicate_succ, List.flatten_cons, text_ofList]
  rfl

/-- The line of an attempt is one line, also with dots before it. -/
theorem isLine_line (n : Nat) (s : Stats) (a : Attempt) (o : Outcome) :
    IsLine (dots n ++ line s a o) :=
  ⟨dots n ++ (parameters a ++ (lead s a o ++ embedded a o)),
    List.not_mem_append (newline_not_mem_dots n)
      (List.not_mem_append (newline_not_mem_parameters a)
        (List.not_mem_append (newline_not_mem_lead s a o) (newline_not_mem_embedded a o))),
    by simp [line]⟩

/-- The line that an attempt starts on is the line of its outcome. -/
theorem logLine_eq (expectedResponse : List UInt8) (l : Loop) (a : Attempt) :
    logLine expectedResponse l a =
      dots l.dots ++ line l.stats a (outcome expectedResponse a) := by
  rw [logLine, runAttempt_eq, ← List.append_assoc, (isLine_line ..).readlines_append]
  rfl

end HorrorScope.Fi
