import Mathlib.Data.List.ReduceOption
import HorrorScope.Acq.Acquisition

/-!
# A host that waits long enough

The reads of `runSetup.py` time out after half a second. If that is longer than anything the target
still has to do and anything that is still on its way, the pairing of `Acquisition` holds without a
condition on the replies: no response is cut short, and `testTarget` always ends with the last
reply. It needs two probes at most. The first one may be answered together with the greeting, or be
taken for the newline of a block that was sent before an exception of the scope.
-/

namespace HorrorScope.Acq.Acquisition

open HorrorScope.Base

/-- No read times out while the target has something to do or bytes are on their way. -/
def Patient (s : Acquisition) (ev : Event) : Prop :=
  ev = .timeout → s.link.AtRest ∧ s.link.outbound.length ≤ s.arrived

/-- Whether a test is patient can be computed. -/
instance (s : Acquisition) (ev : Event) : Decidable (s.Patient ev) :=
  inferInstanceAs (Decidable (_ → _))

/-! ### What the target is going to say -/

/-- The target and its actions that the host has not read past. -/
abbrev Ahead := Turn UInt8 UInt8 Empty (fun _ ↦ Unit) Unit Unit

/-- The target sends `data` and waits at `p`. -/
structure Says (t : Ahead) (p : Sketch Unit) (data : List UInt8) : Prop where
  proc : t.proc = p
  unread : t.unread.reduceOption = data

private theorem reduceOption_of_quieter {u u' : List (Option UInt8)} (h : Quieter u u') :
    u.reduceOption = u'.reduceOption := by
  induction h with
  | nil => rfl
  | skip h ih => rw [ih, List.reduceOption_cons_of_none]
  | cons a h ih =>
    cases a with
    | none => rw [List.reduceOption_cons_of_none, List.reduceOption_cons_of_none, ih]
    | some b => rw [List.reduceOption_cons_of_some, List.reduceOption_cons_of_some, ih]

private theorem Says.of_quieter {t t' : Ahead} {p : Sketch Unit} {data : List UInt8}
    (h : Says t p data) (ht : t'.Quieter t) : Says t' p data :=
  ⟨ht.proc.trans h.proc, (reduceOption_of_quieter ht.unread).trans h.unread⟩

private theorem reduceOption_map_some (data : List UInt8) :
    (data.map some).reduceOption = data := by
  induction data with
  | nil => rfl
  | cons b data ih => rw [List.map_cons, List.reduceOption_cons_of_some, ih]

section Link

variable {cipher : Block → Block} {l : Link UInt8 UInt8 Empty (fun _ ↦ Unit) Unit Unit}
  {p : Sketch Unit} {data : List UInt8} (h : Says (l.turn (target cipher)) p data)

include h

/-- What the target has sent is the first part of it. -/
theorem Says.length_outbound_le : l.outbound.length ≤ data.length := by
  have hunread := h.unread
  unfold Link.turn at hunread
  rw [Service.trace_unread, List.reduceOption_append, reduceOption_map_some] at hunread
  rw [← hunread, List.length_append]
  omega

private theorem Says.write (q : List UInt8) :
    Says ((l.write q).turn (target cipher)) ((target cipher).feed ⟨p, (), []⟩ q).proc
      (data ++ ((target cipher).feed ⟨p, (), []⟩ q).unread.reduceOption) := by
  rw [l.turn_write]
  obtain ⟨hproc, hunread⟩ := h
  generalize l.turn (target cipher) = t at hproc hunread
  obtain ⟨proc, env, u⟩ := t
  obtain rfl : proc = p := hproc
  rw [Service.feed_unread]
  exact ⟨rfl, by rw [List.reduceOption_append]; exact congrArg (· ++ _) hunread⟩

/-- At rest, the target has said all of it. -/
theorem Says.of_atRest (hrest : l.AtRest) : l.proc = p ∧ l.outbound = data := by
  have hturn := hrest.turn_eq (target cipher)
  have hunread := h.unread
  have hproc := h.proc
  rw [hturn] at hunread hproc
  exact ⟨hproc, (reduceOption_map_some _).symm.trans hunread⟩

/-- Behind it, there is nothing to be said. -/
theorem Says.drop (hrest : l.AtRest) {n : Nat} (hn : data.length ≤ n) :
    Says ((l.drop n).turn (target cipher)) p [] := by
  obtain ⟨hproc, hout⟩ := h.of_atRest hrest
  have hrest' : (l.drop n).AtRest := hrest
  rw [hrest'.turn_eq]
  refine ⟨hproc, ?_⟩
  change ((l.outbound.drop n).map some).reduceOption = []
  rw [hout, List.drop_eq_nil_of_le hn]
  rfl

end Link

/-! ### Probes -/

variable (cipher : Block → Block)

/-- What the target may be about to do when `testTarget` sends a probe, with a bound for the probes
that are needed. -/
inductive Probes (t : Ahead) : Nat → Prop
  | quiet (h : Says t (.ret ()) []) : Probes t 1
  | starting (h : Says t (.ret ()) greeting) : Probes t 2
  | block (data : Block) (h : Says t (atNewline cipher data) []) : Probes t 2

/-- What is known where `Knows` says nothing. -/
def Awaits (t : Ahead) : Host → Nat → Prop
  | .caught, n | .testWrite, n => Probes cipher t n
  | .testRead, n =>
    ∃ data, Says t (.ret ()) data ∧ data.length < 100 ∧ n = if data = reply then 0 else 1
  | _, n => n = 0

/-- The invariant of a run with a patient host. -/
structure Calm (s : Acquisition) (n : Nat) : Prop where
  inv : s.Inv cipher
  awaits : Awaits cipher (s.link.turn (target cipher)) s.host n

/-- `target.write(b't')`. -/
def probes (s : Acquisition) : Event → Nat
  | .host _ => if s.host = .testWrite then 1 else 0
  | _ => 0

/-- An exception of the scope lets `testTarget` run again. -/
def allowance (_ : Acquisition) : Event → Nat
  | .host .raised => 2
  | _ => 0

variable {cipher}

private theorem Probes.of_quieter {t t' : Ahead} {n : Nat} (h : Probes cipher t n)
    (ht : t'.Quieter t) :
    Probes cipher t' n := by
  cases h with
  | quiet h => exact .quiet (h.of_quieter ht)
  | starting h => exact .starting (h.of_quieter ht)
  | block data h => exact .block data (h.of_quieter ht)

private theorem Awaits.of_quieter {t t' : Ahead} {host : Host} {n : Nat}
    (h : Awaits cipher t host n) (ht : t'.Quieter t) : Awaits cipher t' host n := by
  cases host with
  | caught => exact Probes.of_quieter h ht
  | testWrite => exact Probes.of_quieter h ht
  | testRead =>
    obtain ⟨data, hsaid, hrest⟩ := h
    exact ⟨data, hsaid.of_quieter ht, hrest⟩
  | _ => exact h

/-- A probe is answered by `T`, unless there is something else to be said first. -/
theorem Probes.write {l : Link UInt8 UInt8 Empty (fun _ ↦ Unit) Unit Unit} {n : Nat}
    (h : Probes cipher (l.turn (target cipher)) n) :
    ∃ n', Awaits cipher ((l.write ['t'.toUInt8]).turn (target cipher)) .testRead n' ∧
      1 + n' ≤ n := by
  cases h with
  | quiet h => exact ⟨0, ⟨reply, h.write _, by decide, rfl⟩, Nat.le_refl 1⟩
  | starting h => exact ⟨1, ⟨greeting ++ reply, h.write _, by decide, rfl⟩, Nat.le_refl 2⟩
  | block data h =>
    have hlen : (cipher data).toList.length = 16 := List.Vector.toList_length _
    have hsaid := h.write ['t'.toUInt8]
    rw [feed_newline] at hsaid
    refine ⟨1, ⟨(cipher data).toList, ?_, by omega, ?_⟩, Nat.le_refl 2⟩
    · have hcons : [none] ++ (cipher data).toList.map some =
          none :: (cipher data).toList.map some := rfl
      rw [List.nil_append, List.nil_append, hcons, List.reduceOption_cons_of_none,
        reduceOption_map_some] at hsaid
      exact hsaid
    · rw [if_neg]
      intro hreply
      rw [hreply] at hlen
      exact absurd hlen (by decide)

/-- At its end, `testTarget` has read the last reply. -/
theorem Awaits.lastReply {s : Acquisition} {n : Nat}
    (h : Awaits cipher (s.link.turn (target cipher)) s.host n) {ev : Event} (hev : s.Patient ev) :
    s.LastReply ev := by
  rintro ⟨rfl, hhost, -, -⟩
  obtain ⟨hrest, harrived⟩ := hev rfl
  rw [hhost] at h
  obtain ⟨data, hsaid, -, -⟩ := h
  refine ⟨?_, hrest.2, harrived⟩
  unfold atCommand
  rw [(hsaid.of_atRest hrest).1]

/-- What `testTarget` reads is never cut at 100 bytes. -/
theorem Calm.arrived_lt {s : Acquisition} {n : Nat} (h : s.Calm cipher n)
    (hhost : s.host = .testRead) : s.arrived < 100 := by
  have hawaits := h.awaits
  rw [hhost] at hawaits
  obtain ⟨data, hsaid, hlt, -⟩ := hawaits
  calc
    s.arrived ≤ s.link.outbound.length := h.inv.arrived_le
    _ ≤ data.length := hsaid.length_outbound_le
    _ < 100 := hlt

private theorem Calm.hostStep {s : Acquisition} {n : Nat} (h : s.Calm cipher n) (r : ScopeResult) :
    ∃ n', Awaits cipher ((s.hostStep r).link.turn (target cipher)) (s.hostStep r).host n' ∧
      s.probes (.host r) + n' ≤ n + s.allowance (.host r) := by
  obtain ⟨host, link, arrived, recorded⟩ := s
  have hlt := h.arrived_lt
  obtain ⟨⟨-, hknows, -⟩, hawaits⟩ := h
  dsimp only at hlt hknows hawaits
  cases host with
  | testWrite =>
    obtain ⟨n', hawaits', hn⟩ := Probes.write hawaits
    exact ⟨n', hawaits', Nat.le_add_right_of_le hn⟩
  | testRead =>
    unfold Acquisition.hostStep
    dsimp only
    rw [if_neg (Nat.not_le.mpr (hlt rfl))]
    refine ⟨n, hawaits, ?_⟩
    change 0 + n ≤ n + _
    omega
  | caught =>
    refine ⟨n, hawaits, ?_⟩
    change 0 + n ≤ n + _
    omega
  | asked dataIn =>
    cases r with
    | raised =>
      have hsaid : Says (link.turn (target cipher)) (atNewline cipher dataIn) [] :=
        .of_quieter ⟨rfl, rfl⟩ hknows
      exact ⟨2, Probes.block dataIn hsaid, Nat.le_add_left _ _⟩
    | returned => exact ⟨0, rfl, Nat.zero_le _⟩
    | missed => exact ⟨0, rfl, Nat.zero_le _⟩
  | responded dataIn response =>
    cases r with
    | raised =>
      have hsaid : Says (link.turn (target cipher)) (.ret ()) [] := .of_quieter ⟨rfl, rfl⟩ hknows.1
      exact ⟨1, Probes.quiet hsaid, Nat.le_add_left_of_le (Nat.le_succ 1)⟩
    | returned => exact ⟨0, rfl, Nat.zero_le _⟩
    | missed => exact ⟨0, rfl, Nat.zero_le _⟩
  | completed dataIn response =>
    cases r with
    | raised =>
      have hsaid : Says (link.turn (target cipher)) (.ret ()) [] := .of_quieter ⟨rfl, rfl⟩ hknows.1
      exact ⟨1, Probes.quiet hsaid, Nat.le_add_left_of_le (Nat.le_succ 1)⟩
    | returned => exact ⟨0, rfl, Nat.zero_le _⟩
    | missed => exact ⟨0, rfl, Nat.zero_le _⟩
  | ready => exact ⟨0, rfl, Nat.zero_le _⟩
  | armed dataIn => exact ⟨0, rfl, Nat.zero_le _⟩
  | reading dataIn =>
    unfold Acquisition.hostStep
    dsimp only
    split
    · exact ⟨0, rfl, Nat.zero_le _⟩
    · exact ⟨0, rfl, Nat.zero_le _⟩

/-- The response that the host is waiting for. -/
theorem says_response {t : Ahead} {dataIn : Block} (h : Knows cipher t (.reading dataIn)) :
    Says t (.ret ()) (cipher dataIn).toList := by
  refine .of_quieter ⟨rfl, ?_⟩ h
  rw [List.reduceOption_append, List.reduceOption_replicate_none, reduceOption_map_some]
  rfl

/-- A patient read ends when the target has said everything, and what it has said is read. -/
theorem Calm.timeoutStep {s : Acquisition} {n : Nat} (h : s.Calm cipher n)
    (hev : s.Patient .timeout) :
    ∃ n', Awaits cipher (s.timeoutStep.link.turn (target cipher)) s.timeoutStep.host n' ∧
      n' ≤ n := by
  obtain ⟨host, link, arrived, recorded⟩ := s
  obtain ⟨⟨hle, hknows, -⟩, hawaits⟩ := h
  obtain ⟨hrest, harrived⟩ := hev rfl
  dsimp only at hle hknows hawaits hrest harrived
  cases host with
  | testRead =>
    obtain ⟨data, hsaid, hlt, rfl⟩ := hawaits
    obtain ⟨-, hout⟩ := hsaid.of_atRest hrest
    have hlen : arrived = link.outbound.length := Nat.le_antisymm hle harrived
    have htake : link.outbound.take arrived = data := by rw [hlen, List.take_length, hout]
    have hquiet := hsaid.drop hrest (n := arrived) (by rw [hlen, hout])
    unfold Acquisition.timeoutStep
    dsimp only
    rw [if_pos (by rw [hlen, hout]; exact hlt), htake]
    by_cases hreply : data = reply
    · rw [if_pos hreply, if_pos hreply]
      exact ⟨0, rfl, Nat.le_refl 0⟩
    · rw [if_neg hreply, if_neg hreply]
      exact ⟨1, Probes.quiet hquiet, Nat.le_refl 1⟩
  | reading dataIn =>
    -- all 16 bytes of the response are there
    have hlen : (cipher dataIn).toList.length = 16 := List.Vector.toList_length _
    have hout := ((says_response hknows).of_atRest hrest).2
    unfold Acquisition.timeoutStep
    dsimp only
    rw [if_neg (by rw [hout] at harrived; omega)]
    exact ⟨n, hawaits, Nat.le_refl n⟩
  | _ => exact ⟨n, hawaits, Nat.le_refl n⟩

private theorem Calm.step {s : Acquisition} {n : Nat} (h : s.Calm cipher n) {ev : Event}
    (hev : s.Patient ev) :
    ∃ n', (s.step cipher ev).Calm cipher n' ∧ s.probes ev + n' ≤ n + s.allowance ev := by
  have hinv := h.inv.step (h.awaits.lastReply hev)
  cases ev with
  | host r =>
    obtain ⟨n', hawaits, hn⟩ := h.hostStep r
    exact ⟨n', ⟨hinv, hawaits⟩, hn⟩
  | timeout =>
    obtain ⟨n', hawaits, hn⟩ := h.timeoutStep hev
    refine ⟨n', ⟨hinv, hawaits⟩, ?_⟩
    change 0 + n' ≤ n + 0
    omega
  | input dataIn =>
    have hawaits : ∃ n', Awaits cipher ((s.step cipher (.input dataIn)).link.turn (target cipher))
        (s.step cipher (.input dataIn)).host n' ∧ n' ≤ n := by
      unfold Acquisition.step
      dsimp only
      split
      · exact ⟨0, rfl, Nat.zero_le n⟩
      · exact ⟨n, h.awaits, Nat.le_refl n⟩
    obtain ⟨n', hawaits, hn⟩ := hawaits
    refine ⟨n', ⟨hinv, hawaits⟩, ?_⟩
    change 0 + n' ≤ n + 0
    omega
  | link e =>
    exact ⟨n, ⟨hinv, h.awaits.of_quieter (s.link.turn_step (target cipher) e)⟩,
      Nat.le_of_eq (Nat.zero_add n)⟩
  | arrive => exact ⟨n, ⟨hinv, h.awaits⟩, Nat.le_of_eq (Nat.zero_add n)⟩

private theorem calm_start (cipher : Block → Block) : start.Calm cipher 2 where
  inv := ⟨Nat.le_refl 0, trivial, fun x hx ↦ by simp [start] at hx⟩
  awaits := Probes.starting ⟨rfl, rfl⟩

/-! ### Runs of a patient host -/

private theorem total_allowance (s : Acquisition) (evs : List Event) :
    total allowance (step cipher) s evs = 2 * evs.count (.host .raised) := by
  induction evs generalizing s with
  | nil => rfl
  | cons ev evs ih =>
    rw [total, ih, List.count_cons]
    by_cases hev : ev = .host .raised
    · rw [hev, if_pos (beq_self_eq_true _), allowance]
      omega
    · have hnone : s.allowance ev = 0 := by
        unfold allowance
        split
        · exact absurd rfl hev
        · rfl
      rw [hnone, if_neg (by simpa using hev)]
      omega

/-- With a patient host, every recorded trace holds the input of its iteration and the encryption
of that input, and `testTarget` sends two probes at most, at the start and after each exception of
the scope: there are no others. -/
theorem paired_of_patient (cipher : Block → Block) {evs : List Event}
    (hevs : Guarded (step cipher) Patient start evs) :
    (∀ x ∈ (run (step cipher) start evs).recorded,
      x.data = x.dataIn.toList ++ (cipher x.dataIn).toList) ∧
    total probes (step cipher) start evs ≤ 2 * (1 + evs.count (.host .raised)) := by
  obtain ⟨n, hcalm, hn⟩ := hevs.total_add_le (fun s ev n h hev ↦ h.step hev) (calm_start cipher)
  rw [total_allowance] at hn
  exact ⟨hcalm.inv.paired, by omega⟩

/-- Between two iterations the scope raises an exception with a block on its way to the target, and
the probe behind it is taken for the newline. -/
def resumed : List Event :=
  synchronised ++ [.input someInput, .host .raised, .host .returned, .host .returned,
    .link (.packet 18)] ++ List.replicate 52 (.link .server) ++ List.replicate 16 .arrive ++
    .timeout :: probing 1 3 ++ iteration

/-- Two traces with an exception in between. -/
theorem paired_of_patient_resumed :
    (run (step id) start resumed).recorded.length = 2 ∧
    (∀ x ∈ (run (step id) start resumed).recorded,
      x.data = x.dataIn.toList ++ (id x.dataIn).toList) ∧
    total probes (step id) start resumed ≤ 2 * (1 + 1) := by
  have hpatient : Guarded (step id) Patient start resumed := by decide +kernel
  have hcount : resumed.count (.host .raised) = 1 := by decide +kernel
  have h := paired_of_patient id hpatient
  rw [hcount] at h
  exact ⟨by decide +kernel, h⟩

/-! ### The way back to an iteration -/

variable (cipher)

/-- Some events that a patient host allows lead to a state with `P`. -/
def Reaches (s : Acquisition) (P : Acquisition → Prop) : Prop :=
  ∃ evs, Guarded (step cipher) Patient s evs ∧ P (run (step cipher) s evs)

variable {cipher}

private theorem Reaches.trans {s : Acquisition} {P Q : Acquisition → Prop} (h : Reaches cipher s P)
    (hP : ∀ s, P s → Reaches cipher s Q) : Reaches cipher s Q := by
  obtain ⟨evs, hevs, hs⟩ := h
  obtain ⟨evs', hevs', hs'⟩ := hP _ hs
  exact ⟨evs ++ evs', hevs.append hevs', by rwa [run_append]⟩

private theorem reaches_step {s : Acquisition} (ev : Event) (hev : s.Patient ev) :
    Reaches cipher s (· = s.step cipher ev) :=
  ⟨[ev], ⟨hev, trivial⟩, rfl⟩

private theorem reaches_links (s : Acquisition) (es : List LinkEvent) :
    Reaches cipher s (· = { s with link := es.foldl (Link.step (target cipher)) s.link }) := by
  induction es generalizing s with
  | nil => exact ⟨[], trivial, rfl⟩
  | cons e es ih =>
    refine (reaches_step (.link e) Event.noConfusion).trans ?_
    rintro _ rfl
    exact ih _

private theorem reaches_arrived {s : Acquisition} (h : s.arrived ≤ s.link.outbound.length) :
    Reaches cipher s (· = { s with arrived := s.link.outbound.length }) := by
  obtain ⟨host, link, arrived, recorded⟩ := s
  dsimp only at h
  induction hk : link.outbound.length - arrived generalizing arrived with
  | zero =>
    obtain rfl : arrived = link.outbound.length := by omega
    exact ⟨[], trivial, rfl⟩
  | succ k ih =>
    refine (reaches_step .arrive Event.noConfusion).trans ?_
    rintro _ rfl
    change Reaches cipher ⟨host, link, min (arrived + 1) link.outbound.length, recorded⟩ _
    rw [Nat.min_eq_left (by omega)]
    exact ih (arrived + 1) (by omega) (by omega)

/-- The target comes to rest, and all it has said arrives. -/
theorem Calm.reaches_rest {s : Acquisition} {n : Nat} (h : s.Calm cipher n) :
    Reaches cipher s fun s' ↦ s'.Calm cipher n ∧ s'.host = s.host ∧ s'.link.AtRest ∧
      s'.link.outbound.length ≤ s'.arrived := by
  obtain ⟨es, hrest⟩ := s.link.exists_atRest (target cipher)
  have hlinks (es : List LinkEvent) (s : Acquisition) (h : s.Calm cipher n) :
      ({ s with link := es.foldl (Link.step (target cipher)) s.link } : Acquisition).Calm
        cipher n := by
    induction es generalizing s with
    | nil => exact h
    | cons e es ih =>
      have hinv : (s.step cipher (.link e)).Inv cipher :=
        h.inv.step fun haccepts ↦ Event.noConfusion haccepts.1
      exact ih _ ⟨hinv, h.awaits.of_quieter (s.link.turn_step (target cipher) e)⟩
  have hcalm := hlinks es s h
  refine (reaches_links s es).trans ?_
  rintro _ rfl
  refine (reaches_arrived hcalm.inv.arrived_le).trans ?_
  rintro _ rfl
  have hend := hcalm.inv
  exact ⟨[], trivial, ⟨⟨Nat.le_refl _, hend.knows, hend.paired⟩, hcalm.awaits⟩, rfl, hrest,
    Nat.le_refl _⟩

/-- A read of `testTarget` ends. -/
theorem Calm.reaches_of_testRead {s : Acquisition} {n : Nat} (h : s.Calm cipher n)
    (hhost : s.host = .testRead) :
    Reaches cipher s fun s' ↦ ∃ n' ≤ n, s'.Calm cipher n' ∧
      (s'.host = .ready ∨ s'.host = .testWrite) := by
  refine h.reaches_rest.trans ?_
  rintro s' ⟨hcalm, hsame, hrest, harrived⟩
  have hpatient : s'.Patient .timeout := fun _ ↦ ⟨hrest, harrived⟩
  refine (reaches_step _ hpatient).trans ?_
  rintro _ rfl
  obtain ⟨n', hcalm', hn'⟩ := hcalm.step hpatient
  refine ⟨[], trivial, n', ?_, hcalm', ?_⟩
  · change 0 + n' ≤ n + 0 at hn'
    omega
  · have hread := hsame.trans hhost
    change s'.timeoutStep.host = .ready ∨ s'.timeoutStep.host = .testWrite
    unfold Acquisition.timeoutStep
    rw [hread]
    dsimp only
    rw [if_pos (hcalm.arrived_lt hread)]
    dsimp only
    split
    · exact .inl rfl
    · exact .inr rfl

/-- `testTarget` returns. -/
theorem Calm.reaches_ready_of_testWrite {s : Acquisition} {n : Nat} (h : s.Calm cipher n)
    (hhost : s.host = .testWrite) : Reaches cipher s (·.host = .ready) := by
  induction n using Nat.strongRecOn generalizing s with
  | ind n ih =>
    have hpatient : s.Patient (.host .returned) := Event.noConfusion
    obtain ⟨n₁, hcalm₁, hn₁⟩ := h.step hpatient
    have hprobe : s.probes (.host .returned) = 1 := if_pos hhost
    have hread : (s.step cipher (.host .returned)).host = .testRead := by
      change (s.hostStep .returned).host = _
      unfold Acquisition.hostStep
      rw [hhost]
    refine (reaches_step _ hpatient).trans ?_
    rintro _ rfl
    refine (hcalm₁.reaches_of_testRead hread).trans ?_
    rintro s₂ ⟨n₂, hn₂, hcalm₂, hready | hwrite⟩
    · exact ⟨[], trivial, hready⟩
    · refine ih n₂ ?_ hcalm₂ hwrite
      change _ ≤ n + 0 at hn₁
      omega

private theorem Calm.reaches_of_hostStep {s : Acquisition} {n : Nat} (h : s.Calm cipher n)
    (r : ScopeResult) {P : Acquisition → Prop}
    (hP : ∀ n', (s.hostStep r).Calm cipher n' → Reaches cipher (s.hostStep r) P) :
    Reaches cipher s P := by
  have hpatient : s.Patient (.host r) := Event.noConfusion
  obtain ⟨n', hcalm, -⟩ := h.step hpatient
  refine (reaches_step _ hpatient).trans ?_
  rintro _ rfl
  exact hP n' hcalm

private theorem Calm.reaches_ready_of_responded {s : Acquisition} {n : Nat} (h : s.Calm cipher n)
    {dataIn : Block} {response : List UInt8} (hhost : s.host = .responded dataIn response) :
    Reaches cipher s (·.host = .ready) := by
  refine h.reaches_of_hostStep .missed fun _ _ ↦ ⟨[], trivial, ?_⟩
  change (s.hostStep .missed).host = _
  unfold Acquisition.hostStep
  rw [hhost]

private theorem Calm.reaches_ready_of_reading {s : Acquisition} {n : Nat} (h : s.Calm cipher n)
    {dataIn : Block} (hhost : s.host = .reading dataIn) : Reaches cipher s (·.host = .ready) := by
  refine h.reaches_rest.trans ?_
  rintro s' ⟨hcalm, hsame, hrest, harrived⟩
  have hread := hsame.trans hhost
  have hknows := hcalm.inv.knows
  rw [hread] at hknows
  have hresponse : 16 ≤ s'.arrived := by
    rw [(says_response hknows).of_atRest hrest |>.2] at harrived
    exact (List.Vector.toList_length _).symm.trans_le harrived
  have hnext : (s'.hostStep .returned).host = .responded dataIn (s'.link.outbound.take 16) := by
    unfold Acquisition.hostStep
    rw [hread]
    dsimp only
    rw [if_pos hresponse]
  exact hcalm.reaches_of_hostStep .returned fun _ hcalm' ↦
    hcalm'.reaches_ready_of_responded hnext

private theorem Calm.reaches_ready_of_armed {s : Acquisition} {n : Nat} (h : s.Calm cipher n)
    {dataIn : Block} (hhost : s.host = .armed dataIn) : Reaches cipher s (·.host = .ready) := by
  have hnext : (s.hostStep .returned).host = .reading dataIn := by
    unfold Acquisition.hostStep
    rw [hhost]
  exact h.reaches_of_hostStep .returned fun _ hcalm ↦ hcalm.reaches_ready_of_reading hnext

/-- From wherever a patient host is, an iteration can begin again. -/
theorem Calm.reaches_ready {s : Acquisition} {n : Nat} (h : s.Calm cipher n) :
    Reaches cipher s (·.host = .ready) := by
  cases hhost : s.host with
  | ready => exact ⟨[], trivial, hhost⟩
  | testWrite => exact h.reaches_ready_of_testWrite hhost
  | testRead =>
    refine (h.reaches_of_testRead hhost).trans ?_
    rintro s' ⟨n', -, hcalm, hready | hwrite⟩
    · exact ⟨[], trivial, hready⟩
    · exact hcalm.reaches_ready_of_testWrite hwrite
  | caught =>
    have hnext : (s.hostStep .returned).host = .testWrite := by
      unfold Acquisition.hostStep
      rw [hhost]
    exact h.reaches_of_hostStep .returned fun _ hcalm ↦ hcalm.reaches_ready_of_testWrite hnext
  | asked dataIn =>
    have hnext : (s.hostStep .returned).host = .armed dataIn := by
      unfold Acquisition.hostStep
      rw [hhost]
      rfl
    exact h.reaches_of_hostStep .returned fun _ hcalm ↦ hcalm.reaches_ready_of_armed hnext
  | armed dataIn => exact h.reaches_ready_of_armed hhost
  | reading dataIn => exact h.reaches_ready_of_reading hhost
  | responded dataIn response => exact h.reaches_ready_of_responded hhost
  | completed dataIn response =>
    refine h.reaches_of_hostStep .returned fun _ _ ↦ ⟨[], trivial, ?_⟩
    change (s.hostStep .returned).host = _
    unfold Acquisition.hostStep
    rw [hhost]
    rfl

/-- Whatever has happened, a patient host can begin an iteration again: `testTarget` does not wait
for ever, and nothing else does. -/
theorem exists_ready_of_patient (cipher : Block → Block) {evs : List Event}
    (hevs : Guarded (step cipher) Patient start evs) :
    ∃ evs', Guarded (step cipher) Patient start (evs ++ evs') ∧
      (run (step cipher) start (evs ++ evs')).host = .ready := by
  obtain ⟨n, hcalm, -⟩ := hevs.total_add_le (fun s ev n h hev ↦ h.step hev) (calm_start cipher)
  obtain ⟨evs', hevs', hready⟩ := hcalm.reaches_ready
  exact ⟨evs', hevs.append hevs', by rwa [run_append]⟩

/-- The scope raises an exception with a block on its way to the target. -/
def interrupted : List Event := synchronised ++ [.input someInput, .host .raised]

/-- An exception, after which the script is ready again. -/
theorem exists_ready_of_patient_interrupted :
    (run (step id) start interrupted).host = .caught ∧
    ∃ evs', Guarded (step id) Patient start (interrupted ++ evs') ∧
      (run (step id) start (interrupted ++ evs')).host = .ready :=
  ⟨by decide +kernel, exists_ready_of_patient id (by decide +kernel)⟩

end HorrorScope.Acq.Acquisition
