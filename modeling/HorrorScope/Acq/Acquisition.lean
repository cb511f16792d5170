import HorrorScope.Base.Link
import HorrorScope.Base.Run
import HorrorScope.Acq.Target

/-!
# Pairing inputs and outputs of the target

The acquisition loop of `runSetup.py:43-108` against the target, over two lossless links with
arbitrary delays. A read of the host returns what it asks for or, when it times out, what has
arrived. Calls of the scope return, miss the trigger or raise an exception in any pattern.

Replies of the target carry no number, so the host's 16 bytes are those of its own input only if
nothing was on its way when the iteration began. This is what `testTarget` is for, and it holds
after a reply that was the last thing the target had to say.
-/

namespace HorrorScope.Acq

open HorrorScope.Base

/-- Where the host is. -/
inductive Host where
  /-- In `testTarget`, before its `target.write(b't')`. -/
  | testWrite
  /-- In `testTarget`, at its `target.read(100)`. -/
  | testRead
  /-- At the beginning of an iteration. -/
  | ready
  /-- `b'a' + dataIn` is written; before `scope.arm()`. -/
  | asked (dataIn : Block)
  /-- Before `target.write(b'\n')`. -/
  | armed (dataIn : Block)
  /-- At `target.read(16)`. -/
  | reading (dataIn : Block)
  /-- Before `scope.waitForCompletion()`. -/
  | responded (dataIn : Block) (response : List UInt8)
  /-- Before `scope.getSamples()`. -/
  | completed (dataIn : Block) (response : List UInt8)
  /-- In the exception handler, before `scope.reconnect()` and `testTarget(target)`. -/
  | caught
  deriving DecidableEq

/-- What a call of the scope does. -/
inductive ScopeResult where
  | returned
  /-- `waitForCompletion` returns `False`. -/
  | missed
  | raised
  deriving DecidableEq, Repr

/-- A trace handed to `ts.addTrace`, with the input of its iteration. -/
structure Recorded where
  dataIn : Block
  data : List UInt8
  deriving DecidableEq

/-- The host, the target and the links between them. -/
structure Acquisition where
  host : Host
  link : Link UInt8 UInt8 Empty (fun _ ↦ Unit) Unit Unit
  /-- How many of the bytes the target has sent have arrived at the host. -/
  arrived : Nat := 0
  recorded : List Recorded := []

/-- What can happen next. -/
inductive Event where
  /-- The next statement of the host, with the result of the scope's call in it. -/
  | host (r : ScopeResult)
  /-- An iteration begins with this input. -/
  | input (dataIn : Block)
  /-- The host's read times out. -/
  | timeout
  /-- The target makes a step or bytes reach it. -/
  | link (e : LinkEvent)
  /-- A byte arrives at the host. -/
  | arrive
  deriving DecidableEq

namespace Acquisition

/-- The host has read `n` bytes. -/
def consume (s : Acquisition) (n : Nat) : Acquisition :=
  { s with link := s.link.drop n, arrived := s.arrived - n }

/-- The next statement of the host, if it does not have to wait. -/
def hostStep (s : Acquisition) (r : ScopeResult) : Acquisition :=
  match s.host with
  | .testWrite => { s with host := .testRead, link := s.link.write ['t'.toUInt8] }
  | .testRead =>
    -- a hundred bytes are not the reply
    if 100 ≤ s.arrived then { s.consume 100 with host := .testWrite } else s
  | .ready => s
  | .asked dataIn => { s with host := if r = .raised then .caught else .armed dataIn }
  | .armed dataIn => { s with host := .reading dataIn, link := s.link.write ['\n'.toUInt8] }
  | .reading dataIn =>
    if 16 ≤ s.arrived then
      { s.consume 16 with host := .responded dataIn (s.link.outbound.take 16) }
    else s
  | .responded dataIn response =>
    { s with
      host :=
        match r with
        | .returned => .completed dataIn response
        | .missed => .ready
        | .raised => .caught }
  | .completed dataIn response =>
    if r = .raised then { s with host := .caught }
    else
      { s with
        host := .ready
        recorded := s.recorded ++ [⟨dataIn, dataIn.toList ++ response⟩] }
  | .caught => { s with host := .testWrite }

/-- The host's read returns what has arrived. -/
def timeoutStep (s : Acquisition) : Acquisition :=
  match s.host with
  | .testRead =>
    if s.arrived < 100 then
      { s.consume s.arrived with
        host := if s.link.outbound.take s.arrived = reply then .ready else .testWrite }
    else s
  | .reading _ =>
    -- `raise Exception("Timeout in target response: …")`
    if s.arrived < 16 then { s.consume s.arrived with host := .caught } else s
  | _ => s

variable (cipher : Block → Block)

/-- One event. -/
def step (s : Acquisition) : Event → Acquisition
  | .host r => s.hostStep r
  | .input dataIn =>
    match s.host with
    | .ready =>
      { s with host := .asked dataIn, link := s.link.write ('a'.toUInt8 :: dataIn.toList) }
    | _ => s
  | .timeout => s.timeoutStep
  | .link e => { s with link := s.link.step (target cipher) e }
  | .arrive => { s with arrived := min (s.arrived + 1) s.link.outbound.length }

/-- The host calls `testTarget` while the target starts up. -/
def start : Acquisition := { host := .testWrite, link := { proc := setup, env := () } }

/-- The target is at the read of a command. -/
def atCommand (s : Acquisition) : Bool :=
  match s.link.proc with
  | .ret _ => true
  | _ => false

/-- `testTarget` accepts a reply now. -/
def Accepts (s : Acquisition) (ev : Event) : Prop :=
  ev = .timeout ∧ s.host = .testRead ∧ s.arrived < 100 ∧ s.link.outbound.take s.arrived = reply

/-- Whether an event accepts a reply can be computed. -/
instance (s : Acquisition) (ev : Event) : Decidable (s.Accepts ev) :=
  inferInstanceAs (Decidable (_ ∧ _))

/-- A reply is accepted only when the target waits for a command and nothing else is on its way
in either direction. -/
def LastReply (s : Acquisition) (ev : Event) : Prop :=
  s.Accepts ev → s.atCommand = true ∧ s.link.inbound.all.length = 0 ∧
    s.link.outbound.length ≤ s.arrived

/-- Whether the reply accepted is the last one can be computed. -/
instance (s : Acquisition) (ev : Event) : Decidable (s.LastReply ev) :=
  inferInstanceAs (Decidable (_ → _))

/-! ### What the host knows -/

/-- What is still ahead of the target at each point of the host. -/
def Knows (t : Turn UInt8 UInt8 Empty (fun _ ↦ Unit) Unit Unit) : Host → Prop
  | .testWrite | .testRead | .caught => True
  | .ready => t.Quieter ⟨.ret (), (), []⟩
  | .asked dataIn | .armed dataIn =>
    t.Quieter ⟨atNewline cipher dataIn, (), List.replicate 17 none⟩
  | .reading dataIn =>
    t.Quieter ⟨.ret (), (), List.replicate 18 none ++ (cipher dataIn).toList.map some⟩
  | .responded dataIn response | .completed dataIn response =>
    t.Quieter ⟨.ret (), (), []⟩ ∧ response = (cipher dataIn).toList

/-- The trace belongs to its input. -/
def Paired (x : Recorded) : Prop := x.data = x.dataIn.toList ++ (cipher x.dataIn).toList

/-- The invariant of a run. -/
structure Inv (s : Acquisition) : Prop where
  arrived_le : s.arrived ≤ s.link.outbound.length
  knows : Knows cipher (s.link.turn (target cipher)) s.host
  paired : ∀ x ∈ s.recorded, Paired cipher x

variable {cipher}

private theorem Knows.quieter {t t' : Turn UInt8 UInt8 Empty (fun _ ↦ Unit) Unit Unit} {host : Host}
    (h : Knows cipher t host) (ht : t'.Quieter t) : Knows cipher t' host := by
  cases host with
  | testWrite => trivial
  | testRead => trivial
  | caught => trivial
  | ready => exact ht.trans h
  | asked dataIn => exact ht.trans h
  | armed dataIn => exact ht.trans h
  | reading dataIn => exact ht.trans h
  | responded dataIn response => exact ⟨ht.trans h.1, h.2⟩
  | completed dataIn response => exact ⟨ht.trans h.1, h.2⟩

/-- The 16 bytes the host reads are the encrypted input, and nothing is left. -/
theorem read_response {l : Link UInt8 UInt8 Empty (fun _ ↦ Unit) Unit Unit} {dataIn : Block}
    (h : Knows cipher (l.turn (target cipher)) (.reading dataIn)) (hl : 16 ≤ l.outbound.length) :
    Knows cipher ((l.drop 16).turn (target cipher)) (.responded dataIn (l.outbound.take 16)) := by
  have hlen : (cipher dataIn).toList.length = 16 := List.Vector.toList_length _
  have hread : readActions 16 (List.replicate 18 none ++ (cipher dataIn).toList.map some) =
      ((cipher dataIn).toList, []) := by
    rw [readActions_replicate, readActions_map (Nat.le_of_eq hlen)]
  obtain ⟨hout, hdrop⟩ := l.readActions_turn (target cipher) hl
  obtain ⟨hsame, hrest⟩ := h.unread.readActions 16
  rw [hread] at hsame hrest
  rw [hdrop]
  exact ⟨⟨h.proc, h.env, hrest⟩, hout.symm.trans hsame⟩

private theorem Inv.hostStep {s : Acquisition} (h : s.Inv cipher) (r : ScopeResult) :
    (s.hostStep r).Inv cipher := by
  obtain ⟨host, link, arrived, recorded⟩ := s
  obtain ⟨hle, hknows, hpaired⟩ := h
  dsimp only at hle hknows hpaired
  cases host with
  | testWrite => exact ⟨hle, trivial, hpaired⟩
  | testRead =>
    unfold Acquisition.hostStep
    dsimp only
    split
    · refine ⟨?_, trivial, hpaired⟩
      change arrived - 100 ≤ (link.outbound.drop 100).length
      rw [List.length_drop]
      omega
    · exact ⟨hle, trivial, hpaired⟩
  | ready => exact ⟨hle, hknows, hpaired⟩
  | asked dataIn =>
    refine ⟨hle, ?_, hpaired⟩
    change Knows cipher _ (if r = .raised then .caught else .armed dataIn)
    split
    · trivial
    · exact hknows
  | armed dataIn =>
    refine ⟨hle, ?_, hpaired⟩
    change Knows cipher ((link.write _).turn _) (.reading dataIn)
    rw [link.turn_write]
    have hfeed := hknows.feed (target cipher) ['\n'.toUInt8]
    rw [feed_newline] at hfeed
    exact hfeed
  | reading dataIn =>
    unfold Acquisition.hostStep
    dsimp only
    split
    · next harr =>
      refine ⟨?_, read_response hknows (Nat.le_trans harr hle), hpaired⟩
      change arrived - 16 ≤ (link.outbound.drop 16).length
      rw [List.length_drop]
      omega
    · exact ⟨hle, hknows, hpaired⟩
  | responded dataIn response =>
    cases r with
    | returned => exact ⟨hle, hknows, hpaired⟩
    | missed => exact ⟨hle, hknows.1, hpaired⟩
    | raised => exact ⟨hle, trivial, hpaired⟩
  | completed dataIn response =>
    unfold Acquisition.hostStep
    dsimp only
    split
    · exact ⟨hle, trivial, hpaired⟩
    · refine ⟨hle, hknows.1, fun x hx ↦ ?_⟩
      rcases List.mem_append.mp hx with hx | hx
      · exact hpaired x hx
      · rw [List.mem_singleton.mp hx, hknows.2]
        rfl
  | caught => exact ⟨hle, trivial, hpaired⟩

private theorem knows_ready {l : Link UInt8 UInt8 Empty (fun _ ↦ Unit) Unit Unit} {n : Nat}
    (hp : ∃ a, l.proc = .ret a) (hin : l.inbound.all.length = 0) (hout : l.outbound.length ≤ n) :
    Knows cipher ((l.drop n).turn (target cipher)) .ready := by
  obtain ⟨a, hp⟩ := hp
  have hrest : (l.drop n).Rest (.ret a) l.env :=
    ⟨hp, rfl, List.length_eq_zero_iff.mp hin, List.drop_eq_nil_of_le hout⟩
  change ((l.drop n).turn (target cipher)).Quieter _
  rw [hrest.turn_eq trivial]
  exact .refl _

private theorem exists_of_atCommand {s : Acquisition} (h : s.atCommand = true) :
    ∃ a, s.link.proc = .ret a := by
  unfold atCommand at h
  split at h
  · next a ha => exact ⟨a, ha⟩
  · exact absurd h Bool.false_ne_true

private theorem Inv.timeoutStep {s : Acquisition} (h : s.Inv cipher) (hev : s.LastReply .timeout) :
    s.timeoutStep.Inv cipher := by
  have hconsume : s.arrived - s.arrived ≤ (s.link.outbound.drop s.arrived).length := by omega
  unfold Acquisition.timeoutStep
  split
  · next hhost =>
    split
    · next hlt =>
      refine ⟨hconsume, ?_, h.paired⟩
      change Knows cipher ((s.link.drop s.arrived).turn _) (if _ then _ else _)
      split
      · next hreply =>
        obtain ⟨hcmd, hin, hout⟩ := hev ⟨rfl, hhost, hlt, hreply⟩
        exact knows_ready (exists_of_atCommand hcmd) hin hout
      · trivial
    · exact h
  · split
    · exact ⟨hconsume, trivial, h.paired⟩
    · exact h
  · exact h

/-- Every event keeps the invariant, if only the last reply is accepted. -/
theorem Inv.step {s : Acquisition} (h : s.Inv cipher) {ev : Event} (hev : s.LastReply ev) :
    (s.step cipher ev).Inv cipher := by
  cases ev with
  | host r => exact h.hostStep r
  | timeout => exact h.timeoutStep hev
  | input dataIn =>
    unfold Acquisition.step
    dsimp only
    split
    · next hhost =>
      refine ⟨h.arrived_le, ?_, h.paired⟩
      change Knows cipher ((s.link.write _).turn _) (.asked dataIn)
      rw [s.link.turn_write]
      have hknows := h.knows
      rw [hhost] at hknows
      have hfeed := Turn.Quieter.feed (target cipher) hknows ('a'.toUInt8 :: dataIn.toList)
      rw [feed_encrypt] at hfeed
      exact hfeed
    · exact h
  | link e =>
    obtain ⟨os, hos⟩ := s.link.outbound_step (target cipher) e
    refine ⟨?_, h.knows.quieter (s.link.turn_step (target cipher) e), h.paired⟩
    change s.arrived ≤ (s.link.step (target cipher) e).outbound.length
    rw [hos, List.length_append]
    exact Nat.le_add_right_of_le h.arrived_le
  | arrive => exact ⟨Nat.min_le_right _ _, h.knows, h.paired⟩

/-- If `testTarget` accepts only the last reply the target has under way, the invariant holds in a
whole run. -/
theorem inv_run {cipher : Block → Block} {evs : List Event}
    (hevs : Guarded (step cipher) LastReply start evs) :
    (run (step cipher) start evs).Inv cipher := by
  have hstart : start.Inv cipher := ⟨Nat.le_refl 0, trivial, fun x hx ↦ by simp [start] at hx⟩
  exact hevs.invariant (fun _ _ h hev ↦ h.step hev) hstart

/-- In every run in which `testTarget` accepts only the last reply the target has under way,
every recorded trace holds the input of its iteration and the encryption of that input. -/
theorem paired_of_lastReply (cipher : Block → Block) (evs : List Event)
    (hevs : Guarded (step cipher) LastReply start evs) :
    ∀ x ∈ (run (step cipher) start evs).recorded,
      x.data = x.dataIn.toList ++ (cipher x.dataIn).toList :=
  (inv_run hevs).paired

/-! ### Runs -/

/-- The input of the runs. -/
def someInput : Block := List.Vector.replicate 16 7

/-- A round of `testTarget` in which `k` probes reach the target and `n` bytes the host before
its read times out. -/
def probing (k n : Nat) : List Event :=
  [.host .returned, .link (.packet k)] ++ List.replicate (5 * k) (.link .server) ++
    List.replicate n .arrive ++ [.timeout]

/-- An iteration without disturbances. -/
def iteration : List Event :=
  [.input someInput, .host .returned, .host .returned, .link (.packet 18)] ++
    List.replicate 52 (.link .server) ++ List.replicate 16 .arrive ++
    List.replicate 3 (.host .returned)

/-- The greeting and the reply to the first probe are read together; the second probe is
answered alone. -/
def synchronised : List Event :=
  List.replicate 23 (.link .server) ++ probing 1 26 ++ probing 1 3 ++ iteration

/-- One trace behind a reply that was the last. -/
theorem paired_of_lastReply_synchronised :
    (run (step id) start synchronised).recorded.length = 1 ∧
    ∀ x ∈ (run (step id) start synchronised).recorded,
      x.data = x.dataIn.toList ++ (id x.dataIn).toList :=
  ⟨by decide +kernel, paired_of_lastReply id synchronised (by decide +kernel)⟩

/-- The first probe is answered late, and its reply is taken for that to the second one, which is
still on its way when the iteration begins. -/
def staleReply : List Event :=
  List.replicate 23 (.link .server) ++ probing 0 23 ++ probing 2 3 ++ iteration

/-- A trace with the output that begins with the late reply. -/
theorem not_paired_staleReply :
    (run (step id) start staleReply).recorded =
      [⟨someInput, someInput.toList ++ (reply ++ someInput.toList.take 13)⟩] ∧
    ∃ x ∈ (run (step id) start staleReply).recorded,
      x.data ≠ x.dataIn.toList ++ (id x.dataIn).toList := by
  have hrec : (run (step id) start staleReply).recorded =
      [⟨someInput, someInput.toList ++ (reply ++ someInput.toList.take 13)⟩] := by
    decide +kernel
  refine ⟨hrec, _, by rw [hrec]; exact List.mem_singleton_self _, ?_⟩
  decide +kernel

end Acquisition

end HorrorScope.Acq
