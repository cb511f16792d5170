import Mathlib.Data.List.ReduceOption
import HorrorScope.Firmware.Sampling
import HorrorScope.Link.Device

/-!
# The device's calls on the hardware

The `handle` that answers each call of `main` by its routine on the registers, with the hardware
acting in between in any way. What the service does with it is what the machine of
`Firmware.Main` does (`run_settle`), so results about the service are results about the machine.
-/

namespace HorrorScope.Link

open HorrorScope.Base HorrorScope.Firmware HorrorScope.Host

/-- What the hardware does before each statement of the routines. -/
abbrev Interference := Nat → List HwEvent

/-- Some actions of the hardware. -/
def actions (es : List HwEvent) (r : Hw) : Hw := es.foldl (fun r e ↦ e.act r) r

/-- What the hardware does before one statement. -/
def actAll (ω : Interference) (i : Nat) (r : Hw) : Hw := actions (ω i) r

/-- Each call is answered by its routine. The state counts the statements executed so far. -/
def hardware (L : Layout) (ω : Interference) : Handle (Nat × Hw) :=
  fun c s ↦ (c.body L).exec (actAll ω) s

variable (L : Layout) (ω : Interference)

/-! ### Registers behind a call -/

/-- The hardware does not write the settings. -/
theorem settings_actions (es : List HwEvent) (r : Hw) : (actions es r).settings = r.settings := by
  unfold actions
  induction es generalizing r with
  | nil => rfl
  | cons e es ih => exact (ih _).trans (Hw.settings_act r e)

/-- The hardware does not write the settings before a statement. -/
theorem settings_actAll (i : Nat) (r : Hw) : (actAll ω i r).settings = r.settings :=
  settings_actions (ω i) r

section Settings

variable {L} {I : Settings → Prop} {c : Call}

/-- What the routine does not touch is left as it is. -/
theorem keeps_hardware (hc : (c.body L).Keeps fun r ↦ I r.settings) {s : Nat × Hw}
    (hs : I s.2.settings) : I (hardware L ω c s).2.2.settings := by
  refine hc.exec (fun i r h ↦ ?_) hs
  rw [settings_actAll]
  exact h

/-- What the routine establishes holds behind it. -/
theorem ensures_hardware (hc : (c.body L).Ensures fun r ↦ I r.settings) (s : Nat × Hw) :
    I (hardware L ω c s).2.2.settings := by
  refine hc.exec (fun i r h ↦ ?_) s
  rw [settings_actAll]
  exact h

end Settings

/-! ### The machine does the same -/

private theorem run_actAll (m : Machine) (i : Nat) :
    run (Machine.step L) m ((ω i).map .hw) = { m with hw := actAll ω i m.hw } := by
  unfold actAll
  generalize ω i = es
  induction es generalizing m with
  | nil => rfl
  | cons e es ih => exact ih _

/-- A routine that passes its waits returns on the machine what `exec` says. -/
theorem run_exec (c : Call) (k : c.Answer → Fw Vars) (out : List UInt8) (lastWait : Option Bool)
    (p : Routine c.Answer) (s : Nat × Hw) (hp : p.Passes (actAll ω) s) :
    ∃ evs, (∀ b, .byte b ∉ evs) ∧
      run (Machine.step L) ⟨.inCall c p k, s.2, out, lastWait⟩ evs =
        ⟨.inCall c (.ret (p.exec (actAll ω) s).1) k, (p.exec (actAll ω) s).2.2, out, lastWait⟩ := by
  induction p generalizing s with
  | ret a => exact ⟨[], by simp, rfl⟩
  | stmt f p ih =>
    obtain ⟨evs, hb, hrun⟩ := ih _ hp
    refine ⟨(ω s.1).map .hw ++ .cpu :: evs, by simp [hb], ?_⟩
    rw [run_append, run_actAll, run_cons]
    exact hrun
  | get p ih =>
    obtain ⟨evs, hb, hrun⟩ := ih _ _ hp
    refine ⟨(ω s.1).map .hw ++ .cpu :: evs, by simp [hb], ?_⟩
    rw [run_append, run_actAll, run_cons]
    exact hrun
  | await cond p ih =>
    obtain ⟨evs, hb, hrun⟩ := ih _ hp.2
    refine ⟨(ω s.1).map .hw ++ .cpu :: evs, by simp [hb], ?_⟩
    rw [run_append, run_actAll, run_cons]
    have hstep : (Prog.await cond p).step (actAll ω s.1 s.2) = (p, actAll ω s.1 s.2) := if_pos hp.1
    change run _ (Machine.mk (.inCall c ((Prog.await cond p).step (actAll ω s.1 s.2)).1 k)
      ((Prog.await cond p).step (actAll ω s.1 s.2)).2 out lastWait) evs = _
    rw [hstep]
    exact hrun

/-- The control state in which the machine waits. -/
def ctlOf : Fw Vars → Ctl
  | .ret v => .idle v
  | p => .main p

/-- Every wait of every routine the process calls is passed. -/
def PassesAll : Fw Vars → Nat × Hw → Prop
  | .ret _, _ => True
  | .recv _, _ => True
  | .send _ k, s => PassesAll k s
  | .call c k, s => (c.body L).Passes (actAll ω) s ∧
      PassesAll (k (hardware L ω c s).1) (hardware L ω c s).2

/-- What the service does up to its next read, the machine does. -/
theorem run_settle (p : Fw Vars) (s : Nat × Hw) (u : List (Option UInt8)) (out : List UInt8)
    (lastWait : Option Bool) (hp : PassesAll L ω p s) :
    ∃ evs lastWait', (∀ b, .byte b ∉ evs) ∧
      run (Machine.step L) ⟨.main p, s.2, out ++ u.reduceOption, lastWait⟩ evs =
        ⟨ctlOf ((device (hardware L ω)).settle p s u).proc,
          ((device (hardware L ω)).settle p s u).env.2,
          out ++ ((device (hardware L ω)).settle p s u).unread.reduceOption, lastWait'⟩ := by
  induction p generalizing s u lastWait with
  | ret v => exact ⟨[.cpu], lastWait, by simp, rfl⟩
  | recv k => exact ⟨[], lastWait, by simp, rfl⟩
  | send o k ih =>
    obtain ⟨evs, lastWait', hb, hrun⟩ := ih s (u ++ [some o]) lastWait hp
    refine ⟨.cpu :: evs, lastWait', by simp [hb], ?_⟩
    rw [List.reduceOption_append, List.reduceOption_singleton, Option.toList_some,
      ← List.append_assoc] at hrun
    exact hrun
  | call c k ih =>
    obtain ⟨evs₁, hb₁, hrun₁⟩ := run_exec L ω c k (out ++ u.reduceOption) lastWait (c.body L) s hp.1
    obtain ⟨evs₂, lastWait', hb₂, hrun₂⟩ :=
      ih (hardware L ω c s).1 (hardware L ω c s).2 (u ++ [none])
      (c.noteReturn (hardware L ω c s).1 lastWait) hp.2
    refine ⟨.cpu :: evs₁ ++ .cpu :: evs₂, lastWait', by simp [hb₁, hb₂], ?_⟩
    rw [List.reduceOption_append, List.reduceOption_singleton, Option.toList_none,
      List.append_nil] at hrun₂
    rw [run_append]
    change run _ (run _ (Machine.mk (.inCall c (c.body L) k) _ _ _) evs₁) _ = _
    rw [hrun₁]
    exact hrun₂

/-! ### What the machine does, the service does -/

/-- The answers of `handle`, with a record of the calls. -/
def logged {η : Type} (handle : Handle η) : Handle (List Call × η) :=
  fun c s ↦ ((handle c s.2).1, (s.1 ++ [c], (handle c s.2).2))

/-- The byte the processor takes in an event. -/
def received (m : Machine) : Event → List UInt8
  | .byte b =>
    match m.ctl with
    | .idle _ => [b]
    | .main (.recv _) => [b]
    | _ => []
  | _ => []

/-- The routine the processor enters in an event. -/
def called (m : Machine) : Event → List Call
  | .cpu =>
    match m.ctl with
    | .main (.call c _) => [c]
    | _ => []
  | _ => []

/-- `ω` is given by `es` from statement `n` on. -/
private def Follows (n : Nat) (es : List (List HwEvent)) : Prop :=
  ∀ i x, es[i]? = some x → ω (n + i) = x

private theorem Follows.of_append {ω : Interference} {n : Nat} {es es' : List (List HwEvent)}
    (h : Follows ω n (es ++ es')) : Follows ω n es ∧ Follows ω (n + es.length) es' := by
  constructor
  · intro i x hx
    obtain ⟨hi, -⟩ := List.getElem?_eq_some_iff.mp hx
    apply h
    rw [List.getElem?_append_left hi, hx]
  · intro i x hx
    rw [Nat.add_assoc]
    apply h
    rw [List.getElem?_append_right (Nat.le_add_right ..), Nat.add_sub_cancel_left, hx]

private theorem exists_follows (es : List (List HwEvent)) : ∃ ω, Follows ω 0 es := by
  refine ⟨fun i ↦ es[i]?.getD [], fun i x hx ↦ ?_⟩
  dsimp only
  rw [Nat.zero_add, hx, Option.getD_some]

/-- The service where the machine is, before the actions of the hardware that belong to the next
statement: `cs` are the calls so far, `n` the statements executed. -/
private def resume (ctl : Ctl) (cs : List Call) (n : Nat) (r : Hw) (u : List (Option UInt8)) :
    Device (List Call × Nat × Hw) :=
  match ctl with
  | .idle v => ⟨.ret v, (cs, n, r), u⟩
  | .main p => (device (logged (hardware L ω))).settle p (cs, n, r) u
  | .inCall _ body k => (device (logged (hardware L ω))).settle
      (k (body.exec (actAll ω) (n, r)).1) (cs, (body.exec (actAll ω) (n, r)).2) (u ++ [none])

/-- The machine gets from `m` to `m'`, taking the bytes `q` and making the calls `cs`, and the
service follows it. -/
private def Simulates (m m' : Machine) (q : List UInt8) (cs : List Call) : Prop :=
  ∀ cs₀ n r u pending, m.hw = actions pending r →
    ∃ es r' u' pending', m'.hw = actions pending' r' ∧
      (∀ out, m.out = out ++ u.reduceOption → m'.out = out ++ u'.reduceOption) ∧
      ∀ ω, Follows ω n es →
        (device (logged (hardware L ω))).feed (resume L ω m.ctl cs₀ n r u) q =
          resume L ω m'.ctl (cs₀ ++ cs) (n + es.length) r' u'

private theorem Simulates.trans {m m' m'' : Machine} {q q' : List UInt8} {cs cs' : List Call}
    (h : Simulates L m m' q cs) (h' : Simulates L m' m'' q' cs') :
    Simulates L m m'' (q ++ q') (cs ++ cs') := by
  intro cs₀ n r u pending hm
  obtain ⟨es, r', u', pending', hm', hout, hfeed⟩ := h cs₀ n r u pending hm
  obtain ⟨es', r'', u'', pending'', hm'', hout', hfeed'⟩ :=
    h' (cs₀ ++ cs) (n + es.length) r' u' pending' hm'
  refine ⟨es ++ es', r'', u'', pending'', hm'', fun out ho ↦ hout' out (hout out ho), ?_⟩
  intro ω hω
  obtain ⟨hω₁, hω₂⟩ := hω.of_append
  rw [Service.feed_append, hfeed ω hω₁, hfeed' ω hω₂, List.length_append, Nat.add_assoc,
    List.append_assoc]

private theorem simulates_of_control {m m' : Machine} {q : List UInt8} {cs : List Call}
    (w : List (Option UInt8)) (hhw : m'.hw = m.hw) (hout : m'.out = m.out ++ w.reduceOption)
    (hfeed : ∀ ω cs₀ n r u, (device (logged (hardware L ω))).feed (resume L ω m.ctl cs₀ n r u) q =
      resume L ω m'.ctl (cs₀ ++ cs) n r (u ++ w)) : Simulates L m m' q cs := by
  intro cs₀ n r u pending hm
  refine ⟨[], r, u ++ w, pending, hhw.trans hm, fun out ho ↦ ?_, fun ω _ ↦ hfeed ω cs₀ n r u⟩
  rw [hout, ho, List.reduceOption_append, List.append_assoc]

private theorem simulates_self {m m' : Machine} (hctl : m'.ctl = m.ctl) (hhw : m'.hw = m.hw)
    (hout : m'.out = m.out) : Simulates L m m' [] [] := by
  apply simulates_of_control L [] hhw
  · rw [hout, List.reduceOption_nil, List.append_nil]
  · intro ω cs₀ n r u
    rw [Service.feed_nil, hctl, List.append_nil, List.append_nil]

private theorem simulates_of_statement {m m' : Machine} (f : Hw → Hw) (hhw : m'.hw = f m.hw)
    (hout : m'.out = m.out)
    (hresume : ∀ ω cs₀ n r u, actAll ω n r = m.hw →
      resume L ω m.ctl cs₀ n r u = resume L ω m'.ctl cs₀ (n + 1) (f m.hw) u) :
    Simulates L m m' [] [] := by
  intro cs₀ n r u pending hm
  refine ⟨[pending], f m.hw, u, [], hhw, fun out ho ↦ hout.trans ho, fun ω hω ↦ ?_⟩
  have hn : actAll ω n r = m.hw := by
    rw [hm, actAll, ← hω 0 pending rfl, Nat.add_zero, actions]
  rw [Service.feed_nil, List.append_nil]
  exact hresume ω cs₀ n r u hn

private theorem simulates_mainStep (p : Fw Vars) (hw : Hw) (out : List UInt8)
    (lastWait : Option Bool) :
    Simulates L ⟨.main p, hw, out, lastWait⟩ (Machine.cpuStep L ⟨.main p, hw, out, lastWait⟩) []
      (called ⟨.main p, hw, out, lastWait⟩ .cpu) := by
  cases p with
  | ret v =>
    refine simulates_of_control L [] rfl (List.append_nil _).symm fun ω cs₀ n r u ↦ ?_
    change resume L ω (.idle v) cs₀ n r u = resume L ω (.idle v) (cs₀ ++ []) n r (u ++ [])
    rw [List.append_nil, List.append_nil]
  | recv k => exact simulates_self L rfl rfl rfl
  | send b k =>
    refine simulates_of_control L [some b] rfl rfl fun ω cs₀ n r u ↦ ?_
    change resume L ω (.main k) cs₀ n r (u ++ [some b]) =
      resume L ω (.main k) (cs₀ ++ []) n r (u ++ [some b])
    rw [List.append_nil]
  | call c k =>
    refine simulates_of_control L [] rfl (List.append_nil _).symm fun ω cs₀ n r u ↦ ?_
    change resume L ω (.inCall c (c.body L) k) (cs₀ ++ [c]) n r u =
      resume L ω (.inCall c (c.body L) k) (cs₀ ++ [c]) n r (u ++ [])
    rw [List.append_nil]

private theorem simulates_callStep (c : Call) (body : Routine c.Answer) (k : c.Answer → Fw Vars)
    (hw : Hw) (out : List UInt8) (lastWait : Option Bool) :
    Simulates L ⟨.inCall c body k, hw, out, lastWait⟩
      (Machine.cpuStep L ⟨.inCall c body k, hw, out, lastWait⟩) [] [] := by
  cases body with
  | ret a =>
    refine simulates_of_control L [none] rfl (List.append_nil _).symm fun ω cs₀ n r u ↦ ?_
    change resume L ω (.main (k a)) cs₀ n r (u ++ [none]) =
      resume L ω (.main (k a)) (cs₀ ++ []) n r (u ++ [none])
    rw [List.append_nil]
  | stmt f body =>
    refine simulates_of_statement L f rfl rfl fun ω cs₀ n r u hn ↦ ?_
    dsimp only at hn ⊢
    rw [← hn]
    rfl
  | get body =>
    refine simulates_of_statement L id rfl rfl fun ω cs₀ n r u hn ↦ ?_
    dsimp only [id] at hn ⊢
    rw [← hn]
    rfl
  | await cond body =>
    by_cases hc : cond hw = true
    · have hstep : Machine.cpuStep L ⟨.inCall c (.await cond body) k, hw, out, lastWait⟩ =
          ⟨.inCall c body k, hw, out, lastWait⟩ := by
        simp [Machine.cpuStep, Prog.step, hc]
      rw [hstep]
      refine simulates_of_statement L id rfl rfl fun ω cs₀ n r u hn ↦ ?_
      dsimp only [id] at hn ⊢
      rw [← hn]
      rfl
    · have hstep : Machine.cpuStep L ⟨.inCall c (.await cond body) k, hw, out, lastWait⟩ =
          ⟨.inCall c (.await cond body) k, hw, out, lastWait⟩ := by
        simp [Machine.cpuStep, Prog.step, hc]
      rw [hstep]
      exact simulates_self L rfl rfl rfl

private theorem simulates_byteStep (m : Machine) (b : UInt8) :
    Simulates L m (m.byteStep b) (received m (.byte b)) [] := by
  obtain ⟨ctl, hw, out, lastWait⟩ := m
  cases ctl with
  | idle v =>
    refine simulates_of_control L [none] rfl (List.append_nil _).symm fun ω cs₀ n r u ↦ ?_
    rw [List.append_nil]
    rfl
  | inCall c body k => exact simulates_self L rfl rfl rfl
  | main p =>
    cases p with
    | recv k =>
      refine simulates_of_control L [none] rfl (List.append_nil _).symm fun ω cs₀ n r u ↦ ?_
      rw [List.append_nil]
      rfl
    | ret v => exact simulates_self L rfl rfl rfl
    | send b' k => exact simulates_self L rfl rfl rfl
    | call c k => exact simulates_self L rfl rfl rfl

private theorem simulates_hwStep (m : Machine) (e : HwEvent) :
    Simulates L m (m.step L (.hw e)) [] [] := by
  intro cs₀ n r u pending hm
  refine ⟨[], r, u, pending ++ [e], ?_, fun out ho ↦ ho, fun ω _ ↦ ?_⟩
  · change e.act m.hw = _
    rw [hm, actions, actions, List.foldl_append]
    rfl
  · rw [Service.feed_nil, List.append_nil]
    rfl

private theorem simulates_step (m : Machine) (ev : Event) :
    Simulates L m (m.step L ev) (received m ev) (called m ev) := by
  cases ev with
  | cpu =>
    obtain ⟨ctl, hw, out, lastWait⟩ := m
    cases ctl with
    | idle v => exact simulates_self L rfl rfl rfl
    | main p => exact simulates_mainStep L p hw out lastWait
    | inCall c body k => exact simulates_callStep L c body k hw out lastWait
  | byte b => exact simulates_byteStep L m b
  | hw e => exact simulates_hwStep L m e

private theorem simulates_run (m : Machine) (evs : List Event) :
    Simulates L m (run (Machine.step L) m evs) (observed received (Machine.step L) m evs)
      (observed called (Machine.step L) m evs) := by
  induction evs generalizing m with
  | nil => exact simulates_self L rfl rfl rfl
  | cons ev evs ih => exact (simulates_step L m ev).trans L (ih (m.step L ev))

private theorem exists_resume (m : Machine) (evs : List Event) {v : Vars}
    (hv : (run (Machine.step L) m evs).ctl = .idle v) :
    ∃ ω n r u es,
      (device (logged (hardware L ω))).feed (resume L ω m.ctl [] 0 m.hw [])
          (observed received (Machine.step L) m evs) =
        ⟨.ret v, (observed called (Machine.step L) m evs, n, r), u⟩ ∧
      (run (Machine.step L) m evs).hw = actions es r ∧
      (run (Machine.step L) m evs).out = m.out ++ u.reduceOption := by
  -- the behaviour of the hardware is read off the actions of the run
  obtain ⟨es, r, u, pending, hhw, hout, hfeed⟩ :=
    simulates_run L m evs [] 0 m.hw [] [] rfl
  obtain ⟨ω, hω⟩ := exists_follows es
  refine ⟨ω, 0 + es.length, r, u, pending, ?_, hhw, hout m.out (List.append_nil _).symm⟩
  rw [hfeed ω hω, hv]
  rfl

/-- From the start of a process. -/
theorem exists_trace_of_run {m : Machine} {p : Fw Vars} (hm : m.ctl = .main p) (evs : List Event)
    {v : Vars} (hv : (run (Machine.step L) m evs).ctl = .idle v) :
    ∃ ω n r u es,
      (device (logged (hardware L ω))).trace p ([], 0, m.hw) []
          (observed received (Machine.step L) m evs) =
        ⟨.ret v, (observed called (Machine.step L) m evs, n, r), u⟩ ∧
      (run (Machine.step L) m evs).hw = actions es r ∧
      (run (Machine.step L) m evs).out = m.out ++ u.reduceOption := by
  have h := exists_resume L m evs hv
  rw [hm] at h
  exact h

/-- From the command read. -/
theorem exists_feed_of_run {m : Machine} {v : Vars} (hm : m.ctl = .idle v) (evs : List Event)
    {v' : Vars} (hv' : (run (Machine.step L) m evs).ctl = .idle v') :
    ∃ ω n r u es,
      (device (logged (hardware L ω))).feed ⟨.ret v, ([], 0, m.hw), []⟩
          (observed received (Machine.step L) m evs) =
        ⟨.ret v', (observed called (Machine.step L) m evs, n, r), u⟩ ∧
      (run (Machine.step L) m evs).hw = actions es r ∧
      (run (Machine.step L) m evs).out = m.out ++ u.reduceOption := by
  have h := exists_resume L m evs hv'
  rw [hm] at h
  exact h

end HorrorScope.Link
