import Chip8.Proofs.Stage

/-! Frames of a session against frames of the machine alone, from its boot on: traced and
untraced sessions play the same, as long as the ticks of a frame can be counted in 32 bits. -/
namespace Chip8

namespace Machine

/-- Frames of `n` ticks, each with its own keys. -/
def playFrames (n : Nat) (pads : Nat → Keypad) (j : Nat) (m : Machine) : Machine :=
  ((List.range j).map pads).foldl (fun m k => ({ m with keypad := k }).frame n) m

/-- The ticks of the frame after `j` frames; the timers are still to move. -/
def playTicks (n : Nat) (pads : Nat → Keypad) (j : Nat) (m : Machine) : Machine :=
  ({ m.playFrames n pads j with keypad := pads j }).cycles n

theorem playFrames_succ (n : Nat) (pads : Nat → Keypad) (j : Nat) (m : Machine) :
    m.playFrames n pads (j + 1) = (m.playTicks n pads j).tickTimers := by
  simp [playFrames, playTicks, frame, List.range_succ]

theorem playFrames_wellFormed {m : Machine} (h : m.control.WellFormed) (n : Nat)
    (pads : Nat → Keypad) (j : Nat) : (m.playFrames n pads j).control.WellFormed := by
  induction j with
  | zero => exact h
  | succ j ih =>
    rw [playFrames_succ]
    exact Control.WellFormed.cycles (m := { m.playFrames n pads j with keypad := pads j }) n ih

theorem playTicks_wellFormed {m : Machine} (h : m.control.WellFormed) (n : Nat)
    (pads : Nat → Keypad) (j : Nat) : (m.playTicks n pads j).control.WellFormed :=
  Control.WellFormed.cycles (m := { m.playFrames n pads j with keypad := pads j }) n
    (playFrames_wellFormed h n pads j)

end Machine

/-- An input source that has always sixteen flags to answer. -/
def Input.ofPads (pads : Nat → Keypad) (quitAfter : Option Int) : Input :=
  { script := fun j => (pads j).toList, quitAfter }

/-! ### Frames on a stage -/
namespace Stage
variable {g : Stage} {k : Keypad} {pads : Nat → Keypad} {n : Nat}

def play (pads : Nat → Keypad) : Nat → Stage → Stage
  | 0, g => g
  | j + 1, g => (play pads j g).frame (pads j)

theorem plan_frame (g : Stage) (k : Keypad) : (g.frame k).plan = g.plan := by
  rw [frame]
  split <;> rfl

theorem hasRenderer_frame (g : Stage) (k : Keypad) : (g.frame k).hasRenderer = g.hasRenderer := by
  rw [frame]
  split <;> rfl

theorem input_frame (g : Stage) (k : Keypad) :
    (g.frame k).input = g.input.map fun i => i.poll.2 := by
  rw [frame]
  split <;> rfl

/-- Of the plan a frame reads nothing but the number of its ticks. -/
theorem frame_plan {p : Plan} (h : p.cyclesPerFrame = g.plan.cyclesPerFrame) (k : Keypad) :
    Stage.frame { g with plan := p } k = { g.frame k with plan := p } := by
  have ht : (poll k { g with plan := p }).tick = { (g.poll k).tick with plan := p } := by
    simp only [tick, poll, h]
  rw [frame, ht, frame]
  split <;> rfl

theorem frame_of_running (hn : g.plan.cyclesPerFrame = n)
    (h : (({ g.machine with keypad := k }).cycles n).isFaulted = false) :
    (g.frame k).machine = ({ g.machine with keypad := k }).frame n ∧
      (g.frame k).frames = g.frames + 1 ∧
      (g.frame k).pictures = g.pictures ++
        if g.hasRenderer then [(({ g.machine with keypad := k }).frame n).display] else [] := by
  subst hn
  have hx : ¬(g.poll k).tick.machine.isFaulted = true := by
    rw [Bool.not_eq_true]
    exact h
  rw [frame, if_neg hx]
  exact ⟨rfl, rfl, rfl⟩

theorem frame_of_faulted (hn : g.plan.cyclesPerFrame = n)
    (h : (({ g.machine with keypad := k }).cycles n).isFaulted = true) :
    (g.frame k).machine = ({ g.machine with keypad := k }).cycles n ∧
      (g.frame k).frames = g.frames ∧ (g.frame k).pictures = g.pictures := by
  subst hn
  have hx : (g.poll k).tick.machine.isFaulted = true := h
  rw [frame, if_pos hx]
  exact ⟨rfl, rfl, rfl⟩

theorem plan_play (pads : Nat → Keypad) (j : Nat) (g : Stage) : (g.play pads j).plan = g.plan := by
  induction j with
  | zero => rfl
  | succ j ih => rw [play, plan_frame, ih]

theorem hasRenderer_play (pads : Nat → Keypad) (j : Nat) (g : Stage) :
    (g.play pads j).hasRenderer = g.hasRenderer := by
  induction j with
  | zero => rfl
  | succ j ih => rw [play, hasRenderer_frame, ih]

theorem input_play {i : Input} (hi : g.input = some i) (pads : Nat → Keypad) (j : Nat) :
    (g.play pads j).input = some { i with polls := i.polls + j } := by
  induction j with
  | zero => exact hi
  | succ j ih =>
    rw [play, input_frame, ih]
    rfl

theorem play_plan {p : Plan} (h : p.cyclesPerFrame = g.plan.cyclesPerFrame)
    (pads : Nat → Keypad) (j : Nat) :
    Stage.play pads j { g with plan := p } = { g.play pads j with plan := p } := by
  induction j with
  | zero => rfl
  | succ j ih =>
    rw [play, ih, play]
    exact frame_plan (by rw [plan_play, h]) (pads j)

/-- Up to the first fault the frames are those of the machine alone, all of them are counted,
and each is drawn at its end. -/
theorem play_of_running (hn : g.plan.cyclesPerFrame = n) (j : Nat)
    (h : ∀ i < j, (g.machine.playTicks n pads i).isFaulted = false) :
    (g.play pads j).machine = g.machine.playFrames n pads j ∧
      (g.play pads j).frames = g.frames + j ∧
      (g.play pads j).pictures = g.pictures ++ if g.hasRenderer then
        (List.range j).map fun i => (g.machine.playFrames n pads (i + 1)).display else [] := by
  induction j with
  | zero => exact ⟨rfl, rfl, by simp [play]⟩
  | succ j ih =>
    obtain ⟨hm, hf, hp⟩ := ih fun i hi => h i (by omega)
    obtain ⟨hm', hf', hp'⟩ := frame_of_running (g := g.play pads j) (k := pads j)
      (by rw [plan_play, hn]) (by rw [hm]; exact h j (by omega))
    rw [hm] at hm' hp'
    rw [Machine.playFrames_succ]
    refine ⟨hm', by rw [play, hf', hf]; omega, ?_⟩
    rw [play, hp', hp, hasRenderer_play]
    split
    · rw [List.range_succ, List.map_append, List.append_assoc, List.map_singleton,
        Machine.playFrames_succ]
      rfl
    · rw [List.append_nil]

/-- The frame of the first fault ends with its ticks. -/
theorem play_of_faulted (hn : g.plan.cyclesPerFrame = n) {j : Nat}
    (h : ∀ i < j, (g.machine.playTicks n pads i).isFaulted = false)
    (hx : (g.machine.playTicks n pads j).isFaulted = true) :
    (g.play pads (j + 1)).machine = g.machine.playTicks n pads j ∧
      (g.play pads (j + 1)).frames = (g.play pads j).frames ∧
      (g.play pads (j + 1)).pictures = (g.play pads j).pictures := by
  obtain ⟨hm, -, -⟩ := play_of_running hn j h
  have hf := frame_of_faulted (g := g.play pads j) (k := pads j) (by rw [plan_play, hn])
    (by rw [hm]; exact hx)
  rwa [hm] at hf

end Stage

namespace Plan

theorem ofConfig_eq_ok {c : Config} {p : Plan} (h : ofConfig c = .ok p) :
    ∃ cps hz scale key, c.quantities = .ok (cps, hz, scale) ∧
      RandomKey.ofSetting c.seed = .ok key ∧
      p.cyclesPerFrame = Config.cyclesPerFrame cps hz := by
  cases hq : c.quantities with
  | error e => simp [ofConfig, hq, bind, Except.bind] at h
  | ok qs =>
    obtain ⟨cps, hz, scale⟩ := qs
    cases hk : RandomKey.ofSetting c.seed with
    | error e => simp [ofConfig, hq, hk, bind, Except.bind] at h
    | ok key =>
      simp only [ofConfig, hq, hk, bind, Except.bind] at h
      cases h
      exact ⟨cps, hz, scale, key, rfl, rfl, rfl⟩

theorem cyclesPerFrame_pos {c : Config} {p : Plan} (h : ofConfig c = .ok p) :
    0 < p.cyclesPerFrame := by
  obtain ⟨cps, hz, scale, key, -, -, hn⟩ := ofConfig_eq_ok h
  rw [hn]
  exact Nat.le_max_left 1 _

theorem ofConfig_trace {c : Config} {p : Plan} (h : ofConfig c = .ok p) (t : Setting) :
    ofConfig { c with trace := t } = .ok { p with trace := t.isSet } := by
  obtain ⟨cps, hz, scale, key, hq, hk, -⟩ := ofConfig_eq_ok h
  have hq' : ({ c with trace := t } : Config).quantities = .ok (cps, hz, scale) := hq
  simp only [ofConfig, hq, hq', hk, bind, Except.bind] at h ⊢
  cases h
  rfl

end Plan

namespace Session
variable {τ : Type} {s : Session τ} {pads : Nat → Keypad} {q : Option Int}

/-- A session after some calls for a frame, whatever has come of them. -/
def afterFrames : Nat → Session τ → Session τ
  | 0, s => s
  | j + 1, s => (afterFrames j s).frame.session

/-- The frame after `j` frames has its own keys to poll. -/
theorem due_of_play {g : Stage} {j : Nat} (hs : s.stage = g.play pads j)
    (hi : g.input = some (.ofPads pads q)) :
    s.plan = g.plan ∧ ∃ i, s.input = some i ∧
      Keypad.ofFlags? (i.script i.polls) = some (pads j) := by
  refine ⟨(congrArg Stage.plan hs).trans (Stage.plan_play pads j g), _,
    (congrArg Stage.input hs).trans (Stage.input_play hi pads j), ?_⟩
  change Keypad.ofFlags? (pads (0 + j)).toList = some (pads j)
  rw [Nat.zero_add]
  exact Keypad.ofFlags?_toList (pads j)

theorem frame_reaches_play {g : Stage} {j : Nat} (hs : s.stage = g.play pads j)
    (hi : g.input = some (.ofPads pads q)) (hp : g.plan.Playable) :
    s.frame.Reaches (g.play pads (j + 1)) := by
  obtain ⟨hplan, i, hinput, hk⟩ := due_of_play hs hi
  rw [Stage.play, ← hs]
  exact frame_reaches hinput hk (by rwa [hplan])

theorem stage_afterFrames (hi : s.input = some (.ofPads pads q)) (hp : s.plan.Playable)
    (j : Nat) :
    (s.afterFrames j).stage = s.stage.play pads j := by
  induction j with
  | zero => rfl
  | succ j ih => exact (frame_reaches_play ih hi hp).stage

/-- Frames that are refused poll the keys and do nothing else. -/
theorem afterFrames_of_ge (hi : s.input = some (.ofPads pads q)) (ht : s.plan.trace = false)
    (hn : 0x80000000 ≤ s.plan.cyclesPerFrame) (j : Nat) :
    (s.afterFrames j).frame.failure = some .outOfRange ∧
      (s.afterFrames (j + 1)).stage = { s.stage with
        input := some { Input.ofPads pads q with polls := j + 1 }
        machine := { s.machine with keypad := pads j } } := by
  induction j with
  | zero =>
    obtain ⟨hf, hs⟩ := frame_of_ge hi (Keypad.ofFlags?_toList (pads 0)) ht hn
    refine ⟨hf, hs.trans ?_⟩
    rw [Stage.poll, show s.stage.input = some (.ofPads pads q) from hi]
    rfl
  | succ j ih =>
    have hj := ih.2
    obtain ⟨hf, hs⟩ := frame_of_ge (congrArg Stage.input hj) (Keypad.ofFlags?_toList (pads (j + 1)))
      ((congrArg (fun g => g.plan.trace) hj).trans ht)
      (hn.trans_eq (congrArg (fun g => g.plan.cyclesPerFrame) hj).symm)
    refine ⟨hf, hs.trans ?_⟩
    rw [hj]
    rfl

/-! ### Frames up to the first fault -/

section Refinement
variable (hi : s.input = some (.ofPads pads q)) (hp : s.plan.Playable) {j : Nat}
  (h : ∀ i < j, (s.machine.playTicks s.plan.cyclesPerFrame pads i).isFaulted = false)
include hi hp h

theorem afterFrames_of_running :
    (s.afterFrames j).machine = s.machine.playFrames s.plan.cyclesPerFrame pads j ∧
      (s.afterFrames j).frames = s.frames + j ∧
      (s.afterFrames j).pictures = s.pictures ++ if s.hasRenderer then
        (List.range j).map fun i =>
          (s.machine.playFrames s.plan.cyclesPerFrame pads (i + 1)).display else [] := by
  have hj := Stage.play_of_running (g := s.stage) rfl j h
  rwa [← stage_afterFrames hi hp j] at hj

theorem afterFrames_of_faulted
    (hx : (s.machine.playTicks s.plan.cyclesPerFrame pads j).isFaulted = true) :
    (s.afterFrames (j + 1)).machine = s.machine.playTicks s.plan.cyclesPerFrame pads j ∧
      (s.afterFrames (j + 1)).frames = (s.afterFrames j).frames ∧
      (s.afterFrames (j + 1)).pictures = (s.afterFrames j).pictures := by
  have hj := Stage.play_of_faulted (g := s.stage) rfl h hx
  rwa [← stage_afterFrames hi hp j, ← stage_afterFrames hi hp (j + 1)] at hj

theorem afterFrames_failure :
    (s.afterFrames j).frame.failure =
      (s.machine.playTicks s.plan.cyclesPerFrame pads j).failure? := by
  have hr := frame_reaches_play (stage_afterFrames hi hp j) hi hp
  rw [hr.failure, ← hr.stage]
  cases hx : (s.machine.playTicks s.plan.cyclesPerFrame pads j).isFaulted with
  | false =>
    have hj := Nat.forall_lt_succ_right.2 ⟨h, hx⟩
    have hm := (afterFrames_of_running hi hp hj).1
    rw [Machine.playFrames_succ] at hm
    -- the timers have moved in between, which no status shows
    exact (congrArg Machine.failure? hm).trans rfl
  | true => exact congrArg Machine.failure? (afterFrames_of_faulted hi hp h hx).1

theorem afterFrames_toneOn (hb : s.toneOn = decide (0 < s.machine.soundTimer)) :
    (s.afterFrames j).toneOn = decide (0 < (s.afterFrames j).machine.soundTimer) := by
  cases j with
  | zero => exact hb
  | succ j =>
    -- the last frame before was due and did not fail, so it has set the tone
    obtain ⟨hj, hx⟩ := Nat.forall_lt_succ_right.1 h
    have hr := frame_reaches_play (stage_afterFrames hi hp j) hi hp
    rw [← hr.stage] at hr
    refine hr.tone ?_
    rw [afterFrames_failure hi hp hj]
    exact Machine.failure?_eq_none.2 hx

end Refinement

/-- Sessions of which one is traced play the same frames, the first fault and all that follows
it included. -/
theorem afterFrames_plan {b : Session τ} {p : Plan} (hb : b.stage = { s.stage with plan := p })
    (hc : p.cyclesPerFrame = s.plan.cyclesPerFrame) (hi : s.input = some (.ofPads pads q))
    (hs : s.plan.Playable) (hp : p.Playable) (j : Nat) :
    (b.afterFrames j).machine = (s.afterFrames j).machine ∧
      (b.afterFrames j).frames = (s.afterFrames j).frames ∧
      (b.afterFrames j).pictures = (s.afterFrames j).pictures ∧
      (b.afterFrames j).frame.failure = (s.afterFrames j).frame.failure := by
  have hplay (j : Nat) : b.stage.play pads j = { s.stage.play pads j with plan := p } := by
    rw [hb]
    exact Stage.play_plan hc pads j
  have hib : b.input = some (.ofPads pads q) := (congrArg Stage.input hb).trans hi
  have hpb : b.plan.Playable := by
    rwa [show b.plan = p from congrArg Stage.plan hb]
  have hbj := stage_afterFrames hib hpb j
  have hsj := stage_afterFrames hi hs j
  have hj : (b.afterFrames j).stage = { (s.afterFrames j).stage with plan := p } := by
    rw [hbj, hsj, hplay]
  have hf : (b.afterFrames j).frame.failure = (s.afterFrames j).frame.failure := by
    rw [(frame_reaches_play hbj hib hpb).failure, (frame_reaches_play hsj hi hs).failure, hplay]
  exact ⟨congrArg Stage.machine hj, congrArg Stage.frames hj, congrArg Stage.pictures hj, hf⟩

/-! ### From a configuration to its boot -/

theorem ofConfig_eq_ok {c : Config} {hasRenderer hasAudio stamped : Bool} {i : Option Input}
    {wall : Clock Float} {clock : Clock τ} :
    ofConfig c hasRenderer hasAudio i stamped wall clock = .ok s ↔
      ∃ qs logger plan, c.quantities = .ok qs ∧ loggerOf c stamped wall = .ok logger ∧
        Plan.ofConfig c = .ok plan ∧ s = create plan hasRenderer hasAudio i logger clock := by
  cases hq : c.quantities with
  | error e => simp [ofConfig, hq, bind, Except.bind]
  | ok qs =>
    cases hl : loggerOf c stamped wall with
    | error e => simp [ofConfig, hq, hl, bind, Except.bind]
    | ok logger =>
      cases hp : Plan.ofConfig c with
      | error e => simp [ofConfig, hq, hl, hp, bind, Except.bind]
      | ok plan => simp [ofConfig, hq, hl, hp, bind, Except.bind, pure, Except.pure, eq_comm]

theorem ofConfig_trace {c : Config} {hasRenderer hasAudio stamped : Bool} {i : Option Input}
    {wall : Clock Float} {clock : Clock τ}
    (h : ofConfig c hasRenderer hasAudio i stamped wall clock = .ok s) (t : Setting) :
    ofConfig { c with trace := t } hasRenderer hasAudio i stamped wall clock =
      .ok { s with plan := { s.plan with trace := t.isSet } } := by
  obtain ⟨qs, logger, plan, hq, hl, hp, rfl⟩ := ofConfig_eq_ok.1 h
  exact ofConfig_eq_ok.2 ⟨qs, logger, _, hq, hl, Plan.ofConfig_trace hp t, rfl⟩

theorem boot_of_load {image : List UInt8} {m : Machine}
    (h : (Machine.create s.plan.seed).load image = .ok m) :
    ∃ b : Session τ, s.boot image = { session := b } ∧
      b.stage = { s.stage with machine := m, frames := 0 } ∧ b.toneOn = false := by
  rw [boot, h]
  refine ⟨_, rfl, ?_, ?_⟩
  · rw [stage_logBoot, stage_setTone]
    rfl
  · exact toneOn_setTone false _

/-! ### Frames from the boot on -/

theorem frames_of_booted {p : Plan} {hasRenderer : Bool} {m : Machine}
    (hb : s.stage = ⟨p, hasRenderer, some (.ofPads pads q), m, 0, []⟩) (ht : s.toneOn = false)
    (hm : m.control.WellFormed) (hsound : m.soundTimer = 0) (hp : p.Playable) (j : Nat)
    (h : ∀ i < j, (m.playTicks p.cyclesPerFrame pads i).isFaulted = false) :
    (s.afterFrames j).machine = m.playFrames p.cyclesPerFrame pads j ∧
      (s.afterFrames j).frames = j ∧
      (s.afterFrames j).pictures = (if hasRenderer then
        (List.range j).map fun i => (m.playFrames p.cyclesPerFrame pads (i + 1)).display else []) ∧
      (s.afterFrames j).toneOn = decide (0 < (s.afterFrames j).machine.soundTimer) ∧
      ((m.playTicks p.cyclesPerFrame pads j).isFaulted = false →
        (s.afterFrames j).frame.failure = none) ∧
      ∀ f, (m.playTicks p.cyclesPerFrame pads j).status = .halted f →
        (∃ cause, Cause.ofFault? f = some cause ∧ (s.afterFrames j).frame.failure =
          some (.halt (.fault cause none
            (some (m.playTicks p.cyclesPerFrame pads j).pc.toNat)))) ∧
        (s.afterFrames (j + 1)).machine = m.playTicks p.cyclesPerFrame pads j ∧
        (s.afterFrames (j + 1)).frames = j ∧
        (s.afterFrames (j + 1)).pictures = (s.afterFrames j).pictures := by
  simp only [stage, Stage.mk.injEq] at hb
  obtain ⟨rfl, rfl, hi, rfl, hf0, hp0⟩ := hb
  obtain ⟨hmj, hfj, hpj⟩ := afterFrames_of_running hi hp h
  rw [hf0, Nat.zero_add] at hfj
  rw [hp0, List.nil_append] at hpj
  have htj := afterFrames_toneOn hi hp h (by rw [ht, hsound]; rfl)
  have hfail := afterFrames_failure hi hp h
  refine ⟨hmj, hfj, hpj, htj, fun hx => ?_, fun f hx => ?_⟩
  · rw [hfail]
    exact Machine.failure?_eq_none.2 hx
  · obtain ⟨hm', hf', hp'⟩ := afterFrames_of_faulted hi hp h (Machine.isFaulted_of_halted hx)
    have hc := (Machine.playTicks_wellFormed hm s.plan.cyclesPerFrame pads j).cause hx
    rw [← hfail] at hc
    exact ⟨hc, hm', hf'.trans hfj, hp'⟩

/-- Frames of a session of any configuration, from the boot of any program that fits. The first
part is about a trace or fewer than 2147483648 ticks a frame: up to the first fault the session
plays the frames of the machine alone, and the frame of that fault is cut off before its timers
move. Among such sessions the trace makes no difference, faults and the calls after them included.
With more ticks and without a trace every frame is refused when the keys have been polled. -/
theorem frames_refine {c : Config} {hasRenderer hasAudio stamped : Bool}
    {pads : Nat → Keypad} {quitAfter : Option Int} {wall : Clock Float} {clock : Clock τ}
    {s : Session τ} {image : List UInt8}
    (hs : ofConfig c hasRenderer hasAudio (some (.ofPads pads quitAfter)) stamped wall clock =
      .ok s) (hsize : image.length ≤ 3584) :
    ∃ m₀ b, (Machine.create s.plan.seed).load image = .ok m₀ ∧
      s.boot image = { session := b } ∧
      let n := s.plan.cyclesPerFrame
      (s.plan.trace = true ∨ n < 0x80000000 →
        ∀ j, (∀ i < j, (m₀.playTicks n pads i).isFaulted = false) →
          (b.afterFrames j).machine = m₀.playFrames n pads j ∧
          (b.afterFrames j).frames = j ∧
          (b.afterFrames j).pictures = (if hasRenderer then
            (List.range j).map fun i => (m₀.playFrames n pads (i + 1)).display else []) ∧
          (b.afterFrames j).toneOn = decide (0 < (b.afterFrames j).machine.soundTimer) ∧
          ((m₀.playTicks n pads j).isFaulted = false → (b.afterFrames j).frame.failure = none) ∧
          ∀ f, (m₀.playTicks n pads j).status = .halted f →
            (∃ cause, Cause.ofFault? f = some cause ∧ (b.afterFrames j).frame.failure =
              some (.halt (.fault cause none (some (m₀.playTicks n pads j).pc.toNat)))) ∧
            (b.afterFrames (j + 1)).machine = m₀.playTicks n pads j ∧
            (b.afterFrames (j + 1)).frames = j ∧
            (b.afterFrames (j + 1)).pictures = (b.afterFrames j).pictures) ∧
      (n < 0x80000000 → ∀ t, ∃ s' b',
        ofConfig { c with trace := t } hasRenderer hasAudio (some (.ofPads pads quitAfter)) stamped
          wall clock = .ok s' ∧
        s'.boot image = { session := b' } ∧
        ∀ j, (b'.afterFrames j).machine = (b.afterFrames j).machine ∧
          (b'.afterFrames j).frames = (b.afterFrames j).frames ∧
          (b'.afterFrames j).pictures = (b.afterFrames j).pictures ∧
          (b'.afterFrames j).frame.failure = (b.afterFrames j).frame.failure) ∧
      (s.plan.trace = false → 0x80000000 ≤ n →
        ∀ j, (b.afterFrames j).frame.failure = some .outOfRange ∧
          (b.afterFrames (j + 1)).machine = { m₀ with keypad := pads j } ∧
          (b.afterFrames (j + 1)).frames = 0 ∧
          (b.afterFrames (j + 1)).pictures = []) := by
  obtain ⟨qs, logger, plan, -, -, hplan, rfl⟩ := ofConfig_eq_ok.1 hs
  have hpos : 0 < plan.cyclesPerFrame := Plan.cyclesPerFrame_pos hplan
  obtain ⟨m₀, hm₀⟩ := Machine.load_of_length (.create plan.seed) image hsize
  have hw : m₀.control.WellFormed := by
    rw [Machine.load_control hm₀]
    exact .boot
  have hsound : m₀.soundTimer = 0 := congrArg Machine.soundTimer (Machine.load_eq hm₀)
  have hboot (p : Plan) (hseed : p.seed = plan.seed) :
      ∃ b : Session τ, (create p hasRenderer hasAudio (some (.ofPads pads quitAfter)) logger
          clock).boot image = { session := b } ∧
        b.stage = ⟨p, hasRenderer, some (.ofPads pads quitAfter), m₀, 0, []⟩ ∧
        b.toneOn = false :=
    boot_of_load (by rwa [← hseed] at hm₀)
  obtain ⟨b, hb, hstage, htone⟩ := hboot plan rfl
  have hi : b.input = some (.ofPads pads quitAfter) := congrArg Stage.input hstage
  have hp : b.plan = plan := congrArg Stage.plan hstage
  refine ⟨m₀, b, hm₀, hb, ?_, ?_, ?_⟩
  · intro hn j hj
    exact frames_of_booted hstage htone hw hsound ⟨hpos, hn⟩ j hj
  · intro hn t
    obtain ⟨b', hb', hstage', -⟩ := hboot { plan with trace := t.isSet } rfl
    refine ⟨_, b', ofConfig_trace hs t, hb', fun j => afterFrames_plan
      (p := { plan with trace := t.isSet }) ?_ ?_ hi ?_ ⟨hpos, .inr hn⟩ j⟩
    · rw [hstage, hstage']
    · rw [hp]
    · rw [hp]
      exact ⟨hpos, .inr hn⟩
  · intro ht hn j
    obtain ⟨hf, hj⟩ := afterFrames_of_ge hi (by rw [hp]; exact ht) (by rw [hp]; exact hn) j
    have hm : b.machine = m₀ := congrArg Stage.machine hstage
    rw [hstage, hm] at hj
    exact ⟨hf, congrArg Stage.machine hj, congrArg Stage.frames hj, congrArg Stage.pictures hj⟩

/-- A program that returns at once. -/
theorem frames_refine_returnAtOnce :
    ∃ s b : Session Unit,
      ofConfig {} true false (some (.ofPads (fun _ => .released) none)) false ⟨0, []⟩ ⟨(), []⟩ =
        .ok s ∧
      s.boot [0x00, 0xEE] = { session := b } ∧
      b.frame.failure = some (.halt (.fault .stackUnderflow none (some 514))) ∧
      (b.afterFrames 1).frames = 0 := by
  have hs : ofConfig (τ := Unit) {} true false (some (.ofPads (fun _ => .released) none)) false
      ⟨0, []⟩ ⟨(), []⟩ = .ok _ := rfl
  have hsize : ([0x00, 0xEE] : List UInt8).length ≤ 3584 := by decide
  obtain ⟨m₀, b, hload, hboot, hplay, -, -⟩ := frames_refine hs hsize
  obtain rfl := Except.ok.inj hload
  obtain ⟨-, -, -, -, -, hstop⟩ :=
    hplay (.inr (by decide)) 0 fun i h => absurd h (Nat.not_lt_zero i)
  obtain ⟨⟨cause, hcause, hf⟩, -, hframes, -⟩ := hstop .stackUnderflow (by decide +kernel)
  obtain rfl := Option.some.inj hcause
  refine ⟨_, b, hs, hboot, hf.trans ?_, hframes⟩
  decide +kernel

/-- With 2147483648 ticks a frame the same program comes to its fault in a traced session only. -/
theorem trace_decides_failure :
    ∃ s s' b b' : Session Unit,
      ofConfig { cyclesPerSecond := .number 128849018880, trace := .flag true } true false
        (some (.ofPads (fun _ => .released) none)) false ⟨0, []⟩ ⟨(), []⟩ = .ok s ∧
      ofConfig { cyclesPerSecond := .number 128849018880, trace := .flag false } true false
        (some (.ofPads (fun _ => .released) none)) false ⟨0, []⟩ ⟨(), []⟩ = .ok s' ∧
      s.boot [0x00, 0xEE] = { session := b } ∧ s'.boot [0x00, 0xEE] = { session := b' } ∧
      b.frame.failure = some (.halt (.fault .stackUnderflow none (some 514))) ∧
      b'.frame.failure = some .outOfRange := by
  obtain ⟨m, hm⟩ := Machine.load_of_length (.create ⟨0, 0⟩) [0x00, 0xEE] (by decide)
  have hboot (trace : Bool) (logger : Logger) (listing : List (String × String)) :=
    boot_of_load (s := create ⟨none, 0x80000000, 60, ⟨0, 0⟩, trace, listing⟩ true false
      (some (.ofPads (fun _ => .released) none)) logger ⟨(), []⟩) hm
  obtain ⟨b, hb, hs, -⟩ := hboot true _ _
  obtain ⟨b', hb', hs', -⟩ := hboot false _ _
  refine ⟨_, _, b, b', rfl, rfl, hb, hb', ?_, ?_⟩
  · have hi : b.input = some (.ofPads (fun _ => .released) none) := congrArg Stage.input hs
    have hn : b.plan.cyclesPerFrame = 0x80000000 := congrArg (fun g => g.plan.cyclesPerFrame) hs
    have ht : b.plan.trace = true := congrArg (fun g => g.plan.trace) hs
    have hf := afterFrames_failure (j := 0) hi ⟨by omega, .inl ht⟩
      fun i h => absurd h (Nat.not_lt_zero i)
    refine hf.trans ?_
    rw [hn, show b.machine = m from congrArg Stage.machine hs]
    obtain rfl := Except.ok.inj hm
    -- the first tick halts the machine, so the other 2147483647 need not be run
    rw [Machine.playTicks,
      Machine.cycles_of_step_halted (f := .stackUnderflow) (by decide +kernel) (by decide)]
    decide +kernel
  · have hi : b'.input = some (.ofPads (fun _ => .released) none) := congrArg Stage.input hs'
    have hn : b'.plan.cyclesPerFrame = 0x80000000 := congrArg (fun g => g.plan.cyclesPerFrame) hs'
    have ht : b'.plan.trace = false := congrArg (fun g => g.plan.trace) hs'
    exact (afterFrames_of_ge hi ht hn.ge 0).1

end Session
end Chip8
