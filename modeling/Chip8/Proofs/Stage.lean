import Chip8.Proofs.WellFormed

/-! The stage of a session: all of it that is neither log nor tone. Ticks and frames change it
as the machine alone does, whether they are traced or not. -/
namespace Chip8

theorem Keypad.ofFlags?_toList (k : Keypad) : ofFlags? k.toList = some k := by
  rw [ofFlags?, dif_pos k.length_toList]
  rfl

def Event.picture? {τ : Type} : Event τ → Option Display
  | draw d => some d
  | _ => none

/-- A frame has ticks, and they can be counted: one after the other without a bound, all at once
in 32 bits. -/
structure Plan.Playable (p : Plan) : Prop where
  pos : 0 < p.cyclesPerFrame
  counted : p.trace = true ∨ p.cyclesPerFrame < 0x80000000

structure Stage where
  plan : Plan
  hasRenderer : Bool
  input : Option Input
  machine : Machine
  frames : Nat
  pictures : List Display

namespace Stage

def poll (k : Keypad) (g : Stage) : Stage :=
  { g with input := g.input.map fun i => i.poll.2, machine := { g.machine with keypad := k } }

def tick (g : Stage) : Stage := { g with machine := g.machine.cycles g.plan.cyclesPerFrame }

def draw (g : Stage) : Stage :=
  { g with pictures := g.pictures ++ if g.hasRenderer then [g.machine.display] else [] }

def finish (g : Stage) : Stage :=
  draw { g with machine := g.machine.tickTimers, frames := g.frames + 1 }

/-- One frame with the keys `k`. A machine that halts in it keeps its timers and is not drawn. -/
def frame (g : Stage) (k : Keypad) : Stage :=
  if (g.poll k).tick.machine.isFaulted then (g.poll k).tick else (g.poll k).tick.finish

end Stage

namespace Session
variable {τ : Type} {s : Session τ}

def pictures (s : Session τ) : List Display := s.events.toList.filterMap Event.picture?

def stage (s : Session τ) : Stage :=
  ⟨s.plan, s.hasRenderer, s.input, s.machine, s.frames, s.pictures⟩

/-! ### The log and the tone are not on the stage -/

theorem stage_said (lg : Logger) {es : Array (Event τ)}
    (h : es.toList.filterMap Event.picture? = []) (s : Session τ) :
    ({ s with logger := lg, events := s.events ++ es }).stage = s.stage := by
  simp [stage, pictures, h]

theorem picture?_line (line : Option Line) :
    (line.map (Event.log (τ := τ))).toArray.toList.filterMap Event.picture? = [] := by
  cases line <;> rfl

theorem picture?_lines (lines : List Line) :
    (lines.map (Event.log (τ := τ))).toArray.toList.filterMap Event.picture? = [] := by
  induction lines with
  | nil => rfl
  | cons l ls ih => exact ih

@[simp] theorem stage_log (l : Level) (text : String) (s : Session τ) :
    (s.log l text).stage = s.stage :=
  stage_said _ (picture?_line _) s

@[simp] theorem stage_logBoot (size : Nat) (s : Session τ) :
    (s.logBoot size).stage = s.stage :=
  stage_said _ (picture?_lines _) s

theorem stage_emit {e : Event τ} (h : e.picture? = none) (s : Session τ) :
    (s.emit e).stage = s.stage := by
  simp [emit, stage, pictures, h]

@[simp] theorem stage_setTone (on : Bool) (s : Session τ) : (s.setTone on).stage = s.stage := by
  simp only [setTone]
  split
  · rfl
  · split
    · rfl
    · split
      · exact (stage_emit rfl _).trans (stage_log _ _ _)
      · exact (stage_emit rfl _).trans (stage_log _ _ _)

@[simp] theorem toneOn_setTone (on : Bool) (s : Session τ) : (s.setTone on).toneOn = on := by
  simp only [setTone]
  split
  · next h => exact h.symm
  · split
    · rfl
    · split <;> rfl

@[simp] theorem stage_traceStep (s : Session τ) : s.traceStep.stage = s.stage := by
  simp only [traceStep]
  split
  · exact stage_log _ _ _
  · rfl

end Session

/-! ### Ticks -/

/-- An operation that leads to a stage: its failure is that of the machine there, and without
one the tone follows the sound timer. -/
structure Outcome.Reaches {τ : Type} (o : Outcome τ) (g : Stage) : Prop where
  stage : o.session.stage = g
  failure : o.failure = g.machine.failure?
  tone : o.failure = none → o.session.toneOn = decide (0 < g.machine.soundTimer)

theorem Outcome.Reaches.andThen {τ : Type} {o : Outcome τ} {g g' : Stage} (h : o.Reaches g)
    {next : Session τ → Outcome τ}
    (hnext : g.machine.failure? = none → (next o.session).Reaches g') :
    (o.andThen next).Reaches (if g.machine.isFaulted then g else g') := by
  rw [Outcome.andThen, h.failure]
  cases hf : g.machine.failure? with
  | none =>
    rw [Machine.failure?_eq_none.1 hf]
    exact hnext hf
  | some f =>
    rw [Machine.isFaulted_of_failure hf]
    exact h

namespace Session
variable {τ : Type} {s : Session τ}

theorem resume_reaches (m : Machine) (s : Session τ) :
    (s.resume (.ok m)).Reaches { s.stage with machine := m } := by
  cases h : m.failure? with
  | some f =>
    simp only [resume, check, h, Outcome.andThen]
    exact ⟨rfl, h.symm, fun hn => nomatch hn⟩
  | none =>
    simp only [resume, check, h, Outcome.andThen]
    exact ⟨stage_setTone _ _, h.symm, fun _ => toneOn_setTone _ _⟩

theorem step_reaches (s : Session τ) :
    s.step.Reaches { s.stage with machine := s.machine.step } := by
  have hm : s.traceStep.machine = s.machine := congrArg Stage.machine s.stage_traceStep
  rw [← hm, ← stage_traceStep s]
  exact s.traceStep.resume_reaches _

/-- A look at the machine after every tick finds what a look after the last one does: a machine
that has halted stays as it is. -/
theorem steps_reaches (n : Nat) (s : Session τ) :
    (s.steps (n + 1)).Reaches { s.stage with machine := s.machine.cycles (n + 1) } := by
  -- from one tick on: without any nothing looks at the machine, and it may be halted already
  induction n generalizing s with
  | zero =>
    have h := s.step_reaches
    simp only [steps]
    split
    · exact h
    · next hn => exact ⟨h.stage, hn.symm.trans h.failure, fun _ => h.tone hn⟩
  | succ n ih =>
    have h := s.step_reaches
    have hm : s.step.session.machine = s.machine.step := congrArg Stage.machine h.stage
    rw [steps, Machine.cycles]
    cases hf : s.step.failure with
    | some f =>
      have hx := Machine.isFaulted_of_failure (h.failure.symm.trans hf)
      obtain ⟨e, he⟩ := Machine.isFaulted_iff.1 hx
      rw [Machine.cycles_of_halted he]
      exact h
    | none =>
      have hn := ih s.step.session
      rwa [hm, h.stage] at hn

theorem burst_reaches (h : s.plan.cyclesPerFrame < 0x80000000) : s.burst.Reaches s.stage.tick := by
  rw [burst, Machine.cycles?_of_lt h]
  exact s.resume_reaches _

theorem burst_of_ge (h : 0x80000000 ≤ s.plan.cyclesPerFrame) :
    s.burst = { session := s, failure := some .outOfRange } := by
  rw [burst, Machine.cycles?_of_ge h, resume]

/-! ### Frames -/

theorem setKeypad_of_flags {flags : List Bool} {k : Keypad} (h : Keypad.ofFlags? flags = some k)
    (s : Session τ) :
    s.setKeypad flags = { session := { s with machine := { s.machine with keypad := k } } } := by
  rw [setKeypad, h]

theorem pollInput_of_flags {i : Input} {k : Keypad} (hi : s.input = some i)
    (hk : Keypad.ofFlags? (i.script i.polls) = some k) :
    ∃ p : Session τ, s.pollInput = { session := p } ∧ p.stage = s.stage.poll k := by
  have hs := stage_emit (e := .poll i.polls) rfl { s with input := some i.poll.2 }
  have hp : s.stage.poll k =
      { s.stage with input := some i.poll.2, machine := { s.machine with keypad := k } } := by
    simp only [Stage.poll, stage, hi, Option.map_some]
  simp only [pollInput, hi, Input.poll, setKeypad_of_flags hk]
  refine ⟨_, rfl, ?_⟩
  rw [hp]
  exact congrArg (fun g : Stage => { g with machine := { g.machine with keypad := k } }) hs

theorem ticks_reaches (h : s.plan.Playable) : s.ticks.Reaches s.stage.tick := by
  rw [ticks]
  split
  · obtain ⟨n, hn⟩ := Nat.exists_eq_succ_of_ne_zero h.pos.ne'
    have hs := s.steps_reaches n
    rwa [← Nat.succ_eq_add_one, ← hn] at hs
  · next ht => exact burst_reaches (h.counted.resolve_left ht)

theorem stage_drawDisplay (s : Session τ) : s.drawDisplay.stage = s.stage.draw := by
  rw [drawDisplay]
  split
  · next h => simp [emit, stage, pictures, Stage.draw, Event.picture?, h]
  · next h => simp [stage, Stage.draw, h]

theorem toneOn_drawDisplay (s : Session τ) : s.drawDisplay.toneOn = s.toneOn := by
  rw [drawDisplay]
  split <;> rfl

theorem stage_logRegisters (s : Session τ) : s.logRegisters.stage = s.stage := by
  rw [logRegisters]
  split
  · exact stage_log _ _ _
  · rfl

theorem toneOn_logRegisters (s : Session τ) : s.logRegisters.toneOn = s.toneOn := by
  rw [logRegisters]
  split <;> rfl

theorem stage_endFrame (s : Session τ) : s.endFrame.stage = s.stage.finish := by
  have ht : s.tickTimers.stage = { s.stage with machine := s.machine.tickTimers } :=
    stage_setTone _ _
  rw [endFrame, stage_drawDisplay, stage_logRegisters]
  exact congrArg (fun g : Stage => Stage.draw { g with frames := g.frames + 1 }) ht

theorem toneOn_endFrame (s : Session τ) :
    s.endFrame.toneOn = decide (0 < s.machine.tickTimers.soundTimer) := by
  rw [endFrame, toneOn_drawDisplay, toneOn_logRegisters]
  exact toneOn_setTone _ _

theorem endFrame_reaches (h : s.machine.failure? = none) :
    ({ session := s.endFrame } : Outcome τ).Reaches s.stage.finish where
  stage := s.stage_endFrame
  failure := h.symm
  tone _ := s.toneOn_endFrame

/-- All that a frame can do: it is refused at the keys, cut off in its ticks, or comes to its
end. -/
inductive Lap (s : Session τ) : Prop where
  | refused (f : Failure) (hp : s.pollInput.failure = some f) (h : s.frame = s.pollInput)
  | cut (f : Failure) (hp : s.pollInput.failure = none)
      (ht : s.pollInput.session.ticks.failure = some f) (h : s.frame = s.pollInput.session.ticks)
  | ended (hp : s.pollInput.failure = none) (ht : s.pollInput.session.ticks.failure = none)
      (h : s.frame = { session := s.pollInput.session.ticks.session.endFrame })

theorem lap (s : Session τ) : s.Lap := by
  cases hp : s.pollInput.failure with
  | some f => exact .refused f hp (by rw [frame, Outcome.andThen, hp])
  | none =>
    cases ht : s.pollInput.session.ticks.failure with
    | some f => exact .cut f hp ht (by simp only [frame, Outcome.andThen, hp, ht])
    | none => exact .ended hp ht (by simp only [frame, Outcome.andThen, hp, ht])

/-- What a frame does when nothing is left to poll. -/
theorem rest_reaches (h : s.plan.Playable) :
    (s.ticks.andThen fun s => { session := s.endFrame }).Reaches
      (if s.stage.tick.machine.isFaulted then s.stage.tick else s.stage.tick.finish) := by
  have ht := ticks_reaches h
  refine ht.andThen fun hf => ?_
  rw [← ht.stage] at hf ⊢
  exact endFrame_reaches hf

/-- A frame leads where the machine alone would lead. -/
theorem frame_reaches {i : Input} {k : Keypad} (hi : s.input = some i)
    (hk : Keypad.ofFlags? (i.script i.polls) = some k) (h : s.plan.Playable) :
    s.frame.Reaches (s.stage.frame k) := by
  obtain ⟨p, hp, hps⟩ := pollInput_of_flags hi hk
  have hplan : p.plan = s.plan := congrArg Stage.plan hps
  have hr := rest_reaches (s := p) (by rwa [hplan])
  rw [hps] at hr
  rw [frame, hp]
  -- the poll has not failed, so the frame goes on from the polled session
  exact hr

/-- Without a trace a frame of too many ticks is refused when the keys have been polled. -/
theorem frame_of_ge {i : Input} {k : Keypad} (hi : s.input = some i)
    (hk : Keypad.ofFlags? (i.script i.polls) = some k) (ht : s.plan.trace = false)
    (hn : 0x80000000 ≤ s.plan.cyclesPerFrame) :
    s.frame.failure = some .outOfRange ∧ s.frame.session.stage = s.stage.poll k := by
  obtain ⟨p, hp, hps⟩ := pollInput_of_flags hi hk
  have hplan : p.plan = s.plan := congrArg Stage.plan hps
  rw [← hplan] at ht hn
  have hf : s.frame = { session := p, failure := some .outOfRange } := by
    rw [frame, hp, Outcome.andThen, ticks, if_neg (by rw [ht]; decide), burst_of_ge hn]
    rfl
  rw [hf]
  exact ⟨rfl, hps⟩

end Session
end Chip8
