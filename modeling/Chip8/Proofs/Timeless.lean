import Chip8.Proofs.Limits

/-! What a session does apart from its pace has nothing to do with time: no part of a frame and
nothing at the end of a run looks at the clock or sleeps. -/
namespace Chip8

def Event.sleep? {τ : Type} : Event τ → Option τ
  | sleep d => some d
  | _ => none

namespace Session
variable {τ : Type}

def sleeps (s : Session τ) : List τ := s.events.toList.filterMap Event.sleep?

/-- The same session with another clock. -/
def onClock (c : Clock τ) (s : Session τ) : Session τ := { s with clock := c }

end Session

def Outcome.onClock {τ : Type} (c : Clock τ) (o : Outcome τ) : Outcome τ :=
  { o with session := o.session.onClock c }

namespace Session
variable {τ : Type}

theorem sleeps_emit {e : Event τ} (h : e.sleep? = none) (s : Session τ) :
    (s.emit e).sleeps = s.sleeps := by
  simp [emit, sleeps, h]

theorem sleeps_emit_sleep (d : τ) (s : Session τ) :
    (s.emit (.sleep d)).sleeps = s.sleeps ++ [d] := by
  simp [emit, sleeps, Event.sleep?]

theorem sleeps_said (lg : Logger) (line : Option Line) (s : Session τ) :
    ({ s with logger := lg, events := s.events ++ (line.map Event.log).toArray }).sleeps =
      s.sleeps := by
  cases line <;> simp [sleeps, Event.sleep?]

/-- An operation that does the same on any clock, which it leaves as it is, and does not sleep. -/
structure Timeless (f : Session τ → Outcome τ) : Prop where
  clock (c : Clock τ) (s : Session τ) : f (s.onClock c) = (f s).onClock c
  sleeps (s : Session τ) : (f s).session.sleeps = s.sleeps

namespace Timeless
variable {f g : Session τ → Outcome τ} {p : Session τ → Prop} [DecidablePred p]

theorem andThen (hf : Timeless f) (hg : Timeless g) : Timeless fun s => (f s).andThen g where
  clock c s := by
    rw [hf.clock]
    simp only [Outcome.andThen, Outcome.onClock]
    cases h : (f s).failure with
    | some e => simp only [h]
    | none => exact hg.clock c (f s).session
  sleeps s := by
    simp only [Outcome.andThen]
    cases (f s).failure with
    | some e => exact hf.sleeps s
    | none => exact (hg.sleeps _).trans (hf.sleeps s)

theorem failing (hf : Timeless f) (e : Failure) :
    Timeless fun s => { session := (f s).session, failure := some e } where
  clock c s := by rw [hf.clock]; rfl
  sleeps s := hf.sleeps s

theorem ite (hp : ∀ c s, p (onClock c s) ↔ p s) (hf : Timeless f) (hg : Timeless g) :
    Timeless fun s => if p s then f s else g s where
  clock c s := by
    by_cases h : p s
    · rw [if_pos h, if_pos ((hp c s).2 h), hf.clock]
    · rw [if_neg h, if_neg (mt (hp c s).1 h), hg.clock]
  sleeps s := by
    by_cases h : p s
    · rw [if_pos h, hf.sleeps]
    · rw [if_neg h, hg.sleeps]

theorem branch {f g : Session τ → Session τ} (hp : ∀ c s, p (onClock c s) ↔ p s)
    (hf : Timeless fun s => { session := f s }) (hg : Timeless fun s => { session := g s }) :
    Timeless fun s => { session := if p s then f s else g s } := by
  have hite : (fun s => ({ session := if p s then f s else g s } : Outcome τ)) =
      fun s => if p s then { session := f s } else { session := g s } :=
    funext fun s => apply_ite (fun t => ({ session := t } : Outcome τ)) (p s) (f s) (g s)
  rw [hite]
  exact hf.ite hp hg

/-- What it is given may depend on the session, as far as that is not a matter of the clock. -/
theorem given {α : Type} {f : α → Session τ → Outcome τ} (hf : ∀ a, Timeless (f a))
    (look : Session τ → α) (hlook : ∀ c s, look (onClock c s) = look s) :
    Timeless fun s => f (look s) s where
  clock c s := by rw [hlook, (hf _).clock]
  sleeps s := (hf _).sleeps s

end Timeless

theorem timeless_return : Timeless fun s : Session τ => { session := s } :=
  ⟨fun _ _ => rfl, fun _ => rfl⟩

theorem timeless_log (l : Level) (text : String) :
    Timeless fun s : Session τ => { session := s.log l text } :=
  ⟨fun _ _ => rfl, fun s => sleeps_said _ _ s⟩

theorem timeless_emit {e : Event τ} (h : e.sleep? = none) :
    Timeless fun s : Session τ => { session := s.emit e } :=
  ⟨fun _ _ => rfl, sleeps_emit h⟩

/-! ### Ticks -/

theorem timeless_setTone (on : Bool) :
    Timeless fun s : Session τ => { session := s.setTone on } := by
  have hturn : Timeless fun s : Session τ => { session := { s with toneOn := on } } :=
    ⟨fun _ _ => rfl, fun _ => rfl⟩
  have hcall (text : String) {e : Event τ} (he : e.sleep? = none) :
      Timeless fun s : Session τ => { session := (s.log .debug text).emit e } :=
    (timeless_log .debug text).andThen (timeless_emit he)
  have hsink := Timeless.branch (p := fun _ => on = true) (fun _ _ => Iff.rfl)
    (hcall "Playing audio" (e := .startTone) rfl) (hcall "Audio paused" (e := .stopTone) rfl)
  exact .branch (p := fun s => on = s.toneOn) (fun _ _ => Iff.rfl) timeless_return
    (hturn.andThen (.branch (p := fun s => (!s.hasAudio) = true) (fun _ _ => Iff.rfl)
      timeless_return hsink))

theorem timeless_updateTone : Timeless fun s : Session τ => { session := s.updateTone } :=
  .given timeless_setTone (fun s => decide (s.machine.soundTimer > 0)) fun _ _ => rfl

theorem timeless_traceStep : Timeless fun s : Session τ => { session := s.traceStep } :=
  .branch
    (p := fun s => (s.plan.trace && s.running && s.machine.pc.toNat + 1 < Memory.size) = true)
    (fun _ _ => Iff.rfl)
    (.given (timeless_log .debug) (fun s => Report.instruction s.machine.pc.toNat
      (disassemble s.machine.wordAt.toNat)) fun _ _ => rfl)
    timeless_return

theorem timeless_resume (answer : Except Failure Machine) :
    Timeless (resume (τ := τ) answer) := by
  cases answer with
  | error f => exact ⟨fun _ _ => rfl, fun _ => rfl⟩
  | ok m =>
    have hcheck : Timeless fun s : Session τ => ({ s with machine := m } : Session τ).check :=
      ⟨fun _ _ => rfl, fun _ => rfl⟩
    exact hcheck.andThen timeless_updateTone

theorem timeless_step : Timeless (step (τ := τ)) :=
  timeless_traceStep.andThen
    (.given timeless_resume (fun s => .ok s.machine.step) fun _ _ => rfl)

theorem timeless_steps (n : Nat) : Timeless (steps (τ := τ) n) := by
  induction n with
  | zero => exact timeless_return
  | succ n ih => exact timeless_step.andThen ih

theorem timeless_ticks : Timeless (ticks (τ := τ)) :=
  .ite (p := fun s => s.plan.trace = true) (fun _ _ => Iff.rfl)
    (.given timeless_steps (fun s => s.plan.cyclesPerFrame) fun _ _ => rfl)
    (.given timeless_resume (fun s => s.machine.cycles? s.plan.cyclesPerFrame) fun _ _ => rfl)

/-! ### Frames -/

theorem timeless_setKeypad (flags : List Bool) : Timeless (setKeypad (τ := τ) flags) := by
  delta setKeypad
  cases Keypad.ofFlags? flags with
  | none => exact ⟨fun _ _ => rfl, fun _ => rfl⟩
  | some k => exact ⟨fun _ _ => rfl, fun _ => rfl⟩

theorem timeless_pollInput : Timeless (pollInput (τ := τ)) := by
  have hpoll (i : Input) : Timeless fun s : Session τ =>
      (({ s with input := some i.poll.2 } : Session τ).emit (.poll i.polls)).setKeypad i.poll.1 := by
    have hnext : Timeless fun s : Session τ => { session := { s with input := some i.poll.2 } } :=
      ⟨fun _ _ => rfl, fun _ => rfl⟩
    exact (hnext.andThen (timeless_emit rfl)).andThen (timeless_setKeypad _)
  refine ⟨fun c s => ?_, fun s => ?_⟩
  · have hc : (s.onClock c).input = s.input := rfl
    cases hi : s.input with
    | none =>
      simp only [pollInput, hc, hi]
      rfl
    | some i =>
      simp only [pollInput, hc, hi]
      exact (hpoll i).clock c s
  · cases hi : s.input with
    | none => simp only [pollInput, hi]
    | some i =>
      simp only [pollInput, hi]
      exact (hpoll i).sleeps s

theorem timeless_endFrame : Timeless fun s : Session τ => { session := s.endFrame } := by
  have htick : Timeless fun s : Session τ =>
      { session := { s with machine := s.machine.tickTimers } } :=
    ⟨fun _ _ => rfl, fun _ => rfl⟩
  have hcount : Timeless fun s : Session τ => { session := { s with frames := s.frames + 1 } } :=
    ⟨fun _ _ => rfl, fun _ => rfl⟩
  have hregisters : Timeless fun s : Session τ => { session := s.logRegisters } :=
    .branch (p := fun s => s.logger.isEnabled .debug = true) (fun _ _ => Iff.rfl)
      (.given (timeless_log .debug) (fun s => Report.registers s.machine) fun _ _ => rfl)
      timeless_return
  have hdraw : Timeless fun s : Session τ => { session := s.drawDisplay } :=
    .branch (p := fun s => s.hasRenderer = true) (fun _ _ => Iff.rfl)
      (.given (fun d => timeless_emit (e := .draw d) rfl) (fun s => s.machine.display)
        fun _ _ => rfl)
      timeless_return
  exact (htick.andThen timeless_updateTone).andThen (hcount.andThen (hregisters.andThen hdraw))

theorem timeless_frame : Timeless (frame (τ := τ)) :=
  timeless_pollInput.andThen (timeless_ticks.andThen timeless_endFrame)

/-! ### The end of a run -/

theorem timeless_logShutdown : Timeless fun s : Session τ => { session := s.logShutdown } :=
  ⟨fun _ _ => rfl, fun s => sleeps_said _ _ s⟩

theorem timeless_endRun (f : Option Failure) :
    Timeless fun s : Session τ => endRun { session := s, failure := f } := by
  have hquiet := timeless_setTone (τ := τ) false
  cases f with
  | none => exact hquiet.andThen timeless_logShutdown
  | some f =>
    cases f with
    | halt h => exact ((timeless_log .error (Report.halt h)).andThen hquiet).failing _
    | _ => exact hquiet.failing _

theorem endRun_onClock (c : Clock τ) (o : Outcome τ) :
    endRun (o.onClock c) = (endRun o).onClock c :=
  (timeless_endRun o.failure).clock c o.session

theorem sleeps_endRun (o : Outcome τ) : (endRun o).session.sleeps = o.session.sleeps :=
  (timeless_endRun o.failure).sleeps o.session

end Session
end Chip8
