import Chip8.Proofs.Limits
import Mathlib.Logic.Function.Iterate

/-! Runs without an input. Nothing is polled and nobody asks to quit, so what a run comes to is
what its frames make of the machine alone. -/
namespace Chip8

namespace Machine
variable {m : Machine} {f : Fault}

theorem frame_of_halted (h : m.status = .halted f) (n : Nat) : m.frame n = m.tickTimers := by
  rw [frame, cycles_of_halted h]

/-- The frames behind a fault move the timers alone. -/
theorem frames_of_halted (h : m.status = .halted f) (n j : Nat) :
    ((frame n)^[j] m).status = m.status ∧ ((frame n)^[j] m).pc = m.pc := by
  induction j generalizing m with
  | zero => exact ⟨rfl, rfl⟩
  | succ j ih =>
    rw [Function.iterate_succ_apply, frame_of_halted h]
    exact ih (m := m.tickTimers) h

theorem failure_frames_of_halted (h : m.status = .halted f) (n j : Nat) :
    ((frame n)^[j] m).failure? = m.failure? := by
  obtain ⟨hs, hp⟩ := frames_of_halted h n j
  rw [failure?, failure?, hs, hp]

theorem frames_wellFormed (h : m.control.WellFormed) (n j : Nat) :
    ((frame n)^[j] m).control.WellFormed := by
  induction j generalizing m with
  | zero => exact h
  | succ j ih =>
    rw [Function.iterate_succ_apply]
    exact ih (m := m.frame n) (h.cycles n)

end Machine

namespace Session
variable {τ : Type} {s : Session τ}

/-! ### A frame -/

theorem frame_of_none (hi : s.input = none) :
    s.frame = s.ticks.andThen fun s => { session := s.endFrame } := by
  have hp : s.pollInput = { session := s } := by
    simp only [pollInput, hi]
  rw [frame, hp]
  rfl

theorem frame_reaches_of_none (hi : s.input = none) (h : s.plan.Playable) :
    s.frame.Reaches
      (if s.stage.tick.machine.isFaulted then s.stage.tick else s.stage.tick.finish) := by
  rw [frame_of_none hi]
  exact rest_reaches h

theorem frame_of_failure (hi : s.input = none) (h : s.plan.Playable)
    (hf : s.frame.failure ≠ none) :
    s.frame.failure = (s.machine.cycles s.plan.cyclesPerFrame).failure? := by
  have hr := frame_reaches_of_none hi h
  split at hr
  · exact hr.failure
  · next hn =>
    rw [Bool.not_eq_true] at hn
    exact absurd (hr.failure.trans (Machine.failure?_eq_none.2 hn)) hf

theorem frame_of_success (hi : s.input = none) (h : s.plan.Playable)
    (hf : s.frame.failure = none) :
    s.frame.session.machine = s.machine.frame s.plan.cyclesPerFrame ∧
      s.frame.session.machine.isFaulted = false ∧ s.frame.session.input = none := by
  have hr := frame_reaches_of_none hi h
  split at hr
  · next hn =>
    rw [hr.failure, Machine.failure?_eq_none, hn] at hf
    cases hf
  · next hn =>
    rw [Bool.not_eq_true] at hn
    have hm : s.frame.session.machine = s.machine.frame s.plan.cyclesPerFrame :=
      congrArg Stage.machine hr.stage
    refine ⟨hm, ?_, (congrArg Stage.input hr.stage).trans hi⟩
    rw [hm]
    exact hn

theorem frame_of_none_of_ge (hi : s.input = none) (ht : s.plan.trace = false)
    (hn : 0x80000000 ≤ s.plan.cyclesPerFrame) :
    s.frame = { session := s, failure := some .outOfRange } := by
  have hticks : s.ticks = s.burst := by
    rw [ticks, if_neg (by rw [ht]; decide)]
  rw [frame_of_none hi, hticks, burst_of_ge hn]
  rfl

/-! ### A run -/

theorem not_quit_of_none (hi : s.input = none) {n : Int} :
    s.finished (some n) = decide (n ≤ s.frames) := by
  simp [finished, hi]

section Pacing
variable [Add τ] [Sub τ] [OfNat τ 0] [LT τ] [DecidableLT τ]
variable {period d : τ} {paced : Bool} {n : Int} {k : Nat} {o : Outcome τ}

/-- A loop that starts on a machine that goes on comes to the failure of the frames of the machine
alone, and without one to their machine. Frames that cannot be ticked do no harm when none is
due. -/
theorem Laps.of_none (hl : Laps period (some n) paced d s k o) (hi : s.input = none)
    (hp : n ≤ s.frames ∨ s.plan.Playable) (hm : s.machine.isFaulted = false) :
    let m := (Machine.frame s.plan.cyclesPerFrame)^[(n - s.frames).toNat] s.machine
    o.failure = m.failure? ∧ (o.failure = none → o.session.machine = m) := by
  induction hl with
  | @finished d s h =>
    rw [not_quit_of_none hi, decide_eq_true_eq] at h
    have hzero : (n - s.frames).toNat = 0 := by omega
    rw [hzero]
    exact ⟨(Machine.failure?_eq_none.2 hm).symm, fun _ => rfl⟩
  | @failed d s f h hf =>
    rw [not_quit_of_none hi, decide_eq_false_iff_not] at h
    have hplay := hp.resolve_left h
    have hne : s.frame.failure ≠ none := by rw [hf]; exact Option.some_ne_none f
    have hfail := frame_of_failure hi hplay hne
    obtain ⟨e, he⟩ := Machine.isFaulted_iff.1 (Machine.isFaulted_of_failure (hfail.symm.trans hf))
    obtain ⟨j, hj⟩ : ∃ j, (n - s.frames).toNat = j + 1 := ⟨(n - s.frames).toNat - 1, by omega⟩
    refine ⟨?_, fun hn => absurd hn hne⟩
    rw [hj, Function.iterate_succ_apply]
    -- the timers have moved once more in the frames of the machine, which no failure shows
    exact hfail.trans (Machine.failure_frames_of_halted
      (m := s.machine.frame s.plan.cyclesPerFrame) he s.plan.cyclesPerFrame j).symm
  | @next d s k o h hf hrest ih =>
    rw [not_quit_of_none hi, decide_eq_false_iff_not] at h
    have hplay := hp.resolve_left h
    obtain ⟨hmachine, hgoes, hinput⟩ := frame_of_success hi hplay hf
    have hstage := stage_interlude period paced d s.frame.session
    have hframes := (congrArg Stage.frames hstage).trans (frames_frame hf)
    have hplan := (congrArg Stage.plan hstage).trans s.plan_frame
    have hsame := congrArg Stage.machine hstage
    simp only [stage] at hframes hplan hsame
    have hj : (n - s.frames).toNat =
        (n - ((s.frame.session.interlude period paced d).2.frames : Int)).toNat + 1 := by
      rw [hframes]
      omega
    rw [hj, Function.iterate_succ_apply, ← hmachine, ← hsame, ← hplan]
    exact ih ((congrArg Stage.input hstage).trans hinput) (.inr (by rwa [hplan]))
      (by rwa [hsame])

theorem run_of_none (period : τ) (paced : Bool) (hi : s.input = none)
    (hp : n ≤ s.frames ∨ s.plan.Playable) (hm : s.machine.isFaulted = false) :
    let m := (Machine.frame s.plan.cyclesPerFrame)^[(n - s.frames).toNat] s.machine
    (s.run period (some n) paced).failure = m.failure? ∧
      ((s.run period (some n) paced).failure = none →
        (s.run period (some n) paced).session.machine = m) := by
  obtain ⟨k, o, -, hl, he⟩ := s.run_laps period n paced
  have hv := view_endRun o
  rw [he, Outcome.failure_of_view hv, show (endRun o).session.machine = o.session.machine from
    congrArg Stage.machine (Outcome.stage_of_view hv)]
  exact hl.of_none hi hp hm

/-- The first frame is refused, and the run with it. -/
theorem run_of_none_of_ge (period : τ) (paced : Bool) (hi : s.input = none)
    (hn : s.frames < n) (ht : s.plan.trace = false) (hc : 0x80000000 ≤ s.plan.cyclesPerFrame) :
    (s.run period (some n) paced).failure = some .outOfRange := by
  obtain ⟨k, o, -, hl, he⟩ := s.run_laps period n paced
  have hframe : s.readClock.2.frame.failure = some .outOfRange :=
    congrArg Outcome.failure (frame_of_none_of_ge (s := s.readClock.2) hi ht hc)
  rw [he, Outcome.failure_of_view (view_endRun o)]
  cases hl with
  | finished h =>
    rw [not_quit_of_none (s := s.readClock.2) hi, decide_eq_true_eq] at h
    exact absurd h (not_le.2 hn)
  | failed _ _ => exact hframe
  | next _ hf _ =>
    rw [hframe] at hf
    cases hf

end Pacing
end Session
end Chip8
