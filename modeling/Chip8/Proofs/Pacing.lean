import Chip8.Proofs.Timeless
import Mathlib.Algebra.Order.Ring.Rat
import Mathlib.Logic.Function.Iterate
import Mathlib.Tactic.Linarith

/-! Paced runs on the clock of any host, in exact time. However long its frames and its sleeps
take, `n` frames of a run take at least `n` periods, and a frame that comes too late is not caught
up with: the periods behind it are counted from a reading of the clock. -/
namespace Chip8

/-- The clock of a host and the sleep that goes with it. What it shows never decreases, and a
sleep takes the time asked for or longer. What else takes time, such as a frame, shows in the next
reading. -/
structure Timekeeper (σ : Type) where
  now : σ → ℚ
  read : σ → ℚ × σ
  sleep : ℚ → σ → σ
  now_le_read (x : σ) : now x ≤ (read x).1
  read_le_now (x : σ) : (read x).1 ≤ now (read x).2
  add_le_sleep {d : ℚ} (hd : 0 < d) (x : σ) : now x + d ≤ now (sleep d x)

/-- A paced run between two frames: the time that the next period is counted from, the host, and
the session. -/
structure Moment (σ : Type) where
  base : ℚ
  host : σ
  session : Session ℚ

namespace Session
variable {τ : Type} {limit : Option Int} {s : Session τ}

/-- A frame is due, and it comes to its end. -/
def CompletesFrame (limit : Option Int) (s : Session τ) : Prop :=
  s.finished limit = false ∧ s.frame.failure = none

/-- How a loop ends where it does not complete a frame. -/
def ending (limit : Option Int) (s : Session τ) : Outcome τ :=
  if s.finished limit then { session := s } else s.frame

theorem timeless_ending (limit : Option Int) : Timeless (ending (τ := τ) limit) :=
  .ite (p := fun s => s.finished limit = true) (fun _ _ => Iff.rfl) timeless_return timeless_frame

theorem frames_ending (h : ¬s.CompletesFrame limit) :
    (s.ending limit).session.frames = s.frames := by
  rw [ending]
  split
  · rfl
  · next hs =>
    cases hf : s.frame.failure with
    | some f => exact frames_frame_of_failure hf
    | none => exact absurd ⟨Bool.eq_false_iff.2 hs, hf⟩ h

theorem completesFrame_onClock (c : Clock τ) :
    (s.onClock c).CompletesFrame limit ↔ s.CompletesFrame limit := by
  rw [CompletesFrame, timeless_frame.clock]
  rfl

section Loop
variable [Add τ] [Sub τ] [OfNat τ 0] [LT τ] [DecidableLT τ]
variable {fuel : Nat} {period d : τ} {c : Clock τ}

theorem frameLoop_of_completes (h : s.CompletesFrame limit) :
    frameLoop period limit true (fuel + 1) d (s.onClock c) =
      frameLoop period limit true fuel ((s.frame.session.onClock c).pace period d).1
        ((s.frame.session.onClock c).pace period d).2 := by
  obtain ⟨hs, hf⟩ := (completesFrame_onClock c).2 h
  rw [frameLoop_succ, hs, hf, timeless_frame.clock]
  rfl

theorem frameLoop_of_not (h : ¬s.CompletesFrame limit) :
    frameLoop period limit true (fuel + 1) d (s.onClock c) = (s.ending limit).onClock c := by
  rw [← (timeless_ending limit).clock, frameLoop_succ, ending]
  cases hs : (s.onClock c).finished limit with
  | true => rfl
  | false =>
    cases hf : (s.onClock c).frame.failure with
    | some f => rfl
    | none => exact absurd ((completesFrame_onClock c).1 ⟨hs, hf⟩) h

theorem pace_of_pos (h : 0 < d + period - c.read.1) :
    (s.onClock c).pace period d = (d + period,
      (s.emit (.sleep (d + period - c.read.1))).onClock
        (c.read.2.advance (d + period - c.read.1))) :=
  if_pos h

theorem pace_of_not_pos (h : ¬0 < d + period - c.read.1) :
    (s.onClock c).pace period d = (c.read.2.read.1, s.onClock c.read.2.read.2) :=
  if_neg h

end Loop
end Session

namespace Timekeeper
variable {σ : Type} (k : Timekeeper σ)

/-- The pace of a session, on the clock of the host. -/
def pace (period : ℚ) (m : Moment σ) : Moment σ :=
  let deadline := m.base + period
  let (met, host) := k.read m.host
  let delay := deadline - met
  if 0 < delay then ⟨deadline, k.sleep delay host, m.session.emit (.sleep delay)⟩
  else
    let (again, host) := k.read host
    ⟨again, host, m.session⟩

/-- A frame and the pace behind it. -/
def lap (period : ℚ) (m : Moment σ) : Moment σ :=
  k.pace period { m with session := m.session.frame.session }

/-- The loop of a paced run, lap by lap. -/
def loop (period : ℚ) (limit : Option Int) : Nat → Moment σ → Outcome ℚ × σ
  | 0, m =>
    ({ session := m.session
       failure := if m.session.finished limit then none else some .endless }, m.host)
  | fuel + 1, m =>
    if m.session.finished limit then ({ session := m.session }, m.host)
    else
      match m.session.frame.failure with
      | some _ => (m.session.frame, m.host)
      | none => loop period limit fuel (k.lap period m)

def start (x : σ) (s : Session ℚ) : Moment σ := ⟨(k.read x).1, (k.read x).2, s⟩

/-- A paced run of a session, and the host behind it. The clock of the session itself stands by. -/
def run (period : ℚ) (limit : Option Int) (x : σ) (s : Session ℚ) : Outcome ℚ × σ :=
  let (o, x) := k.loop period limit (s.frameBound limit) (k.start x s)
  (Session.endRun o, x)

/-! ### One lap -/

variable {k} {period : ℚ} {m : Moment σ}

theorem lap_of_pos (h : 0 < m.base + period - (k.read m.host).1) :
    k.lap period m = ⟨m.base + period,
      k.sleep (m.base + period - (k.read m.host).1) (k.read m.host).2,
      m.session.frame.session.emit (.sleep (m.base + period - (k.read m.host).1))⟩ :=
  if_pos h

theorem lap_of_not_pos (h : ¬0 < m.base + period - (k.read m.host).1) :
    k.lap period m = ⟨(k.read (k.read m.host).2).1, (k.read (k.read m.host).2).2,
      m.session.frame.session⟩ :=
  if_neg h

variable (k period m)

/-- Behind a lap the clock has come to where the next period is counted from. -/
theorem base_le_now_lap : (k.lap period m).base ≤ k.now (k.lap period m).host := by
  by_cases h : 0 < m.base + period - (k.read m.host).1
  · rw [lap_of_pos h]
    have hread := k.read_le_now m.host
    have hsleep := k.add_le_sleep h (k.read m.host).2
    linarith
  · rw [lap_of_not_pos h]
    exact k.read_le_now _

theorem add_le_base_lap : m.base + period ≤ (k.lap period m).base := by
  by_cases h : 0 < m.base + period - (k.read m.host).1
  · rw [lap_of_pos h]
  · rw [lap_of_not_pos h]
    calc m.base + period ≤ (k.read m.host).1 := sub_nonpos.1 (not_lt.1 h)
      _ ≤ k.now (k.read m.host).2 := k.read_le_now _
      _ ≤ (k.read (k.read m.host).2).1 := k.now_le_read _

variable {k period m}

theorem sleep_le_period (hm : m.base ≤ k.now m.host) :
    m.base + period - (k.read m.host).1 ≤ period := by
  have hread := k.now_le_read m.host
  linarith

theorem sleeps_lap_of_pos (h : 0 < m.base + period - (k.read m.host).1) :
    (k.lap period m).session.sleeps =
      m.session.sleeps ++ [m.base + period - (k.read m.host).1] := by
  rw [lap_of_pos h, Session.sleeps_emit_sleep, Session.timeless_frame.sleeps]

theorem sleeps_lap_of_not_pos (h : ¬0 < m.base + period - (k.read m.host).1) :
    (k.lap period m).session.sleeps = m.session.sleeps := by
  rw [lap_of_not_pos h, Session.timeless_frame.sleeps]

/-! ### Laps of a run -/

variable (k period)

theorem base_add_le (m : Moment σ) (j : Nat) :
    m.base + j * period ≤ ((k.lap period)^[j] m).base := by
  induction j with
  | zero => simp
  | succ j ih =>
    rw [Function.iterate_succ_apply', Nat.cast_succ]
    have hlap := k.add_le_base_lap period ((k.lap period)^[j] m)
    linarith

theorem base_le_now (x : σ) (s : Session ℚ) (n : Nat) :
    ((k.lap period)^[n] (k.start x s)).base ≤ k.now ((k.lap period)^[n] (k.start x s)).host := by
  cases n with
  | zero => exact k.read_le_now x
  | succ n =>
    rw [Function.iterate_succ_apply']
    exact k.base_le_now_lap period _

/-- From any moment of a run on, each lap takes a period at least. -/
theorem base_add_le_now (x : σ) (s : Session ℚ) (i j : Nat) :
    ((k.lap period)^[i] (k.start x s)).base + j * period ≤
      k.now ((k.lap period)^[i + j] (k.start x s)).host := by
  have hbase := k.base_add_le period ((k.lap period)^[i] (k.start x s)) j
  rw [← Function.iterate_add_apply, Nat.add_comm] at hbase
  exact hbase.trans (k.base_le_now period x s (i + j))

theorem frames_lap (m : Moment σ) :
    (k.lap period m).session.frames = m.session.frame.session.frames := by
  by_cases h : 0 < m.base + period - (k.read m.host).1
  · rw [lap_of_pos h]
    rfl
  · rw [lap_of_not_pos h]

theorem loop_of_completes {limit : Option Int} {m : Moment σ}
    (h : m.session.CompletesFrame limit) (fuel : Nat) :
    k.loop period limit (fuel + 1) m = k.loop period limit fuel (k.lap period m) := by
  rw [loop, h.1, h.2]
  rfl

theorem loop_of_not {limit : Option Int} {m : Moment σ} (h : ¬m.session.CompletesFrame limit)
    (fuel : Nat) : k.loop period limit (fuel + 1) m = (m.session.ending limit, m.host) := by
  rw [loop, Session.ending]
  cases hs : m.session.finished limit with
  | true => rfl
  | false =>
    cases hf : m.session.frame.failure with
    | some f => rfl
    | none => exact absurd ⟨hs, hf⟩ h

/-- A loop is its laps: where it ends it neither sleeps nor asks for the time. -/
theorem loop_laps (limit : Option Int) (fuel : Nat) (m : Moment σ) :
    ∃ n, (∀ i < n, ((k.lap period)^[i] m).session.CompletesFrame limit) ∧
      (k.loop period limit fuel m).1.session.frames = m.session.frames + n ∧
      (k.loop period limit fuel m).1.session.sleeps = ((k.lap period)^[n] m).session.sleeps ∧
      (k.loop period limit fuel m).2 = ((k.lap period)^[n] m).host := by
  induction fuel generalizing m with
  | zero => exact ⟨0, fun i hi => absurd hi (Nat.not_lt_zero i), rfl, rfl, rfl⟩
  | succ fuel ih =>
    by_cases hc : m.session.CompletesFrame limit
    · rw [k.loop_of_completes period hc]
      obtain ⟨n, hlaps, hframes, hsleeps, hhost⟩ := ih (k.lap period m)
      refine ⟨n + 1, Nat.forall_lt_succ_left.2 ⟨hc, hlaps⟩, ?_, hsleeps, hhost⟩
      have hlap := (k.frames_lap period m).trans (Session.frames_frame hc.2)
      exact hframes.trans (by omega)
    · rw [k.loop_of_not period hc]
      exact ⟨0, fun i hi => absurd hi (Nat.not_lt_zero i), Session.frames_ending hc,
        (Session.timeless_ending limit).sleeps m.session, rfl⟩

end Timekeeper

/-! ### Scripted clocks -/

/-- No increment of a clock is negative. -/
def Clock.Forward (c : Clock ℚ) : Prop := ∀ d ∈ c.increments, 0 ≤ d

namespace Clock
variable {c : Clock ℚ}

theorem Forward.read (h : c.Forward) :
    c.now ≤ c.read.1 ∧ c.read.1 = c.read.2.now ∧ c.read.2.Forward := by
  obtain ⟨t, ds⟩ := c
  cases ds with
  | nil => exact ⟨le_rfl, rfl, h⟩
  | cons d ds =>
    obtain ⟨hd, hds⟩ := List.forall_mem_cons.1 h
    exact ⟨le_add_of_nonneg_right hd, rfl, hds⟩

theorem read_to (t u : ℚ) (ds : List ℚ) : (⟨t, (u - t) :: ds⟩ : Clock ℚ).read = (u, ⟨u, ds⟩) := by
  simp only [Clock.read, add_sub_cancel]

theorem advance_to (t u : ℚ) (ds : List ℚ) :
    (⟨t, ds⟩ : Clock ℚ).advance (u - t) = ⟨u, ds⟩ := by
  rw [advance, add_sub_cancel]

/-- A scripted clock that goes forward. What a sleep takes too long is part of the next
increment. -/
def timekeeper : Timekeeper { c : Clock ℚ // c.Forward } where
  now c := c.1.now
  read c := (c.1.read.1, ⟨c.1.read.2, c.2.read.2.2⟩)
  sleep d c := ⟨c.1.advance d, c.2⟩
  now_le_read c := c.2.read.1
  read_le_now c := c.2.read.2.1.le
  add_le_sleep _ _ := le_rfl

end Clock

namespace Timekeeper

theorem pace_onClock (period : ℚ) (m : Moment { c : Clock ℚ // c.Forward }) :
    (m.session.frame.session.onClock m.host).pace period m.base =
      ((Clock.timekeeper.lap period m).base,
        (Clock.timekeeper.lap period m).session.onClock (Clock.timekeeper.lap period m).host) := by
  by_cases h : 0 < m.base + period - m.host.1.read.1
  · rw [Session.pace_of_pos h, lap_of_pos (k := Clock.timekeeper) h]
    rfl
  · rw [Session.pace_of_not_pos h, lap_of_not_pos (k := Clock.timekeeper) h]
    rfl

theorem frameLoop_onClock (period : ℚ) (limit : Option Int) (fuel : Nat)
    (m : Moment { c : Clock ℚ // c.Forward }) :
    Session.frameLoop period limit true fuel m.base (m.session.onClock m.host) =
      (Clock.timekeeper.loop period limit fuel m).1.onClock
        (Clock.timekeeper.loop period limit fuel m).2 := by
  induction fuel generalizing m with
  | zero => rfl
  | succ fuel ih =>
    by_cases hc : m.session.CompletesFrame limit
    · rw [Session.frameLoop_of_completes hc, loop_of_completes _ _ hc, pace_onClock]
      exact ih _
    · rw [Session.frameLoop_of_not hc, loop_of_not _ _ hc]

/-- No clock can do what a script cannot: what a sleep takes too long goes into the next
increment. -/
theorem exists_script {σ : Type} (k : Timekeeper σ) (period : ℚ) (limit : Option Int)
    (fuel : Nat) (m : Moment σ) {t : ℚ} (ht : t ≤ k.now m.host) :
    ∃ (ds : List ℚ) (c : Clock ℚ), (∀ d ∈ ds, 0 ≤ d) ∧
      Session.frameLoop period limit true fuel m.base (m.session.onClock ⟨t, ds⟩) =
        (k.loop period limit fuel m).1.onClock c := by
  induction fuel generalizing m t with
  | zero => exact ⟨[], ⟨t, []⟩, List.forall_mem_nil _, rfl⟩
  | succ fuel ih =>
    by_cases hc : m.session.CompletesFrame limit
    · -- behind the lap the script shows its base, which the host has come to or has passed
      obtain ⟨ds, c, hds, hloop⟩ := ih (k.lap period m) (k.base_le_now_lap period m)
      have hmet : t ≤ (k.read m.host).1 := ht.trans (k.now_le_read m.host)
      by_cases h : 0 < m.base + period - (k.read m.host).1
      · refine ⟨((k.read m.host).1 - t) :: ds, c,
          List.forall_mem_cons.2 ⟨sub_nonneg.2 hmet, hds⟩, ?_⟩
        rw [k.loop_of_completes period hc, ← hloop, Session.frameLoop_of_completes hc,
          Session.pace_of_pos (by rwa [Clock.read_to]), lap_of_pos h, Clock.read_to,
          Clock.advance_to]
      · refine ⟨((k.read m.host).1 - t) ::
          ((k.read (k.read m.host).2).1 - (k.read m.host).1) :: ds, c, ?_, ?_⟩
        · have hagain := (k.read_le_now m.host).trans (k.now_le_read (k.read m.host).2)
          exact List.forall_mem_cons.2
            ⟨sub_nonneg.2 hmet, List.forall_mem_cons.2 ⟨sub_nonneg.2 hagain, hds⟩⟩
        · rw [k.loop_of_completes period hc, ← hloop, Session.frameLoop_of_completes hc,
            Session.pace_of_not_pos (by rwa [Clock.read_to]), lap_of_not_pos h, Clock.read_to,
            Clock.read_to]
    · refine ⟨[], ⟨t, []⟩, List.forall_mem_nil _, ?_⟩
      rw [Session.frameLoop_of_not hc, k.loop_of_not period hc]

theorem run_onClock (period : ℚ) (limit : Option Int) (s : Session ℚ) (h : s.clock.Forward) :
    s.run period limit true =
      (Clock.timekeeper.run period limit ⟨s.clock, h⟩ s).1.onClock
        (Clock.timekeeper.run period limit ⟨s.clock, h⟩ s).2 := by
  have hl := frameLoop_onClock period limit (s.frameBound limit)
    (Clock.timekeeper.start ⟨s.clock, h⟩ s)
  exact (congrArg Session.endRun hl).trans (Session.endRun_onClock _ _)

theorem exists_script_run {σ : Type} (k : Timekeeper σ) (period : ℚ) (limit : Option Int)
    (x : σ) (s : Session ℚ) :
    ∃ script c : Clock ℚ, script.Forward ∧
      (s.onClock script).run period limit true = (k.run period limit x s).1.onClock c := by
  obtain ⟨ds, c, hds, hloop⟩ :=
    k.exists_script period limit (s.frameBound limit) (k.start x s) (k.read_le_now x)
  refine ⟨⟨k.now x, ((k.read x).1 - k.now x) :: ds⟩, c,
    List.forall_mem_cons.2 ⟨sub_nonneg.2 (k.now_le_read x), hds⟩, ?_⟩
  have hread : (s.onClock ⟨k.now x, ((k.read x).1 - k.now x) :: ds⟩).readClock =
      ((k.read x).1, s.onClock ⟨(k.read x).1, ds⟩) := by
    simp only [Session.readClock, Session.onClock, Clock.read_to]
  rw [Session.run_eq, hread]
  exact (congrArg Session.endRun hloop).trans (Session.endRun_onClock _ _)

/-- Paced runs in exact time, on any clock that never goes back and with any sleep that is never
too short. A run is its laps, one for each frame that comes to its end. A lap asks for one sleep at
most, which lasts up to the deadline and for a period at most, and `n` laps take `n` periods at
least. Behind a frame that has come too late nothing is slept, and the next period is counted from
a reading behind that frame; from there on laps take a period each again, so that the time lost is
not caught up with. These runs are those of sessions on their own, scripted clocks: each of the
latter is one of the former, and there is a script for each of the former. -/
theorem runs_keep_pace {σ : Type} (k : Timekeeper σ) (limit : Option Int) (x : σ)
    (s : Session ℚ) :
    let period : ℚ := 1 / s.plan.timerHz
    let run := k.run period limit x s
    let m : Nat → Moment σ := fun n => (k.lap period)^[n] (k.start x s)
    (∃ n, (∀ i < n, (m i).session.CompletesFrame limit) ∧
      run.1.session.frames = s.frames + n ∧
      run.1.session.sleeps = (m n).session.sleeps ∧ run.2 = (m n).host) ∧
    (∀ n : Nat, (k.read x).1 + n * period ≤ k.now (m n).host) ∧
    (∀ i : Nat,
      let met := (k.read (m i).host).1
      let delay := (m i).base + period - met
      0 < delay ∧ delay ≤ period ∧
          (m (i + 1)).session.sleeps = (m i).session.sleeps ++ [delay] ∧
          (m (i + 1)).base = (m i).base + period ∨
        delay ≤ 0 ∧ (m (i + 1)).session.sleeps = (m i).session.sleeps ∧
          (m (i + 1)).base = (k.read (k.read (m i).host).2).1 ∧
          ∀ j : Nat, (m (i + 1)).base + j * period ≤ k.now (m (i + 1 + j)).host) ∧
    (∀ h : s.clock.Forward, s.run period limit true =
      (Clock.timekeeper.run period limit ⟨s.clock, h⟩ s).1.onClock
        (Clock.timekeeper.run period limit ⟨s.clock, h⟩ s).2) ∧
    ∃ script c : Clock ℚ, script.Forward ∧
      (s.onClock script).run period limit true = run.1.onClock c := by
  intro period run m
  have hm (i : Nat) : m (i + 1) = k.lap period (m i) := Function.iterate_succ_apply' _ _ _
  refine ⟨?_, fun n => ?_, fun i => ?_, run_onClock period limit s,
    k.exists_script_run period limit x s⟩
  · obtain ⟨n, hlaps, hframes, hsleeps, hhost⟩ :=
      k.loop_laps period limit (s.frameBound limit) (k.start x s)
    have hview := Session.view_endRun (k.loop period limit (s.frameBound limit) (k.start x s)).1
    have hend : run.1.session.frames = _ := congrArg Stage.frames (Outcome.stage_of_view hview)
    exact ⟨n, hlaps, hend.trans hframes, (Session.sleeps_endRun _).trans hsleeps, hhost⟩
  · have h := k.base_add_le_now period x s 0 n
    rwa [Nat.zero_add] at h
  · intro met delay
    rw [hm i]
    by_cases h : 0 < delay
    · refine .inl ⟨h, sleep_le_period (k.base_le_now period x s i), sleeps_lap_of_pos h, ?_⟩
      rw [lap_of_pos h]
    · refine .inr ⟨not_lt.1 h, sleeps_lap_of_not_pos h, ?_, fun j => ?_⟩
      · rw [lap_of_not_pos h]
      · rw [← hm i]
        exact k.base_add_le_now period x s (i + 1) j

/-- Its second frame takes six periods. -/
def lateOnce : Session ℚ :=
  Session.create ⟨none, 1, 60, ⟨0, 0⟩, false, []⟩ false false none
    (Logger.create "" .info false false ⟨0, []⟩) ⟨0, [0, 1 / 120, 1 / 10]⟩

theorem forward_lateOnce : lateOnce.clock.Forward := by
  simp [lateOnce, Session.create, Clock.Forward]

theorem runs_keep_pace_lateOnce :
    let m : Nat → Moment _ := fun n => (Clock.timekeeper.lap (1 / 60))^[n]
      (Clock.timekeeper.start ⟨lateOnce.clock, forward_lateOnce⟩ lateOnce)
    (lateOnce.run (1 / 60) (some 3) true).session.sleeps = [1 / 120, 1 / 60] ∧
      ∀ j : Nat, 7 / 60 + j * (1 / 60) ≤ Clock.timekeeper.now (m (2 + j)).host := by
  intro m
  obtain ⟨-, -, hlaps, hown, -⟩ :=
    runs_keep_pace Clock.timekeeper (some 3) ⟨lateOnce.clock, forward_lateOnce⟩ lateOnce
  have hrun : lateOnce.run (1 / 60) (some 3) true = _ := hown forward_lateOnce
  have hbase : (m 2).base = 7 / 60 := by decide +kernel
  have hlate := (hlaps 1).resolve_left fun h => absurd h.1 (by decide +kernel)
  refine ⟨?_, fun j => ?_⟩
  · rw [hrun]
    decide +kernel
  · rw [← hbase]
    exact hlate.2.2.2 j

end Timekeeper
end Chip8
