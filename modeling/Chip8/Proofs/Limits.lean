import Chip8.Proofs.Laps

/-! Runs to a limit. A run ends by itself and says so in one line, and two runs, the first one to
an earlier limit, do on the stage what a single run does. -/
namespace Chip8

namespace Report

/-- The last word of a run: the notice of a halt, or the number of frames. -/
def closes (text : String) : Bool := opens "Halting (" text || opens "Stopped after " text

theorem closes_halt (h : Halt) : closes (halt h) = true := by
  rw [closes, halt, halting, String.append_assoc, String.append_assoc, opens_append, Bool.true_or]

theorem closes_shutdown (frames : String) (t : Float) : closes (shutdown frames t) = true := by
  delta shutdown
  rw [closes, String.append_assoc, String.append_assoc, String.append_assoc, opens_append,
    Bool.or_true]

theorem heads_closes : HeadsIn ['H', 'S'] closes :=
  (headsIn_opens (c := 'H') rfl).or (headsIn_opens (c := 'S') rfl)

end Report

namespace Backstage

def closings (b : Backstage) : List String := b.lines Report.closes

end Backstage

namespace Session
variable {τ : Type} {s t : Session τ}

def closings (s : Session τ) : List String := s.backstage.closings

/-! ### The end of a run -/

/-- What a run does when its loop has ended. -/
def endRun (o : Outcome τ) : Outcome τ :=
  match (logFault o).failure with
  | some _ => { logFault o with session := (logFault o).session.setTone false }
  | none => { session := ((logFault o).session.setTone false).logShutdown }

theorem failure_logFault (o : Outcome τ) : (logFault o).failure = o.failure := by
  rw [logFault]
  split <;> rfl

theorem stage_logFault (o : Outcome τ) : (logFault o).session.stage = o.session.stage := by
  rw [logFault]
  split
  · exact stage_log _ _ _
  · rfl

theorem stage_logShutdown (s : Session τ) : s.logShutdown.stage = s.stage :=
  stage_said _ (picture?_line _) s

theorem backstage_logShutdown (s : Session τ) :
    s.logShutdown.backstage =
      s.backstage.say .info [Report.shutdown (toString s.frames) s.logger.elapsed.1] :=
  backstage_printed (s.logger.logShutdown (toString s.frames)).1
    (s.logger.logShutdown (toString s.frames)).2.toList _ .info _ s
    (Logger.threshold_log .info _ s.logger.elapsed.2) (toList_line _)
    (Logger.message_log .info _ s.logger.elapsed.2)

theorem endRun_of_none {o : Outcome τ} (hf : o.failure = none) :
    endRun o = { session := (o.session.setTone false).logShutdown } := by
  simp only [endRun, logFault, hf]

theorem endRun_of_some {o : Outcome τ} {f : Failure} (hf : o.failure = some f) :
    endRun o = { session := (logFault o).session.setTone false, failure := some f } := by
  simp only [endRun, failure_logFault, hf]

theorem view_endRun (o : Outcome τ) : (endRun o).view = o.view := by
  cases hf : o.failure with
  | none =>
    rw [endRun_of_none hf, Outcome.view, Outcome.view, hf, stage_logShutdown, stage_setTone]
  | some f =>
    rw [endRun_of_some hf, Outcome.view, Outcome.view, hf, stage_setTone, stage_logFault]

/-- The notice that a run ends with, as far as lines of its level are printed. -/
def notice (threshold : Level) (frames : Nat) (t : Float) : Option Failure → List String
  | none =>
    if threshold.rank ≤ Level.info.rank then [Report.shutdown (toString frames) t] else []
  | some (.halt h) => if threshold.rank ≤ Level.error.rank then [Report.halt h] else []
  | some _ => []

theorem lines_endRun {p : String → Bool} {cs : List Char} (hp : Report.HeadsIn cs p)
    (hcs : ∀ c ∈ ['P', 'A'], c ∉ cs) (o : Outcome τ) :
    ∃ t : Float, (endRun o).session.backstage.lines p = o.session.backstage.lines p ++
      (notice o.session.logger.threshold o.session.frames t o.failure).filter p := by
  have hquiet (s : Session τ) : (s.setTone false).backstage.lines p = s.backstage.lines p := by
    rw [backstage_setTone, Backstage.lines_turn hp hcs]
  cases hf : o.failure with
  | none =>
    have hframes : (o.session.setTone false).frames = o.session.frames :=
      congrArg Stage.frames (stage_setTone false o.session)
    have hlevel : (o.session.setTone false).backstage.threshold = o.session.logger.threshold := by
      rw [backstage_setTone, Backstage.threshold_turn]
      rfl
    refine ⟨(o.session.setTone false).logger.elapsed.1, ?_⟩
    rw [endRun_of_none hf, backstage_logShutdown, Backstage.lines_say, hquiet, hlevel, hframes,
      notice]
    split <;> rfl
  | some f =>
    refine ⟨0, ?_⟩
    rw [endRun_of_some hf, hquiet]
    cases f with
    | halt h =>
      simp only [logFault, hf, notice]
      rw [backstage_log, Backstage.lines_say, show o.session.backstage.threshold =
        o.session.logger.threshold from rfl]
      split <;> rfl
    | _ =>
      simp only [logFault, hf, notice, List.filter_nil, List.append_nil]

section Pacing
variable [Add τ] [Sub τ] [OfNat τ 0] [LT τ] [DecidableLT τ]

theorem run_eq (period : τ) (limit : Option Int) (paced : Bool) (s : Session τ) :
    s.run period limit paced = endRun (frameLoop period limit paced
      (s.readClock.2.frameBound limit) s.readClock.1 s.readClock.2) :=
  rfl

/-- A run to a limit is its loop, however many frames that takes, and its end. -/
theorem run_laps (period : τ) (n : Int) (paced : Bool) (s : Session τ) :
    ∃ k o, k ≤ (n - s.frames).toNat ∧
      Laps period (some n) paced s.readClock.1 s.readClock.2 k o ∧
      s.run period (some n) paced = endRun o := by
  have hb : s.readClock.2.frameBound (some n) = (n - s.frames).toNat := rfl
  obtain ⟨k, hk, hl⟩ := laps_frameLoop period paced
    (s.readClock.2.frameBound (some n)) s.readClock.1 s.readClock.2 hb.ge
  exact ⟨k, _, hk, hl, run_eq _ _ _ _⟩

theorem lines_run {p : String → Bool} {cs : List Char} (hp : Report.HeadsIn cs p)
    (hcs : ∀ c ∈ ['0', 'P', 'A'], c ∉ cs) (period : τ) (n : Int) (paced : Bool) (s : Session τ) :
    ∃ t : Float, (s.run period (some n) paced).session.backstage.lines p = s.backstage.lines p ++
      (notice s.logger.threshold (s.run period (some n) paced).session.frames t
        (s.run period (some n) paced).failure).filter p := by
  have hplays := plays_frameLoop period (some n) paced (s.readClock.2.frameBound (some n))
    s.readClock.1 s.readClock.2
  have hc := hplays.lines hp hcs
  have ht := hplays.threshold
  rw [run_eq]
  generalize frameLoop period (some n) paced (s.readClock.2.frameBound (some n)) s.readClock.1
    s.readClock.2 = o at hc ht ⊢
  have hv := view_endRun o
  have hframes : (endRun o).session.frames = o.session.frames :=
    congrArg Stage.frames (Outcome.stage_of_view hv)
  obtain ⟨t, he⟩ := lines_endRun hp (fun c hc => hcs c (List.mem_cons_of_mem _ hc)) o
  refine ⟨t, ?_⟩
  rw [he, hc, Outcome.failure_of_view hv, hframes, show o.session.logger.threshold =
    s.logger.threshold from ht]
  rfl

/-- The notices of a run to a limit: that of the fault, or the number of its frames. -/
theorem run_closings (period : τ) (n : Int) (paced : Bool) (s : Session τ) :
    ∃ t : Float, (s.run period (some n) paced).session.closings = s.closings ++
      match (s.run period (some n) paced).failure with
      | none =>
        if s.logger.isEnabled .info then
          [Report.shutdown (toString (s.run period (some n) paced).session.frames) t] else []
      | some (.halt h) => if s.logger.isEnabled .error then [Report.halt h] else []
      | some _ => [] := by
  obtain ⟨t, ht⟩ := lines_run Report.heads_closes (by simp) period n paced s
  have hone {text : String} (h : Report.closes text = true) :
      [text].filter Report.closes = [text] := by
    rw [List.filter_singleton, h]
    rfl
  refine ⟨t, ht.trans ?_⟩
  cases (s.run period (some n) paced).failure with
  | none =>
    simp only [notice, Logger.isEnabled, decide_eq_true_eq]
    split
    · rw [hone (Report.closes_shutdown _ _)]
      rfl
    · rfl
  | some f =>
    cases f with
    | halt h =>
      simp only [notice, Logger.isEnabled, decide_eq_true_eq]
      split
      · rw [hone (Report.closes_halt h)]
        rfl
      · rfl
    | _ => rfl

/-- Two runs, the first to an earlier limit, are a single run as far as the stage goes. -/
theorem view_run_andThen (p q r : τ) {a b : Int} (hab : a ≤ b) (pacedp pacedq pacedr : Bool)
    (s : Session τ) :
    ((s.run p (some a) pacedp).andThen fun t => t.run q (some b) pacedq).view =
      (s.run r (some b) pacedr).view := by
  obtain ⟨k, o, -, hl, he⟩ := s.run_laps p a pacedp
  obtain ⟨j, o'', -, hl'', he''⟩ := s.run_laps r b pacedr
  rw [he, he'', view_endRun, Outcome.andThen]
  have hv := view_endRun o
  rw [Outcome.failure_of_view hv]
  cases hf : o.failure with
  | some f =>
    have hb := hl.of_failure hab (by rw [hf]; exact Option.some_ne_none f)
    exact hv.trans (hb.view_eq hl'' rfl).2
  | none =>
    obtain ⟨l, o', -, hl', he'⟩ := (endRun o).session.run_laps q b pacedq
    have ht : (endRun o).session.readClock.2.stage = o.session.stage := Outcome.stage_of_view hv
    have hend := (hl.append hab hf hl' ht hl'' rfl).2
    rw [hend]
    exact (congrArg Outcome.view he').trans (view_endRun o')

theorem plan_run (period : τ) (limit : Option Int) (paced : Bool) (s : Session τ) :
    (s.run period limit paced).session.plan = s.plan := by
  rw [run_eq]
  exact (congrArg Stage.plan (Outcome.stage_of_view (view_endRun _))).trans
    (plan_frameLoop _ _ _ _ _ _)

theorem run_frames_end (period : τ) (n : Int) (paced : Bool) (s : Session τ)
    (hf : (s.run period (some n) paced).failure = none) :
    ((s.run period (some n) paced).session.frames : Int) = max (s.frames : Int) n ∨
      ((s.run period (some n) paced).session.frames : Int) < n ∧
        (s.run period (some n) paced).session.input.any Input.quitRequested = true := by
  obtain ⟨k, o, -, hl, he⟩ := s.run_laps period n paced
  have hv := view_endRun o
  rw [he, Outcome.failure_of_view hv] at hf
  have hs := Outcome.stage_of_view hv
  rw [he, show (endRun o).session.frames = o.session.frames from congrArg Stage.frames hs,
    show (endRun o).session.input = o.session.input from congrArg Stage.input hs]
  exact hl.frames_end hf

end Pacing

/-! ### Runs whose period is one tick of the timers -/

theorem runTimed_of_none {s : Session Float} (h : Double.ofNat? s.plan.timerHz = none)
    (limit : Setting) (paced : Bool) :
    s.runTimed limit paced = { session := s, failure := some .outOfRange } := by
  delta runTimed
  simp only [h]

theorem runTimed_number {s : Session Float} {hz : Float}
    (h : Double.ofNat? s.plan.timerHz = some hz) (n : Int) (paced : Bool) :
    s.runTimed (.number n) paced = s.run (1.0 / hz) (some n) paced := by
  delta runTimed
  simp only [h]
  rfl

/-- All that such a run can do: it has no period, its limit is no number, or it runs. -/
theorem runTimed_cases (limit : Setting) (paced : Bool) (s : Session Float) :
    (Double.ofNat? s.plan.timerHz = none ∧
      s.runTimed limit paced = { session := s, failure := some .outOfRange }) ∨
    (∃ hz f, Double.ofNat? s.plan.timerHz = some hz ∧
      s.runTimed limit paced = { session := s.readClock.2.setTone false, failure := some f }) ∨
    ∃ hz l, Double.ofNat? s.plan.timerHz = some hz ∧
      s.runTimed limit paced = s.run (1.0 / hz) l paced := by
  delta runTimed
  cases h : Double.ofNat? s.plan.timerHz with
  | none => exact .inl ⟨rfl, rfl⟩
  | some hz =>
    cases hl : limitOf limit with
    | error f => exact .inr (.inl ⟨hz, f, rfl, rfl⟩)
    | ok l => exact .inr (.inr ⟨hz, l, rfl, rfl⟩)

theorem view_runTimed_andThen {a b : Int} (hab : a ≤ b) (p q r : Bool) (s : Session Float) :
    ((s.runTimed (.number a) p).andThen fun t => t.runTimed (.number b) q).view =
      (s.runTimed (.number b) r).view := by
  cases h : Double.ofNat? s.plan.timerHz with
  | none => rw [runTimed_of_none h, runTimed_of_none h, Outcome.andThen]
  | some hz =>
    rw [runTimed_number h, runTimed_number h,
      ← view_run_andThen (1.0 / hz) (1.0 / hz) (1.0 / hz) hab p q r s]
    refine Outcome.view_andThen rfl fun _ => ?_
    -- the second run finds the plan of the first one, so its period is the same
    rw [runTimed_number (by rw [plan_run, h])]

/-- Two runs, the first to an earlier limit and the second only if that has not failed, come to
the machine, the frames, the polls, the pictures and the failure of a single run. A run to a limit
calls for at most as many frames as are missing to it. Without a failure it ends at the limit, or
before it at a request to quit. Its last word, as far as lines of its level are printed, is one
notice of the fault or one of the number of frames. -/
theorem runs_split (s : Session Float) (a b : Int) (hab : a ≤ b) (p q r : Bool) :
    (let split := (s.runTimed (.number a) p).andThen fun t => t.runTimed (.number b) q
      let whole := s.runTimed (.number b) r
      split.session.machine = whole.session.machine ∧
      split.session.frames = whole.session.frames ∧
      split.session.input.map Input.polls = whole.session.input.map Input.polls ∧
      split.session.pictures = whole.session.pictures ∧
      split.failure = whole.failure) ∧
    ∀ (n : Int) (paced : Bool),
      let o := s.runTimed (.number n) paced
      (match Double.ofNat? s.plan.timerHz with
        | none => o = { session := s, failure := some .outOfRange }
        | some hz => ∃ k loop, k ≤ (n - s.frames).toNat ∧
          Laps (1.0 / hz) (some n) paced s.readClock.1 s.readClock.2 k loop ∧ o = endRun loop) ∧
      (o.failure = none →
        (o.session.frames : Int) = max (s.frames : Int) n ∨
          (o.session.frames : Int) < n ∧ o.session.input.any Input.quitRequested = true) ∧
      ∃ t : Float, o.session.closings = s.closings ++ match o.failure with
        | none =>
          if s.logger.isEnabled .info then
            [Report.shutdown (toString o.session.frames) t] else []
        | some (.halt h) => if s.logger.isEnabled .error then [Report.halt h] else []
        | some _ => [] := by
  refine ⟨?_, fun n paced => ?_⟩
  · intro split whole
    have hv : split.view = whole.view := view_runTimed_andThen hab p q r s
    have hs := Outcome.stage_of_view hv
    exact ⟨congrArg Stage.machine hs, congrArg Stage.frames hs,
      congrArg (fun g : Stage => g.input.map Input.polls) hs, congrArg Stage.pictures hs,
      Outcome.failure_of_view hv⟩
  · cases h : Double.ofNat? s.plan.timerHz with
    | none =>
      rw [runTimed_of_none h]
      refine ⟨rfl, ?_, 0, (List.append_nil _).symm⟩
      intro hf
      cases hf
    | some hz =>
      obtain ⟨k, loop, hk, hl, he⟩ := s.run_laps (1.0 / hz) n paced
      rw [runTimed_number h]
      exact ⟨⟨k, loop, hk, hl, he⟩, s.run_frames_end _ n paced, s.run_closings _ n paced⟩

/-- Plays without a program and asks to quit after two polls. -/
def quitsAtTwo : Session Float :=
  create ⟨none, 1, 60, ⟨0, 0⟩, false, []⟩ false false
    (some { script := fun _ => List.replicate 16 false, quitAfter := some 2 })
    (Logger.create "" .info false false ⟨0, []⟩) ⟨0, []⟩

theorem runs_split_quitsAtTwo :
    ((quitsAtTwo.runTimed (.number 1) false).andThen
      fun t => t.runTimed (.number 3) false).session.frames = 2 := by
  obtain ⟨⟨-, hframes, -⟩, -⟩ := runs_split quitsAtTwo 1 3 (by decide) false false false
  refine hframes.trans ?_
  decide +kernel

end Session
end Chip8
