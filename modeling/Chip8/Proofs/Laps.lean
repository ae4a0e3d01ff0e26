import Chip8.Proofs.Backstage
import Chip8.Session.Run

/-! The loop of a run, frame by frame and without a bound on their number. What it does on the
stage depends on the stage alone and not on the pace, so that it can be left at any limit and
taken up again. -/
namespace Chip8

/-- An outcome as a look at sessions sees it. -/
def Outcome.seen {τ α : Type} (look : Session τ → α) (o : Outcome τ) : α × Option Failure :=
  (look o.session, o.failure)

/-- An outcome without its log, its tone and its clock. -/
def Outcome.view {τ : Type} (o : Outcome τ) : Stage × Option Failure :=
  (o.session.stage, o.failure)

namespace Outcome
variable {τ α : Type} {o o' : Outcome τ} {look : Session τ → α} {next next' : Session τ → Outcome τ}

theorem Reaches.view {g : Stage} (h : o.Reaches g) : o.view = (g, g.machine.failure?) := by
  rw [Outcome.view, h.stage, h.failure]

theorem session_of_seen (h : o.seen look = o'.seen look) : look o.session = look o'.session :=
  congrArg Prod.fst h

theorem failure_of_seen (h : o.seen look = o'.seen look) : o.failure = o'.failure :=
  congrArg Prod.snd h

theorem stage_of_view (h : o.view = o'.view) : o.session.stage = o'.session.stage :=
  session_of_seen h

theorem failure_of_view (h : o.view = o'.view) : o.failure = o'.failure :=
  congrArg Prod.snd h

theorem seen_andThen (h : o.seen look = o'.seen look)
    (hnext : o.failure = none → (next o.session).seen look = (next' o'.session).seen look) :
    (o.andThen next).seen look = (o'.andThen next').seen look := by
  rw [andThen, andThen, ← failure_of_seen h]
  cases hf : o.failure with
  | some f => exact h
  | none => exact hnext hf

theorem view_andThen (h : o.view = o'.view)
    (hnext : o.failure = none → (next o.session).view = (next' o'.session).view) :
    (o.andThen next).view = (o'.andThen next').view :=
  seen_andThen h hnext

end Outcome

namespace Session
variable {τ : Type} {s t : Session τ}

/-! ### Looks -/

/-- A look that tells what it will show behind each part of a frame. -/
structure Telling {α : Type} (look : Session τ → α) : Prop where
  plan {s t : Session τ} (h : look s = look t) : s.plan = t.plan
  pollInput {s t : Session τ} (h : look s = look t) :
    s.pollInput.seen look = t.pollInput.seen look
  step {s t : Session τ} (h : look s = look t) : s.step.seen look = t.step.seen look
  burst {s t : Session τ} (h : look s = look t) : s.burst.seen look = t.burst.seen look
  endFrame {s t : Session τ} (h : look s = look t) : look s.endFrame = look t.endFrame

namespace Telling
variable {α : Type} {look : Session τ → α} (ht : Telling look)
include ht

theorem steps (n : Nat) (h : look s = look t) :
    (s.steps n).seen look = (t.steps n).seen look := by
  induction n generalizing s t with
  | zero => exact congrArg (·, none) h
  | succ n ih =>
    have hs := ht.step h
    rw [Session.steps, Session.steps, ← Outcome.failure_of_seen hs]
    cases s.step.failure with
    | some f => exact hs
    | none => exact ih (Outcome.session_of_seen hs)

theorem ticks (h : look s = look t) : s.ticks.seen look = t.ticks.seen look := by
  rw [Session.ticks, Session.ticks, ht.plan h]
  split
  · exact ht.steps _ h
  · exact ht.burst h

theorem frame (h : look s = look t) : s.frame.seen look = t.frame.seen look := by
  have hp := ht.pollInput h
  have hticks := ht.ticks (Outcome.session_of_seen hp)
  exact Outcome.seen_andThen hp fun _ => Outcome.seen_andThen hticks fun _ =>
    congrArg (·, none) (ht.endFrame (Outcome.session_of_seen hticks))

end Telling

/-! ### A frame on the stage -/

theorem view_setKeypad (h : s.stage = t.stage) (flags : List Bool) :
    (s.setKeypad flags).view = (t.setKeypad flags).view := by
  rw [setKeypad, setKeypad]
  cases Keypad.ofFlags? flags with
  | none => exact congrArg (·, some (Failure.keypadLength flags.length)) h
  | some k =>
    exact congrArg (fun g : Stage => ({ g with machine := { g.machine with keypad := k } }, none)) h

theorem view_pollInput (h : s.stage = t.stage) : s.pollInput.view = t.pollInput.view := by
  have hi : s.input = t.input := congrArg Stage.input h
  cases ht : t.input with
  | none =>
    simp only [pollInput, hi, ht]
    exact congrArg (·, none) h
  | some i =>
    simp only [pollInput, hi, ht]
    refine view_setKeypad ?_ _
    rw [stage_emit rfl, stage_emit rfl]
    exact congrArg (fun g : Stage => { g with input := some i.poll.2 }) h

theorem view_step (h : s.stage = t.stage) : s.step.view = t.step.view := by
  rw [s.step_reaches.view, t.step_reaches.view]
  exact congrArg
    (fun g : Stage => ({ g with machine := g.machine.step }, g.machine.step.failure?)) h

theorem view_burst (h : s.stage = t.stage) : s.burst.view = t.burst.view := by
  have hp : s.plan = t.plan := congrArg Stage.plan h
  have hm : s.machine = t.machine := congrArg Stage.machine h
  rw [burst, burst, hp, hm]
  cases t.machine.cycles? t.plan.cyclesPerFrame with
  | error f => exact congrArg (·, some f) h
  | ok m =>
    rw [(resume_reaches m s).view, (resume_reaches m t).view, h]

theorem telling_stage : Telling (stage (τ := τ)) where
  plan h := congrArg Stage.plan h
  pollInput h := view_pollInput h
  step h := view_step h
  burst h := view_burst h
  endFrame {s t} h := by
    rw [stage_endFrame, stage_endFrame]
    exact congrArg Stage.finish h

theorem view_frame (h : s.stage = t.stage) : s.frame.view = t.frame.view :=
  telling_stage.frame h

/-- The plan stays, and a frame that comes to its end is counted. -/
theorem plan_pollInput (s : Session τ) :
    s.pollInput.session.plan = s.plan ∧ s.pollInput.session.frames = s.frames := by
  cases hi : s.input with
  | none => simp only [pollInput, hi, and_self]
  | some i =>
    simp only [pollInput, hi, setKeypad]
    split <;> exact ⟨rfl, rfl⟩

theorem plan_ticks (s : Session τ) :
    s.ticks.session.plan = s.plan ∧ s.ticks.session.frames = s.frames := by
  have hstage (o : Outcome τ) (m : Machine) (h : o.Reaches { s.stage with machine := m }) :
      o.session.plan = s.plan ∧ o.session.frames = s.frames :=
    ⟨congrArg Stage.plan h.stage, congrArg Stage.frames h.stage⟩
  rw [ticks]
  split
  · cases s.plan.cyclesPerFrame with
    | zero => exact ⟨rfl, rfl⟩
    | succ n => exact hstage _ _ (s.steps_reaches n)
  · rw [burst]
    cases s.machine.cycles? s.plan.cyclesPerFrame with
    | error f => exact ⟨rfl, rfl⟩
    | ok m => exact hstage _ _ (resume_reaches m s)

theorem plan_endFrame (s : Session τ) :
    s.endFrame.plan = s.plan ∧ s.endFrame.frames = s.frames + 1 :=
  ⟨congrArg Stage.plan s.stage_endFrame, congrArg Stage.frames s.stage_endFrame⟩

theorem plan_frame (s : Session τ) : s.frame.session.plan = s.plan := by
  have hp := s.plan_pollInput.1
  have ht := s.pollInput.session.plan_ticks.1.trans hp
  cases s.lap with
  | refused f _ h =>
    rw [h]
    exact hp
  | cut f _ _ h =>
    rw [h]
    exact ht
  | ended _ _ h =>
    rw [h]
    exact (plan_endFrame _).1.trans ht

theorem frames_frame (h : s.frame.failure = none) : s.frame.session.frames = s.frames + 1 := by
  have hp := s.plan_pollInput.2
  have ht := s.pollInput.session.plan_ticks.2
  cases s.lap with
  | refused f hf he =>
    rw [he, hf] at h
    cases h
  | cut f _ hf he =>
    rw [he, hf] at h
    cases h
  | ended _ _ he =>
    rw [he, (plan_endFrame _).2, ht, hp]

theorem frames_frame_of_failure {f : Failure} (h : s.frame.failure = some f) :
    s.frame.session.frames = s.frames := by
  have hp := s.plan_pollInput.2
  have ht := s.pollInput.session.plan_ticks.2
  cases s.lap with
  | refused _ _ he => rw [he, hp]
  | cut _ _ _ he => rw [he, ht, hp]
  | ended _ _ he =>
    rw [he] at h
    cases h

/-! ### The loop -/

theorem finished_of_stage (limit : Option Int) (h : s.stage = t.stage) :
    s.finished limit = t.finished limit := by
  have hf : s.frames = t.frames := congrArg Stage.frames h
  have hi : s.input = t.input := congrArg Stage.input h
  rw [finished, finished, hf, hi]

theorem finished_iff {n : Int} :
    s.finished (some n) = true ↔ n ≤ s.frames ∨ s.input.any Input.quitRequested = true := by
  simp [finished]

theorem not_finished_iff {n : Int} :
    s.finished (some n) = false ↔
      (s.frames : Int) < n ∧ s.input.any Input.quitRequested = false := by
  simp [finished]

theorem not_finished_later {a b : Int} (hab : a ≤ b) (h : s.finished (some a) = false) :
    s.finished (some b) = false := by
  obtain ⟨hlt, hq⟩ := not_finished_iff.1 h
  exact not_finished_iff.2 ⟨by omega, hq⟩

section Pacing
variable [Add τ] [Sub τ] [OfNat τ 0] [LT τ] [DecidableLT τ]

/-- The deadline and the session after a frame, when the next one is due. -/
def interlude (period : τ) (paced : Bool) (deadline : τ) (s : Session τ) : τ × Session τ :=
  if paced then s.pace period deadline else (deadline, s)

/-- The loop of a run from a deadline on: the frames it calls for, and its outcome. -/
inductive Laps (period : τ) (limit : Option Int) (paced : Bool) :
    τ → Session τ → Nat → Outcome τ → Prop where
  | finished {d : τ} {s : Session τ} (h : s.finished limit = true) :
    Laps period limit paced d s 0 { session := s }
  | failed {d : τ} {s : Session τ} {f : Failure} (h : s.finished limit = false)
    (hf : s.frame.failure = some f) : Laps period limit paced d s 1 s.frame
  | next {d : τ} {s : Session τ} {k : Nat} {o : Outcome τ} (h : s.finished limit = false)
    (hf : s.frame.failure = none)
    (hrest : Laps period limit paced (s.frame.session.interlude period paced d).1
      (s.frame.session.interlude period paced d).2 k o) :
    Laps period limit paced d s (k + 1) o

variable {period p q r d e u : τ} {paced pacedp pacedq pacedr : Bool} {limit : Option Int}

theorem stage_interlude (period : τ) (paced : Bool) (d : τ) (s : Session τ) :
    (s.interlude period paced d).2.stage = s.stage := by
  cases paced with
  | false => rfl
  | true =>
    simp only [interlude, pace, if_true]
    split
    · exact stage_emit rfl _
    · rfl

theorem backstage_interlude (period : τ) (paced : Bool) (d : τ) (s : Session τ) :
    (s.interlude period paced d).2.backstage = s.backstage := by
  cases paced with
  | false => rfl
  | true =>
    simp only [interlude, pace, if_true]
    split
    · exact backstage_emit rfl rfl _
    · rfl

theorem frameLoop_succ (period : τ) (limit : Option Int) (paced : Bool) (fuel : Nat) (d : τ)
    (s : Session τ) :
    frameLoop period limit paced (fuel + 1) d s =
      if s.finished limit then { session := s }
      else match s.frame.failure with
        | some _ => s.frame
        | none => frameLoop period limit paced fuel (s.frame.session.interlude period paced d).1
          (s.frame.session.interlude period paced d).2 := by
  cases paced <;> rfl

theorem plays_frameLoop (period : τ) (limit : Option Int) (paced : Bool) (fuel : Nat) (d : τ)
    (s : Session τ) :
    s.backstage.Plays (frameLoop period limit paced fuel d s).session.backstage := by
  induction fuel generalizing d s with
  | zero => exact .refl
  | succ fuel ih =>
    rw [frameLoop_succ]
    split
    · exact .refl
    · have hf := s.plays_frame
      split
      · exact hf
      · have hn := ih (s.frame.session.interlude period paced d).1
          (s.frame.session.interlude period paced d).2
        rw [backstage_interlude] at hn
        exact hf.trans hn

theorem plan_frameLoop (period : τ) (limit : Option Int) (paced : Bool) (fuel : Nat) (d : τ)
    (s : Session τ) : (frameLoop period limit paced fuel d s).session.plan = s.plan := by
  induction fuel generalizing d s with
  | zero => rfl
  | succ fuel ih =>
    rw [frameLoop_succ]
    split
    · rfl
    · split
      · exact s.plan_frame
      · exact (ih _ _).trans ((congrArg Stage.plan (stage_interlude _ _ _ _)).trans s.plan_frame)

/-- As many frames as are missing to the limit are enough. -/
theorem laps_frameLoop (period : τ) (paced : Bool) {n : Int} (fuel : Nat) (d : τ) (s : Session τ)
    (h : (n - s.frames).toNat ≤ fuel) :
    ∃ k ≤ (n - s.frames).toNat,
      Laps period (some n) paced d s k (frameLoop period (some n) paced fuel d s) := by
  induction fuel generalizing d s with
  | zero =>
    have hs : s.finished (some n) = true := finished_iff.2 (.inl (by omega))
    rw [frameLoop, if_pos hs]
    exact ⟨0, Nat.zero_le _, .finished hs⟩
  | succ fuel ih =>
    rw [frameLoop_succ]
    cases hs : s.finished (some n) with
    | true => exact ⟨0, Nat.zero_le _, .finished hs⟩
    | false =>
      obtain ⟨hlt, -⟩ := not_finished_iff.1 hs
      cases hf : s.frame.failure with
      | some f => exact ⟨1, by omega, .failed hs hf⟩
      | none =>
        have hn : (s.frame.session.interlude period paced d).2.frames = s.frames + 1 :=
          (congrArg Stage.frames (stage_interlude period paced d _)).trans (frames_frame hf)
        obtain ⟨k, hk, hl⟩ := ih (s.frame.session.interlude period paced d).1
          (s.frame.session.interlude period paced d).2 (by omega)
        exact ⟨k + 1, by omega, .next hs hf hl⟩

namespace Laps
variable {a b n : Int} {k l j : Nat} {o o' o'' : Outcome τ} {v : Session τ}

theorem finished_end (h : Laps period limit paced d s k o) (hf : o.failure = none) :
    o.session.finished limit = true := by
  induction h with
  | finished h => exact h
  | failed h hn => rw [hn] at hf; cases hf
  | next h hn _ ih => exact ih hf

theorem frames_between (h : Laps period (some n) paced d s k o) (hf : o.failure = none) :
    s.frames ≤ o.session.frames ∧ (o.session.frames : Int) ≤ max (s.frames : Int) n := by
  induction h with
  | finished h => exact ⟨le_refl _, le_max_left _ _⟩
  | failed h hn => rw [hn] at hf; cases hf
  | @next d s k o h hn _ ih =>
    obtain ⟨hlt, -⟩ := not_finished_iff.1 h
    have hs : (s.frame.session.interlude period paced d).2.frames = s.frames + 1 :=
      (congrArg Stage.frames (stage_interlude _ _ _ _)).trans (frames_frame hn)
    obtain ⟨hlo, hhi⟩ := ih hf
    rw [hs] at hlo hhi
    exact ⟨by omega, by omega⟩

/-- A loop that has not failed ends at its limit, if no request to quit has come before. -/
theorem frames_end (h : Laps period (some n) paced d s k o) (hf : o.failure = none) :
    (o.session.frames : Int) = max (s.frames : Int) n ∨
      (o.session.frames : Int) < n ∧ o.session.input.any Input.quitRequested = true := by
  obtain ⟨hlo, hhi⟩ := h.frames_between hf
  rcases finished_iff.1 (h.finished_end hf) with hn | hq
  · exact .inl (by omega)
  · by_cases hn : n ≤ o.session.frames
    · exact .inl (by omega)
    · exact .inr ⟨by omega, hq⟩

/-- Neither the pace nor anything backstage decides what a loop does on the stage. -/
theorem view_eq (h : Laps p limit pacedp d s k o) (h' : Laps q limit pacedq e t l o')
    (hst : s.stage = t.stage) : k = l ∧ o.view = o'.view := by
  induction h generalizing t e l o' with
  | finished h =>
    rw [finished_of_stage limit hst] at h
    cases h' with
    | finished => exact ⟨rfl, congrArg (·, none) hst⟩
    | failed hn => rw [h] at hn; cases hn
    | next hn => rw [h] at hn; cases hn
  | failed h hf =>
    rw [finished_of_stage limit hst] at h
    have hv := view_frame hst
    rw [Outcome.failure_of_view hv] at hf
    cases h' with
    | finished hn => rw [h] at hn; cases hn
    | failed _ _ => exact ⟨rfl, hv⟩
    | next _ hn => rw [hf] at hn; cases hn
  | next h hf hrest ih =>
    rw [finished_of_stage limit hst] at h
    have hv := view_frame hst
    rw [Outcome.failure_of_view hv] at hf
    cases h' with
    | finished hn => rw [h] at hn; cases hn
    | failed _ hn => rw [hf] at hn; cases hn
    | next _ _ hrest' =>
      have hs := Outcome.stage_of_view hv
      obtain ⟨rfl, ho⟩ := ih hrest' (by rw [stage_interlude, stage_interlude, hs])
      exact ⟨rfl, ho⟩

/-- A loop that fails before its limit fails in the same way before any later one. -/
theorem of_failure (h : Laps period (some a) paced d s k o) (hab : a ≤ b)
    (hf : o.failure ≠ none) : Laps period (some b) paced d s k o := by
  induction h with
  | finished h => exact absurd rfl hf
  | failed h hn => exact .failed (not_finished_later hab h) hn
  | next h hn _ ih => exact .next (not_finished_later hab h) hn (ih hf)

/-- A loop to a first limit and then one to a later limit do what one loop to the later limit
does. -/
theorem append (h : Laps p (some a) pacedp d s k o) (hab : a ≤ b) (hf : o.failure = none)
    (h' : Laps q (some b) pacedq e t l o') (ht : t.stage = o.session.stage)
    (h'' : Laps r (some b) pacedr u v j o'') (hv : v.stage = s.stage) :
    j = k + l ∧ o''.view = o'.view := by
  induction h generalizing u v j o'' with
  | finished h =>
    obtain ⟨rfl, ho⟩ := h''.view_eq h' (hv.trans ht.symm)
    exact ⟨(Nat.zero_add j).symm, ho⟩
  | failed h hn => rw [hn] at hf; cases hf
  | next h hn _ ih =>
    have hb := not_finished_later hab h
    rw [← finished_of_stage _ hv] at hb
    have hview := view_frame hv
    rw [← Outcome.failure_of_view hview] at hn
    cases h'' with
    | finished hc => rw [hb] at hc; cases hc
    | failed _ hc => rw [hn] at hc; cases hc
    | next _ _ hrest =>
      have hs := Outcome.stage_of_view hview
      obtain ⟨rfl, ho⟩ := ih hf ht hrest (by rw [stage_interlude, stage_interlude, hs])
      exact ⟨by omega, ho⟩

end Laps
end Pacing
end Session
end Chip8
