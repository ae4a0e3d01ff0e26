import Chip8.Proofs.Limits
import Chip8.Proofs.Operations
import Mathlib.Data.List.Chain

/-! What the audio sink hears of a session: starts and stops by turns, whatever the host asks for
and however it ends. Behind what returns the tone is the sound timer's, behind a boot, a reset and
a run it is off. -/
namespace Chip8

namespace Backstage
variable {b c : Backstage}

/-- The calls to the sink are starts and stops by turns, the first a start, and the last one of
them is the tone. -/
structure InTune (b : Backstage) : Prop where
  attached : b.hasAudio = true
  turns : List.IsChain (· ≠ ·) (false :: b.tones)
  last : (false :: b.tones).getLast? = some b.toneOn

namespace InTune

theorem say (h : b.InTune) (l : Level) (texts : List String) : (b.say l texts).InTune :=
  ⟨h.attached, h.turns, h.last⟩

theorem turn (h : b.InTune) (on : Bool) : (b.turn on).InTune := by
  by_cases he : on = b.toneOn
  · rw [Backstage.turn, if_pos he]
    exact h
  · rw [Backstage.turn, if_neg he, if_pos h.attached]
    refine ⟨h.attached, ?_, ?_⟩
    · have hlast : ∀ x ∈ (false :: b.tones).getLast?, ∀ y ∈ [on].head?, x ≠ y := by
        intro x hx y hy
        rw [h.last] at hx
        obtain rfl := Option.mem_some.1 hx
        obtain rfl := Option.mem_some.1 hy
        exact Ne.symm he
      exact h.turns.append (.singleton on) hlast
    · show ((false :: b.tones) ++ [on]).getLast? = some on
      exact List.getLast?_concat

theorem plays (h : b.InTune) (hp : b.Plays c) : c.InTune := by
  induction hp with
  | refl => exact h
  | turn on _ ih => exact ih.turn on
  | shown m _ ih => exact ih.say _ _
  | registers m _ ih => exact ih.say _ _

theorem toneOn_iff (h : b.InTune) : b.toneOn = true ↔ b.tones.getLast? = some true := by
  have hl := h.last
  cases ht : b.tones with
  | nil =>
    rw [ht, List.getLast?_singleton, Option.some.injEq] at hl
    simp [← hl]
  | cons t ts =>
    rw [ht, List.getLast?_cons_cons] at hl
    rw [hl, Option.some.injEq]

end InTune
end Backstage

namespace Session
variable {τ : Type} {s : Session τ}

theorem inTune_setTone (h : s.backstage.InTune) (on : Bool) : (s.setTone on).backstage.InTune := by
  rw [backstage_setTone]
  exact h.turn on

theorem inTune_log (h : s.backstage.InTune) (l : Level) (text : String) :
    (s.log l text).backstage.InTune := by
  rw [backstage_log]
  exact h.say _ _

theorem inTune_boot (h : s.backstage.InTune) (image : List UInt8) :
    (s.boot image).session.backstage.InTune := by
  cases hm : (Machine.create s.plan.seed).load image with
  | error f =>
    rw [boot, hm]
    exact h
  | ok m =>
    rw [backstage_boot hm]
    exact (h.turn false).say _ _

theorem inTune_bootRom (h : s.backstage.InTune) (files : Files) (path : Option String) :
    (s.bootRom files path).session.backstage.InTune := by
  rw [bootRom]
  split
  · exact h
  · split
    · exact h
    · exact inTune_boot (inTune_log h _ _) _

theorem inTune_reset (h : s.backstage.InTune) : s.reset.backstage.InTune := by
  have hr (m : Machine) : ({ s with machine := m, frames := 0 } : Session τ).backstage.InTune := h
  rw [reset]
  exact inTune_log (inTune_setTone (hr _) false) _ _

theorem inTune_endRun {o : Outcome τ} (h : o.session.backstage.InTune) :
    (endRun o).session.backstage.InTune := by
  cases hf : o.failure with
  | none =>
    rw [endRun_of_none hf, backstage_logShutdown]
    exact (inTune_setTone h false).say _ _
  | some f =>
    rw [endRun_of_some hf]
    refine inTune_setTone ?_ false
    rw [logFault]
    split
    · exact inTune_log h _ _
    · exact h

theorem inTune_follow (h : s.backstage.InTune) (c : Cue) :
    (s.follow c).session.backstage.InTune :=
  h.plays (s.plays_follow c)

theorem inTune_run {s : Session Float} (h : s.backstage.InTune) (limit : Setting) (paced : Bool) :
    (s.runTimed limit paced).session.backstage.InTune := by
  rcases s.runTimed_cases limit paced with ⟨-, he⟩ | ⟨hz, f, -, he⟩ | ⟨hz, l, -, he⟩
  · rw [he]
    exact h
  · rw [he]
    exact inTune_setTone (s := s.readClock.2) h false
  · rw [he, run_eq]
    exact inTune_endRun (h.plays (plays_frameLoop _ _ _ _ _ s.readClock.2))

theorem inTune_perform (op : Operation) (s : Session Float) (h : s.backstage.InTune) :
    (s.perform op).session.backstage.InTune := by
  cases op with
  | cue c => exact inTune_follow h c
  | boot image => exact inTune_boot h image
  | bootRom files path => exact inTune_bootRom h files path
  | reset => exact inTune_reset h
  | tick => exact inTune_setTone (s := { s with machine := s.machine.tickTimers }) h _
  | run limit paced => exact inTune_run h limit paced

/-! ### The tone behind an operation -/

theorem toneOn_boot {image : List UInt8} (h : (s.boot image).failure = none) :
    (s.boot image).session.toneOn = false := by
  rw [boot] at h ⊢
  cases hm : (Machine.create s.plan.seed).load image with
  | error f =>
    rw [hm] at h
    cases h
  | ok m => exact toneOn_setTone false _

theorem toneOn_bootRom {files : Files} {path : Option String}
    (h : (s.bootRom files path).failure = none) :
    (s.bootRom files path).session.toneOn = false := by
  rw [bootRom] at h ⊢
  split at h
  · cases h
  · split at h
    · cases h
    · exact toneOn_boot h

theorem toneOn_reset (s : Session τ) : s.reset.toneOn = false :=
  toneOn_setTone false _

theorem toneOn_tickTimers (s : Session τ) : s.tickTimers.toneOn = s.tickTimers.machine.sounds := by
  rw [machine_tickTimers]
  exact toneOn_setTone _ _

theorem toneOn_step (h : s.step.failure = none) :
    s.step.session.toneOn = s.step.session.machine.sounds := by
  have hr := s.step_reaches
  rw [hr.tone h, show s.step.session.machine = s.machine.step from congrArg Stage.machine hr.stage]
  rfl

theorem toneOn_frame (h : s.frame.failure = none) :
    s.frame.session.toneOn = s.frame.session.machine.sounds := by
  cases s.lap with
  | refused f hp he =>
    rw [he, hp] at h
    cases h
  | cut f _ ht he =>
    rw [he, ht] at h
    cases h
  | ended _ _ he =>
    rw [he, toneOn_endFrame]
    exact congrArg (fun g : Stage => g.machine.sounds) (stage_endFrame _).symm

theorem toneOn_endRun (o : Outcome τ) : (endRun o).session.toneOn = false := by
  cases hf : o.failure with
  | none =>
    rw [endRun_of_none hf]
    exact toneOn_setTone false _
  | some f =>
    rw [endRun_of_some hf]
    exact toneOn_setTone false _

/-- A run turns the tone off, but not before it has its period. -/
theorem toneOn_runTimed (limit : Setting) (paced : Bool) (s : Session Float) :
    (s.runTimed limit paced).session.toneOn =
      (s.toneOn && (Double.ofNat? s.plan.timerHz).isNone) := by
  rcases s.runTimed_cases limit paced with ⟨h, he⟩ | ⟨hz, f, h, he⟩ | ⟨hz, l, h, he⟩
  · rw [he, h]
    exact (Bool.and_true _).symm
  · rw [he, h, Option.isNone_some, Bool.and_false]
    exact toneOn_setTone false _
  · rw [he, h, Option.isNone_some, Bool.and_false, run_eq]
    exact toneOn_endRun _

/-! ### The plan stays -/

theorem plan_setTone (on : Bool) (s : Session τ) : (s.setTone on).plan = s.plan :=
  congrArg Stage.plan (stage_setTone on s)

theorem plan_log (l : Level) (text : String) (s : Session τ) : (s.log l text).plan = s.plan :=
  congrArg Stage.plan (stage_log l text s)

theorem plan_boot (image : List UInt8) (s : Session τ) :
    (s.boot image).session.plan = s.plan := by
  rw [boot]
  cases (Machine.create s.plan.seed).load image with
  | error f => rfl
  | ok m => exact (congrArg Stage.plan (stage_logBoot image.length _)).trans (plan_setTone _ _)

theorem plan_bootRom (files : Files) (path : Option String) (s : Session τ) :
    (s.bootRom files path).session.plan = s.plan := by
  rw [bootRom]
  split
  · rfl
  · split
    · rfl
    · exact (plan_boot _ _).trans (plan_log _ _ _)

theorem plan_runTimed (limit : Setting) (paced : Bool) (s : Session Float) :
    (s.runTimed limit paced).session.plan = s.plan := by
  rcases s.runTimed_cases limit paced with ⟨-, he⟩ | ⟨hz, f, -, he⟩ | ⟨hz, l, -, he⟩
  · rw [he]
  · rw [he]
    exact plan_setTone _ _
  · rw [he]
    exact plan_run _ _ _ _

theorem plan_perform (op : Operation) (s : Session Float) :
    (s.perform op).session.plan = s.plan := by
  cases op with
  | cue c => exact plan_follow c s
  | boot image => exact plan_boot image s
  | bootRom files path => exact plan_bootRom files path s
  | reset => exact (plan_log _ _ _).trans (plan_setTone _ _)
  | tick => exact plan_setTone _ _
  | run limit paced => exact plan_runTimed limit paced s

/-! ### From a new session on -/

/-- Whatever is asked of a session with an audio sink, and whatever of it returns or fails: the
sink hears starts and stops by turns from a start on, and the last of them is the tone. When
something has returned the tone is the sound timer's, and off behind a boot and a reset. A run
however it ends leaves no tone, unless its period cannot be computed: then it leaves the one it
has found. -/
theorem tone_protocol (plan : Plan) (hasRenderer : Bool) (input : Option Input) (logger : Logger)
    (clock : Clock Float) (ops : List Operation) :
    let s := (create plan hasRenderer true input logger clock).performAll ops
    List.IsChain (· ≠ ·) (false :: s.tones) ∧
    (s.toneOn = true ↔ s.tones.getLast? = some true) ∧
    (∀ op ∈ [Operation.cue .step, .cue .frame, .tick], (s.perform op).failure = none →
      (s.perform op).session.toneOn =
        decide (0 < (s.perform op).session.machine.soundTimer)) ∧
    (∀ image files path, ∀ op ∈ [Operation.boot image, .bootRom files path, .reset],
      (s.perform op).failure = none → (s.perform op).session.toneOn = false) ∧
    ∀ limit paced, (s.perform (.run limit paced)).session.toneOn =
      (s.toneOn && (Double.ofNat? plan.timerHz).isNone) := by
  intro s
  have hp : s.plan = plan :=
    performAll_induction (P := fun t => t.plan = plan) (fun op t h => (plan_perform op t).trans h)
      ops _ rfl
  have ht : s.backstage.InTune :=
    performAll_induction inTune_perform ops _ ⟨rfl, .singleton false, rfl⟩
  refine ⟨ht.turns, ht.toneOn_iff, ?_, ?_, ?_⟩
  · intro op hop hf
    simp only [List.mem_cons, List.not_mem_nil, or_false] at hop
    obtain rfl | rfl | rfl := hop
    · exact toneOn_step hf
    · exact toneOn_frame hf
    · exact toneOn_tickTimers s
  · intro image files path op hop hf
    simp only [List.mem_cons, List.not_mem_nil, or_false] at hop
    obtain rfl | rfl | rfl := hop
    · exact toneOn_boot hf
    · exact toneOn_bootRom hf
    · exact toneOn_reset s
  · intro limit paced
    rw [← hp]
    exact toneOn_runTimed limit paced s

/-- The sound timer is set to 3, and the run that comes next has no period: 16 ^ 256 ticks of the
timers a second are more than a double can hold. -/
theorem tone_left_on :
    ∃ s : Session Float, ofConfig { timerHz := .number (Int.pow 16 256) } false true none false ⟨0, []⟩
        ⟨0, []⟩ = .ok s ∧
      let o := (s.performAll [.boot [0x60, 0x03, 0xF0, 0x18], .cue .step, .cue .step]).perform
        (.run (.number 1) false)
      o.failure = some .outOfRange ∧ o.session.toneOn = true ∧
        o.session.tones.getLast? = some true := by
  refine ⟨_, rfl, ?_⟩
  decide +kernel

end Session
end Chip8
