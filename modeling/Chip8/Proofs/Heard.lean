import Chip8.Proofs.Frames
import Chip8.Proofs.Laps
import Mathlib.Data.List.Chain

/-! What the audio sink hears of a frame, traced and untraced. A traced session lets it hear every
edge of the sound timer from tick to tick, an untraced one only what they have come to. -/
namespace Chip8

namespace Machine
variable {m later : Machine} {n : Nat}

/-- The edge of the sound timer from a machine to a later one that goes on. -/
def edge (m later : Machine) : List Bool :=
  if later.isFaulted ∨ later.sounds = m.sounds then [] else [later.sounds]

/-- The edges of the sound timer from tick to tick. -/
def edges : Nat → Machine → List Bool
  | 0, _ => []
  | n + 1, m => m.edge m.step ++ edges n m.step

theorem edge_of_isFaulted (h : later.isFaulted = true) : m.edge later = [] :=
  if_pos (.inl h)

theorem edge_of_eq (h : later.sounds = m.sounds) : m.edge later = [] :=
  if_pos (.inr h)

theorem edge_of_ne (h : later.isFaulted = false) (hne : later.sounds ≠ m.sounds) :
    m.edge later = [later.sounds] :=
  if_neg (not_or.2 ⟨by rw [h]; decide, hne⟩)

theorem edges_of_isFaulted (h : m.isFaulted = true) (n : Nat) : m.edges n = [] := by
  obtain ⟨f, hf⟩ := isFaulted_iff.1 h
  induction n with
  | zero => rfl
  | succ n ih => rw [edges, step_of_halted hf, edge_of_eq rfl, ih, List.nil_append]

theorem isFaulted_cycles (h : m.isFaulted = true) (n : Nat) : (m.cycles n).isFaulted = true := by
  obtain ⟨f, hf⟩ := isFaulted_iff.1 h
  rwa [cycles_of_halted hf]

theorem chain_edges (n : Nat) (m : Machine) : List.IsChain (· ≠ ·) (m.sounds :: m.edges n) := by
  induction n generalizing m with
  | zero => exact .singleton _
  | succ n ih =>
    cases hx : m.step.isFaulted with
    | true =>
      rw [edges, edge_of_isFaulted hx, edges_of_isFaulted hx]
      exact .singleton _
    | false =>
      by_cases hs : m.step.sounds = m.sounds
      · rw [edges, edge_of_eq hs, List.nil_append, ← hs]
        exact ih m.step
      · rw [edges, edge_of_ne hx hs]
        exact .cons_cons (Ne.symm hs) (ih m.step)

theorem last_edges (h : (m.cycles n).isFaulted = false) :
    (m.sounds :: m.edges n).getLast? = some (m.cycles n).sounds := by
  induction n generalizing m with
  | zero => rfl
  | succ n ih =>
    have hx : m.step.isFaulted = false := by
      by_contra hx
      rw [cycles, isFaulted_cycles (eq_true_of_ne_false hx)] at h
      cases h
    by_cases hs : m.step.sounds = m.sounds
    · rw [edges, edge_of_eq hs, List.nil_append, ← hs]
      exact ih h
    · rw [edges, edge_of_ne hx hs, List.singleton_append, List.getLast?_cons_cons]
      exact ih h

/-- What the ticks have come to is an edge at most, and none without an edge in between. -/
theorem length_edge_le (n : Nat) (m : Machine) :
    (m.edge (m.cycles n)).length ≤ (m.edges n).length := by
  cases hx : (m.cycles n).isFaulted with
  | true =>
    rw [edge_of_isFaulted hx]
    exact Nat.zero_le _
  | false =>
    by_cases hs : (m.cycles n).sounds = m.sounds
    · rw [edge_of_eq hs]
      exact Nat.zero_le _
    · rw [edge_of_ne hx hs, List.length_singleton, Nat.one_le_iff_ne_zero]
      intro h0
      have hl := last_edges hx
      rw [List.length_eq_zero_iff.1 h0, List.getLast?_singleton, Option.some.injEq] at hl
      exact hs hl.symm

theorem edge_eq_edges_iff :
    m.edges n = m.edge (m.cycles n) ↔
      (m.edges n).length ≤ if (m.cycles n).isFaulted then 0 else 1 := by
  cases hx : (m.cycles n).isFaulted with
  | true => simp [edge_of_isFaulted hx]
  | false =>
    have hl := last_edges hx
    have hc := chain_edges n m
    match he : m.edges n with
    | [] =>
      rw [he, List.getLast?_singleton, Option.some.injEq] at hl
      simp [edge_of_eq hl.symm]
    | [e] =>
      rw [he, List.getLast?_cons_cons, List.getLast?_singleton, Option.some.injEq] at hl
      rw [he, hl] at hc
      have hne : (m.cycles n).sounds ≠ m.sounds := (List.isChain_pair.1 hc).symm
      simp [edge_of_ne hx hne, hl]
    | e :: e' :: es =>
      have hle : (m.edge (m.cycles n)).length ≤ 1 := by
        rw [edge]
        split <;> simp
      constructor
      · intro h
        rw [← h] at hle
        simp at hle
      · intro h
        simp at h

end Machine

namespace Backstage
variable {b : Backstage} {m later : Machine}

/-- The tone is that of the sound timer, or of no more concern: a machine that has halted moves
neither. -/
structure Tracks (b : Backstage) (m : Machine) : Prop where
  attached : b.hasAudio = true
  level : m.isFaulted = true ∨ b.toneOn = m.sounds

namespace Tracks

theorem say (h : b.Tracks m) (l : Level) (texts : List String) : (b.say l texts).Tracks m :=
  ⟨h.attached, h.level⟩

theorem settle (h : b.Tracks m) (later : Machine)
    (hx : m.isFaulted = true → later.isFaulted = true) :
    (b.settle later).Tracks later ∧ (b.settle later).tones = b.tones ++ m.edge later := by
  cases hl : later.isFaulted with
  | true =>
    rw [Backstage.settle, if_pos hl, Machine.edge_of_isFaulted hl, List.append_nil]
    exact ⟨⟨h.attached, .inl hl⟩, rfl⟩
  | false =>
    have hlevel : b.toneOn = m.sounds := h.level.resolve_left fun hm => by
      rw [hx hm] at hl
      cases hl
    rw [Backstage.settle, if_neg (by rw [hl]; decide), turn, hlevel]
    by_cases hs : later.sounds = m.sounds
    · rw [if_pos hs, Machine.edge_of_eq hs, List.append_nil]
      exact ⟨⟨h.attached, .inr (hlevel.trans hs.symm)⟩, rfl⟩
    · rw [if_neg hs, if_pos h.attached, Machine.edge_of_ne hl hs]
      exact ⟨⟨h.attached, .inr rfl⟩, rfl⟩

theorem hear (h : b.Tracks m) (traced : Bool) :
    (b.hear traced m).Tracks m.step ∧ (b.hear traced m).tones = b.tones ++ m.edge m.step :=
  (h.say _ _).settle m.step fun hx => Machine.isFaulted_cycles (n := 1) hx

theorem foldl_hear (h : b.Tracks m) (traced : Bool) (n : Nat) :
    ((m.visits n).foldl (fun b m => b.hear traced m) b).Tracks (m.cycles n) ∧
      ((m.visits n).foldl (fun b m => b.hear traced m) b).tones = b.tones ++ m.edges n := by
  induction n generalizing b m with
  | zero => exact ⟨h, (List.append_nil _).symm⟩
  | succ n ih =>
    obtain ⟨hstep, htones⟩ := h.hear traced
    obtain ⟨hend, hrest⟩ := ih hstep
    rw [htones, List.append_assoc] at hrest
    exact ⟨hend, hrest⟩

end Tracks
end Backstage

namespace Machine

/-- What is heard of the ticks of a frame. -/
def heard (traced : Bool) (n : Nat) (m : Machine) : List Bool :=
  if traced then m.edges n else m.edge (m.cycles n)

end Machine

namespace Session
variable {τ : Type} {s : Session τ}

theorem tracks_ticks (h : s.backstage.Tracks s.machine) (hp : s.plan.Playable) :
    s.ticks.session.backstage.Tracks (s.machine.cycles s.plan.cyclesPerFrame) ∧
      s.ticks.session.tones =
        s.tones ++ s.machine.heard s.plan.trace s.plan.cyclesPerFrame := by
  cases ht : s.plan.trace with
  | true =>
    obtain ⟨hend, htones⟩ := h.foldl_hear s.plan.trace s.plan.cyclesPerFrame
    rw [← backstage_steps] at hend htones
    rw [tones_backstage, tones_backstage] at htones
    rw [ticks, if_pos ht, Machine.heard, if_pos rfl]
    exact ⟨hend, htones⟩
  | false =>
    have hn : ¬s.plan.trace = true := by rw [ht]; decide
    have he := s.backstage_burst
    rw [if_pos (hp.counted.resolve_left hn)] at he
    obtain ⟨hend, htones⟩ := h.settle (s.machine.cycles s.plan.cyclesPerFrame)
      fun hx => Machine.isFaulted_cycles hx _
    rw [← he] at hend htones
    rw [tones_backstage, tones_backstage] at htones
    rw [ticks, if_neg hn, Machine.heard, if_neg Bool.false_ne_true]
    exact ⟨hend, htones⟩

theorem tracks_endFrame (h : s.backstage.Tracks s.machine) (hx : s.machine.isFaulted = false) :
    s.endFrame.backstage.Tracks s.machine.tickTimers ∧
      s.endFrame.tones = s.tones ++ s.machine.edge s.machine.tickTimers := by
  -- no status shows that the timers have moved
  have hn : ¬s.machine.tickTimers.isFaulted = true := by
    rw [show s.machine.tickTimers.isFaulted = s.machine.isFaulted from rfl, hx]
    decide
  have hback : s.endFrame.backstage = (s.backstage.settle s.machine.tickTimers).say .debug
      [Report.registers s.machine.tickTimers] := by
    rw [backstage_endFrame, Backstage.settle, if_neg hn]
  obtain ⟨hend, htones⟩ := h.settle s.machine.tickTimers fun hx => hx
  rw [hback]
  exact ⟨hend.say _ _, (congrArg Backstage.tones hback).trans htones⟩

/-- Behind the ticks of a frame comes the edge of its timers, if the ticks have not halted. -/
theorem tracks_frame {i : Input} {k : Keypad} (hi : s.input = some i)
    (hk : Keypad.ofFlags? (i.script i.polls) = some k) (hp : s.plan.Playable)
    (h : s.backstage.Tracks s.machine) :
    let m := { s.machine with keypad := k }
    let ticked := m.cycles s.plan.cyclesPerFrame
    s.frame.session.backstage.Tracks s.frame.session.machine ∧
      s.frame.session.tones = s.tones ++ m.heard s.plan.trace s.plan.cyclesPerFrame ++
        ticked.edge ticked.tickTimers := by
  intro m ticked
  obtain ⟨p, hpoll, hstage⟩ := pollInput_of_flags hi hk
  have hpolled : s.pollInput.session = p := congrArg Outcome.session hpoll
  have hplan : p.plan = s.plan := congrArg Stage.plan hstage
  have hm : p.machine = m := congrArg Stage.machine hstage
  have hback : p.backstage = s.backstage := by rw [← hpolled, backstage_pollInput]
  have hreach := ticks_reaches (s := p) (by rwa [hplan])
  have hend : p.ticks.session.machine = ticked := by
    rw [show p.ticks.session.machine = p.machine.cycles p.plan.cyclesPerFrame from
      congrArg Stage.machine hreach.stage, hm, hplan]
  have hfailure : p.ticks.failure = ticked.failure? := by
    rw [hreach.failure, ← hreach.stage]
    exact congrArg Machine.failure? hend
  have hp' : p.backstage.Tracks p.machine := by
    rw [hback, hm]
    exact ⟨h.attached, h.level⟩
  obtain ⟨hticked, htones⟩ := tracks_ticks hp' (by rwa [hplan])
  rw [hplan, hm] at hticked
  rw [hplan, hm, show p.tones = s.tones from congrArg Backstage.tones hback] at htones
  cases s.lap with
  | refused f hf _ =>
    rw [hpoll] at hf
    cases hf
  | cut f _ hf he =>
    rw [hpolled] at hf he
    have hx := Machine.isFaulted_of_failure (hfailure.symm.trans hf)
    have hedge : ticked.edge ticked.tickTimers = [] := Machine.edge_of_isFaulted hx
    rw [he, hend, hedge, List.append_nil]
    exact ⟨hticked, htones⟩
  | ended _ hf he =>
    rw [hpolled] at hf he
    have hx : p.ticks.session.machine.isFaulted = false := by
      rw [hend]
      exact Machine.failure?_eq_none.1 (hfailure.symm.trans hf)
    obtain ⟨hlast, hedge⟩ := tracks_endFrame (by rwa [hend]) hx
    have hmachine : p.ticks.session.endFrame.machine = ticked.tickTimers := by
      rw [← hend]
      exact congrArg Stage.machine (stage_endFrame _)
    rw [hend] at hlast hedge
    rw [he, hmachine, ← htones]
    exact ⟨hlast, hedge⟩

/-! ### Frame after frame -/

/-- The machine of the frame after `j` frames, when its keys have been polled. -/
def polled (pads : Nat → Keypad) (j : Nat) (s : Session τ) : Machine :=
  { (s.afterFrames j).machine with keypad := pads j }

section Played
variable {pads : Nat → Keypad} {q : Option Int}

theorem tracks_afterFrames (hi : s.input = some (.ofPads pads q)) (hp : s.plan.Playable)
    (h : s.backstage.Tracks s.machine) (j : Nat) :
    (s.afterFrames j).backstage.Tracks (s.afterFrames j).machine := by
  induction j with
  | zero => exact h
  | succ j ih =>
    obtain ⟨hplan, i, hinput, hk⟩ := due_of_play (stage_afterFrames hi hp j) hi
    exact (tracks_frame hinput hk (by rwa [hplan]) ih).1

theorem tones_afterFrames_succ (hi : s.input = some (.ofPads pads q)) (hp : s.plan.Playable)
    (h : s.backstage.Tracks s.machine) (j : Nat) :
    let m := s.polled pads j
    let ticked := m.cycles s.plan.cyclesPerFrame
    (s.afterFrames (j + 1)).tones = (s.afterFrames j).tones ++
      m.heard s.plan.trace s.plan.cyclesPerFrame ++ ticked.edge ticked.tickTimers := by
  obtain ⟨hplan, i, hinput, hk⟩ := due_of_play (stage_afterFrames hi hp j) hi
  have hplan : (s.afterFrames j).plan = s.plan := hplan
  have hf := (tracks_frame hinput hk (by rwa [hplan]) (tracks_afterFrames hi hp h j)).2
  rw [hplan] at hf
  exact hf

end Played

/-- Frames with too many ticks to be counted at once are not heard without a trace. -/
theorem backstage_afterFrames_of_ge (ht : s.plan.trace = false)
    (hn : 0x80000000 ≤ s.plan.cyclesPerFrame) (j : Nat) :
    (s.afterFrames j).plan = s.plan ∧ (s.afterFrames j).backstage = s.backstage := by
  induction j with
  | zero => exact ⟨rfl, rfl⟩
  | succ j ih =>
    obtain ⟨hplan, hback⟩ := ih
    generalize hs : s.afterFrames j = r at hplan hback
    have hp := r.plan_pollInput.1.trans hplan
    have ht : r.pollInput.session.ticks =
        { session := r.pollInput.session, failure := some .outOfRange } := by
      rw [ticks, hp, if_neg (by rw [ht]; decide), burst_of_ge (by rwa [hp])]
    rw [afterFrames, hs]
    refine ⟨r.plan_frame.trans hplan, ?_⟩
    cases r.lap with
    | refused f _ he => rw [he, backstage_pollInput, hback]
    | cut f _ _ he => rw [he, ht, backstage_pollInput, hback]
    | ended _ hf _ =>
      rw [ht] at hf
      cases hf

/-! ### Two sessions from their boot on -/

/-- Two records grow by something of their own and something in common. If the second one never
grows by more, they agree as long as both have grown by the same. -/
theorem grow_eq_iff {α : Type} {a b f g e : Nat → List α} (h0 : a 0 = b 0)
    (ha : ∀ j, a (j + 1) = a j ++ f j ++ e j) (hb : ∀ j, b (j + 1) = b j ++ g j ++ e j)
    (hle : ∀ j, (g j).length ≤ (f j).length) (j : Nat) : a j = b j ↔ ∀ i < j, f i = g i := by
  have hlen (j : Nat) : (b j).length ≤ (a j).length := by
    induction j with
    | zero => rw [h0]
    | succ j ih =>
      have := hle j
      simp only [ha, hb, List.length_append]
      omega
  induction j with
  | zero => simp [h0]
  | succ j ih =>
    rw [Nat.forall_lt_succ_right, ha, hb, List.append_left_inj]
    constructor
    · intro h
      -- neither part can make up for the other, so both are as long as their counterparts
      have hsum := congrArg List.length h
      have hj := hlen j
      have hg := hle j
      rw [List.length_append, List.length_append] at hsum
      obtain ⟨hab, hfg⟩ := List.append_inj h (by omega)
      exact ⟨ih.1 hab, hfg⟩
    · rintro ⟨h, hf⟩
      rw [ih.2 h, hf]

theorem tracks_boot (plan : Plan) {image : List UInt8} {m : Machine}
    (hload : (Machine.create plan.seed).load image = .ok m) (hasRenderer : Bool)
    (input : Option Input) (logger : Logger) (clock : Clock τ) :
    ∃ b : Session τ, (create plan hasRenderer true input logger clock).boot image =
        { session := b } ∧
      b.stage = ⟨plan, hasRenderer, input, m, 0, []⟩ ∧ b.backstage.Tracks b.machine ∧
      b.tones = [] := by
  obtain ⟨b, hb, hstage, htone⟩ :=
    boot_of_load (s := create plan hasRenderer true input logger clock) hload
  have hback := backstage_boot (s := create plan hasRenderer true input logger clock) hload
  rw [hb] at hback
  refine ⟨b, hb, hstage, ⟨congrArg Backstage.hasAudio hback, .inr ?_⟩,
    congrArg Backstage.tones hback⟩
  rw [show b.machine = m from congrArg Stage.machine hstage, Machine.sounds,
    show m.soundTimer = 0 from congrArg Machine.soundTimer (Machine.load_eq hload)]
  exact htone

/-- Two sessions of a configuration, one traced and one not, from the boot of a program on. The
traced one lets the sink hear every edge of the sound timer in the ticks of a frame, and then that
of its tick of the timers. While the ticks can be counted in 32 bits the other one sounds the same
exactly as long as the sound timer has at most one edge in the ticks of a frame, and none if they
halt; with more ticks it is not heard at all. -/
theorem trace_unheard_iff {c : Config} {hasRenderer stamped : Bool} {pads : Nat → Keypad}
    {quitAfter : Option Int} {wall : Clock Float} {clock : Clock τ} {s : Session τ}
    {image : List UInt8} {on off : Setting}
    (hs : ofConfig c hasRenderer true (some (.ofPads pads quitAfter)) stamped wall clock = .ok s)
    (hsize : image.length ≤ 3584) (hon : on.isSet = true) (hoff : off.isSet = false) :
    ∃ s₁ s₂ t u,
      ofConfig { c with trace := on } hasRenderer true (some (.ofPads pads quitAfter)) stamped
        wall clock = .ok s₁ ∧
      ofConfig { c with trace := off } hasRenderer true (some (.ofPads pads quitAfter)) stamped
        wall clock = .ok s₂ ∧
      s₁.boot image = { session := t } ∧ s₂.boot image = { session := u } ∧
      let n := s.plan.cyclesPerFrame
      (∀ j, let ticked := (t.polled pads j).cycles n
        (t.afterFrames (j + 1)).tones =
          (t.afterFrames j).tones ++ (t.polled pads j).edges n ++ ticked.edge ticked.tickTimers) ∧
      (n < 0x80000000 → ∀ j, (t.afterFrames j).tones = (u.afterFrames j).tones ↔
        ∀ i < j, ((t.polled pads i).edges n).length ≤
          if ((t.polled pads i).cycles n).isFaulted then 0 else 1) ∧
      (0x80000000 ≤ n → ∀ j, (u.afterFrames j).tones = []) := by
  obtain ⟨qs, logger, plan, -, -, hplan, rfl⟩ := ofConfig_eq_ok.1 hs
  have hpos : 0 < plan.cyclesPerFrame := Plan.cyclesPerFrame_pos hplan
  obtain ⟨m, hload⟩ := Machine.load_of_length (.create plan.seed) image hsize
  obtain ⟨t, ht, htstage, httracks, httones⟩ :=
    tracks_boot { plan with trace := on.isSet } hload hasRenderer
      (some (.ofPads pads quitAfter)) logger clock
  obtain ⟨u, hu, hustage, hutracks, hutones⟩ :=
    tracks_boot { plan with trace := off.isSet } hload hasRenderer
      (some (.ofPads pads quitAfter)) logger clock
  have htplan : t.plan = { plan with trace := on.isSet } := congrArg Stage.plan htstage
  have huplan : u.plan = { plan with trace := off.isSet } := congrArg Stage.plan hustage
  have hti : t.input = some (.ofPads pads quitAfter) := congrArg Stage.input htstage
  have hui : u.input = some (.ofPads pads quitAfter) := congrArg Stage.input hustage
  have htp : t.plan.Playable := by
    rw [htplan]
    exact ⟨hpos, .inl hon⟩
  have hgrow := tones_afterFrames_succ hti htp httracks
  rw [htplan, show ({ plan with trace := on.isSet } : Plan).trace = true from hon] at hgrow
  refine ⟨_, _, t, u, ofConfig_trace hs on, ofConfig_trace hs off, ht, hu, hgrow, ?_, ?_⟩
  · intro hn j
    have hup : u.plan.Playable := by
      rw [huplan]
      exact ⟨hpos, .inr hn⟩
    have hsame (i : Nat) : u.polled pads i = t.polled pads i := by
      have hm := (afterFrames_plan (b := u) (s := t) (p := u.plan)
        (by rw [hustage, htstage, huplan]) (by rw [huplan, htplan]) hti htp hup i).1
      rw [polled, polled, hm]
    have hugrow := tones_afterFrames_succ hui hup hutracks
    rw [huplan, show ({ plan with trace := off.isSet } : Plan).trace = false from hoff] at hugrow
    simp only [hsame] at hugrow
    refine (grow_eq_iff (a := fun j => (t.afterFrames j).tones)
      (b := fun j => (u.afterFrames j).tones) (httones.trans hutones.symm) hgrow hugrow
      (fun i => Machine.length_edge_le _ _) j).trans ?_
    exact forall₂_congr fun i _ => Machine.edge_eq_edges_iff
  · intro hn j
    have hb := (backstage_afterFrames_of_ge (s := u) (by rw [huplan]; exact hoff)
      (by rw [huplan]; exact hn) j).2
    exact (congrArg Backstage.tones hb).trans hutones

/-- The sound timer is set once, so the sink hears a start from either session. -/
theorem trace_unheard_iff_setOnce :
    ∃ t u : Session Unit, (t.afterFrames 1).tones = [true] ∧ (u.afterFrames 1).tones = [true] := by
  have hs : ofConfig (τ := Unit) { cyclesPerSecond := .number 240 } false true
      (some (.ofPads (fun _ => .released) none)) false ⟨0, []⟩ ⟨(), []⟩ = .ok _ := rfl
  have hsize : ([0x60, 0x03, 0xF0, 0x18, 0x12, 0x04] : List UInt8).length ≤ 3584 := by decide
  have hon : (Setting.flag true).isSet = true := rfl
  have hoff : (Setting.flag false).isSet = false := rfl
  obtain ⟨s₁, s₂, t, u, hs₁, -, ht, -, hgrow, hiff, -⟩ :=
    trace_unheard_iff hs hsize hon hoff
  obtain rfl := Except.ok.inj hs₁
  have hbooted : _ = t := congrArg Outcome.session ht
  have htones : (t.afterFrames 1).tones = [true] := by
    rw [← hbooted]
    decide +kernel
  have hsame := (hiff (by decide) 1).2 (by rw [← hbooted]; decide +kernel)
  exact ⟨t, u, htones, hsame.symm.trans htones⟩

/-- The sound timer is set and cleared again in the four ticks of one frame. -/
theorem trace_heard :
    ∃ s₁ s₂ : Session Unit,
      ofConfig { cyclesPerSecond := .number 240, trace := .flag true } false true
        (some (.ofPads (fun _ => .released) none)) false ⟨0, []⟩ ⟨(), []⟩ = .ok s₁ ∧
      ofConfig { cyclesPerSecond := .number 240, trace := .flag false } false true
        (some (.ofPads (fun _ => .released) none)) false ⟨0, []⟩ ⟨(), []⟩ = .ok s₂ ∧
      let image := [0x60, 0x03, 0xF0, 0x18, 0x60, 0x00, 0xF0, 0x18, 0x12, 0x08]
      (s₁.boot image).failure = none ∧ (s₂.boot image).failure = none ∧
        ((s₁.boot image).session.afterFrames 1).tones = [true, false] ∧
        ((s₂.boot image).session.afterFrames 1).tones = [] := by
  refine ⟨_, _, rfl, rfl, ?_⟩
  decide +kernel

end Session
end Chip8
