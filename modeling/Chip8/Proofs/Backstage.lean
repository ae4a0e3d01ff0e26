import Chip8.Proofs.Stage

/-! The backstage of a session: its log and its tone, all that is not on the stage. A tick adds
to it the line of its word and the edge of the tone behind it, a frame one more edge and the line
of the registers. -/
namespace Chip8

namespace Event
variable {τ : Type}

/-- A call to the audio sink: a start of the tone or a stop. -/
def tone? : Event τ → Option Bool
  | startTone => some true
  | stopTone => some false
  | _ => none

def message? : Event τ → Option String
  | log line => some line.message
  | _ => none

end Event

/-! ### Kinds of lines -/
namespace Report

/-- Texts are told apart by the word that they open with. -/
def opens (word text : String) : Bool := word.toList.isPrefixOf text.toList

theorem opens_append (word text : String) : opens word (word ++ text) = true := by
  simp [opens]

/-- Every text of the kind opens with one of the characters. -/
def HeadsIn (cs : List Char) (p : String → Bool) : Prop :=
  ∀ text, p text = true → ∃ c ∈ cs, text.toList.head? = some c

theorem headsIn_opens {word : String} {c : Char} (hw : word.toList.head? = some c) :
    HeadsIn [c] (opens word) := by
  intro text ht
  obtain ⟨cs, hcs⟩ := List.head?_eq_some_iff.1 hw
  rw [opens, hcs, List.isPrefixOf_iff_prefix] at ht
  obtain ⟨rest, hrest⟩ := ht
  exact ⟨c, List.mem_singleton_self c, by rw [← hrest]; rfl⟩

section Heads
variable {cs ds : List Char} {p q : String → Bool} {text : String} {c : Char}

theorem HeadsIn.or (hp : HeadsIn cs p) (hq : HeadsIn ds q) :
    HeadsIn (cs ++ ds) fun text => p text || q text := by
  intro text ht
  rcases Bool.or_eq_true_iff.1 ht with ht | ht
  · obtain ⟨c, hc, he⟩ := hp text ht
    exact ⟨c, List.mem_append_left _ hc, he⟩
  · obtain ⟨c, hc, he⟩ := hq text ht
    exact ⟨c, List.mem_append_right _ hc, he⟩

theorem HeadsIn.not_of_head (hp : HeadsIn cs p) (ht : text.toList.head? = some c) (hc : c ∉ cs) :
    p text = false := by
  rw [← Bool.not_eq_true]
  intro h
  obtain ⟨d, hd, he⟩ := hp text h
  rw [ht] at he
  exact hc (Option.some.inj he ▸ hd)

end Heads

theorem head_append {word : String} {c : Char} (hw : word.toList.head? = some c) (text : String) :
    (word ++ text).toList.head? = some c := by
  rw [String.toList_append, List.head?_append, hw, Option.some_or]

theorem head_registers (m : Machine) : (registers m).toList.head? = some 'P' := by
  delta registers
  simp only [String.append_assoc]
  exact head_append rfl _

theorem head_instruction (pc : Int) (text : String) :
    (instruction pc text).toList.head? = some '0' := by
  rw [instruction, String.append_assoc, String.append_assoc]
  exact head_append rfl _

theorem head_tone (on : Bool) :
    (if on then "Playing audio" else "Audio paused").toList.head? =
      some (if on then 'P' else 'A') := by
  cases on <;> rfl

theorem head_boot {settings : List (String × String)} {size text : String}
    (h : text ∈ boot settings size) : ∃ c ∈ ['=', 'B', ' '], text.toList.head? = some c := by
  simp only [boot, List.cons_append, List.nil_append, List.mem_cons, List.mem_append,
    List.mem_map, List.not_mem_nil, or_false] at h
  obtain rfl | rfl | ⟨⟨k, v⟩, -, rfl⟩ | rfl := h
  · exact ⟨'=', by decide, rfl⟩
  · refine ⟨'B', by decide, ?_⟩
    rw [String.append_assoc]
    exact head_append rfl _
  · refine ⟨' ', by decide, ?_⟩
    rw [String.append_assoc, String.append_assoc]
    exact head_append rfl _
  · exact ⟨'=', by decide, rfl⟩

end Report

namespace Machine

def sounds (m : Machine) : Bool := decide (0 < m.soundTimer)

/-- The line of a trace about the next tick. -/
def shown (m : Machine) : List String :=
  if m.status = .running ∧ m.pc.toNat + 1 < Memory.size then
    [Report.instruction m.pc.toNat (disassemble m.wordAt.toNat)]
  else []

/-- The machines that the next `n` ticks start from. -/
def visits : Nat → Machine → List Machine
  | 0, _ => []
  | n + 1, m => m :: visits n m.step

theorem head_shown {m : Machine} {text : String} (h : text ∈ m.shown) :
    text.toList.head? = some '0' := by
  rw [shown] at h
  split at h
  · rw [List.mem_singleton.1 h]
    exact Report.head_instruction _ _
  · cases h

theorem shown_of_isFaulted {m : Machine} (h : m.isFaulted = true) : m.shown = [] := by
  obtain ⟨f, hf⟩ := isFaulted_iff.1 h
  simp [shown, hf]

end Machine

structure Backstage where
  threshold : Level
  hasAudio : Bool
  toneOn : Bool
  tones : List Bool
  said : List String

namespace Backstage

def say (l : Level) (texts : List String) (b : Backstage) : Backstage :=
  { b with said := b.said ++ if b.threshold.rank ≤ l.rank then texts else [] }

def turn (on : Bool) (b : Backstage) : Backstage :=
  if on = b.toneOn then b
  else if b.hasAudio then
    { b.say .debug [if on then "Playing audio" else "Audio paused"] with
      toneOn := on, tones := b.tones ++ [on] }
  else { b with toneOn := on }

theorem threshold_turn (on : Bool) (b : Backstage) : (b.turn on).threshold = b.threshold := by
  rw [turn]
  split
  · rfl
  · split <;> rfl

/-- The texts of a kind. -/
def lines (p : String → Bool) (b : Backstage) : List String := b.said.filter p

section Lines
variable {p : String → Bool}

theorem lines_say (p : String → Bool) (l : Level) (texts : List String) (b : Backstage) :
    (b.say l texts).lines p =
      b.lines p ++ if b.threshold.rank ≤ l.rank then texts.filter p else [] := by
  rw [lines, say, List.filter_append]
  split <;> rfl

theorem lines_say_of_not {texts : List String} (h : ∀ t ∈ texts, p t = false) (l : Level)
    (b : Backstage) : (b.say l texts).lines p = b.lines p := by
  have hn : texts.filter p = [] := List.filter_eq_nil_iff.2 fun t ht => by simp [h t ht]
  rw [lines_say, hn, ite_self, List.append_nil]

theorem lines_turn {cs : List Char} (hp : Report.HeadsIn cs p) (hcs : ∀ c ∈ ['P', 'A'], c ∉ cs)
    (on : Bool) (b : Backstage) : (b.turn on).lines p = b.lines p := by
  have hs :
      (b.say .debug [if on then "Playing audio" else "Audio paused"]).lines p = b.lines p := by
    refine lines_say_of_not (fun t ht => ?_) _ b
    rw [List.mem_singleton.1 ht]
    exact hp.not_of_head (Report.head_tone on) (hcs _ (by cases on <;> decide))
  rw [turn]
  split
  · rfl
  · split
    · exact hs
    · rfl

theorem lines_registers {cs : List Char} (hp : Report.HeadsIn cs p) (hcs : 'P' ∉ cs) (m : Machine)
    (b : Backstage) : (b.say .debug [Report.registers m]).lines p = b.lines p := by
  refine lines_say_of_not (fun t ht => ?_) _ b
  rw [List.mem_singleton.1 ht]
  exact hp.not_of_head (Report.head_registers m) hcs

end Lines

/-- The tone follows a machine that goes on. One that has halted leaves it as it is. -/
def settle (m : Machine) (b : Backstage) : Backstage :=
  if m.isFaulted then b else b.turn m.sounds

/-- A tick that starts from `m`, with the line of its word if it is traced. -/
def hear (traced : Bool) (m : Machine) (b : Backstage) : Backstage :=
  (b.say .debug (if traced then m.shown else [])).settle m.step

@[simp] theorem say_nil (l : Level) (b : Backstage) : b.say l [] = b := by
  simp [say]

theorem hear_of_isFaulted {m : Machine} (h : m.isFaulted = true) (traced : Bool) (b : Backstage) :
    b.hear traced m = b := by
  obtain ⟨f, hf⟩ := Machine.isFaulted_iff.1 h
  simp [hear, settle, Machine.shown_of_isFaulted h, Machine.step_of_halted hf, h]

theorem foldl_hear_of_isFaulted {m : Machine} (h : m.isFaulted = true) (traced : Bool) (n : Nat)
    (b : Backstage) : (m.visits n).foldl (fun b m => b.hear traced m) b = b := by
  obtain ⟨f, hf⟩ := Machine.isFaulted_iff.1 h
  induction n with
  | zero => rfl
  | succ n ih =>
    rw [Machine.visits, List.foldl_cons, hear_of_isFaulted h, Machine.step_of_halted hf, ih]

/-- All that the ticks and frames of a session can do backstage. -/
inductive Plays (b : Backstage) : Backstage → Prop where
  | refl : Plays b b
  | turn {c : Backstage} (on : Bool) (h : Plays b c) : Plays b (c.turn on)
  | shown {c : Backstage} (m : Machine) (h : Plays b c) : Plays b (c.say .debug m.shown)
  | registers {c : Backstage} (m : Machine) (h : Plays b c) :
    Plays b (c.say .debug [Report.registers m])

namespace Plays
variable {b c d : Backstage}

theorem trans (h : b.Plays c) (hd : c.Plays d) : b.Plays d := by
  induction hd with
  | refl => exact h
  | turn on _ ih => exact ih.turn on
  | shown m _ ih => exact ih.shown m
  | registers m _ ih => exact ih.registers m

theorem settle (m : Machine) (b : Backstage) : b.Plays (b.settle m) := by
  rw [Backstage.settle]
  split
  · exact refl
  · exact refl.turn _

theorem hear (traced : Bool) (m : Machine) (b : Backstage) : b.Plays (b.hear traced m) := by
  refine trans ?_ (settle _ _)
  cases traced with
  | false => simpa using refl
  | true => exact refl.shown m

theorem foldl_hear (traced : Bool) (ms : List Machine) (b : Backstage) :
    b.Plays (ms.foldl (fun b m => b.hear traced m) b) := by
  induction ms generalizing b with
  | nil => exact refl
  | cons m ms ih => exact (hear traced m b).trans (ih _)

theorem threshold (h : b.Plays c) : c.threshold = b.threshold := by
  induction h with
  | refl => rfl
  | turn on _ ih => rw [threshold_turn, ih]
  | shown m _ ih => exact ih
  | registers m _ ih => exact ih

/-- Ticks and frames say nothing of a kind that opens in another way than their lines. -/
theorem lines {p : String → Bool} {cs : List Char} (h : b.Plays c) (hp : Report.HeadsIn cs p)
    (hcs : ∀ c ∈ ['0', 'P', 'A'], c ∉ cs) : c.lines p = b.lines p := by
  induction h with
  | refl => rfl
  | turn on _ ih =>
    exact (lines_turn hp (fun c hc => hcs c (List.mem_cons_of_mem _ hc)) on _).trans ih
  | shown m _ ih =>
    have hm : ∀ t ∈ m.shown, p t = false := fun t ht =>
      hp.not_of_head (Machine.head_shown ht) (hcs '0' (by decide))
    exact (lines_say_of_not hm _ _).trans ih
  | registers m _ ih => exact (lines_registers hp (hcs 'P' (by decide)) m _).trans ih

end Plays
end Backstage

/-! ### The log -/

namespace Logger

theorem threshold_log (l : Level) (text : String) (g : Logger) :
    (g.log l text).1.threshold = g.threshold := by
  simp only [log]
  split
  · split <;> rfl
  · rfl

theorem message_log (l : Level) (text : String) (g : Logger) :
    (g.log l text).2.toList.map Line.message =
      if g.threshold.rank ≤ l.rank then [text] else [] := by
  simp only [log, isEnabled, decide_eq_true_eq]
  split
  · split <;> rfl
  · rfl

theorem threshold_logAll (l : Level) (texts : List String) (g : Logger) :
    (g.logAll l texts).1.threshold = g.threshold := by
  induction texts generalizing g with
  | nil => rfl
  | cons t ts ih => exact (ih _).trans (threshold_log l t g)

theorem message_logAll (l : Level) (texts : List String) (g : Logger) :
    (g.logAll l texts).2.map Line.message =
      if g.threshold.rank ≤ l.rank then texts else [] := by
  induction texts generalizing g with
  | nil => simp [logAll]
  | cons t ts ih =>
    rw [logAll, List.map_append, message_log, ih, threshold_log]
    split <;> rfl

end Logger

namespace Session
variable {τ : Type} {s : Session τ}

def tones (s : Session τ) : List Bool := s.events.toList.filterMap Event.tone?

def said (s : Session τ) : List String := s.events.toList.filterMap Event.message?

def backstage (s : Session τ) : Backstage :=
  ⟨s.logger.threshold, s.hasAudio, s.toneOn, s.tones, s.said⟩

theorem tones_backstage (s : Session τ) : s.backstage.tones = s.tones := rfl

theorem toList_line (line : Option Line) :
    (line.map (Event.log (τ := τ))).toArray.toList = line.toList.map Event.log := by
  cases line <;> rfl

/-- Lines that a logger of the same threshold has printed. -/
theorem backstage_printed (g : Logger) (lines : List Line) (es : Array (Event τ)) (l : Level)
    (texts : List String) (s : Session τ) (hg : g.threshold = s.logger.threshold)
    (hes : es.toList = lines.map Event.log)
    (ht : lines.map Line.message = if s.logger.threshold.rank ≤ l.rank then texts else []) :
    ({ s with logger := g, events := s.events ++ es }).backstage = s.backstage.say l texts := by
  have hm : (lines.map (Event.log (τ := τ))).filterMap Event.message? =
      lines.map Line.message := by
    rw [List.filterMap_map]
    exact congrFun List.filterMap_eq_map lines
  have hn : (lines.map (Event.log (τ := τ))).filterMap Event.tone? = [] := by
    rw [List.filterMap_map]
    exact List.filterMap_eq_nil_iff.2 fun _ _ => rfl
  rw [backstage, tones, said, Array.toList_append, List.filterMap_append, List.filterMap_append,
    hes, hm, hn, ht, List.append_nil, hg]
  rfl

theorem backstage_log (l : Level) (text : String) (s : Session τ) :
    (s.log l text).backstage = s.backstage.say l [text] :=
  backstage_printed (s.logger.log l text).1 (s.logger.log l text).2.toList _ l [text] s
    (Logger.threshold_log l text s.logger) (toList_line _) (Logger.message_log l text s.logger)

theorem backstage_logBoot (size : Nat) (s : Session τ) :
    (s.logBoot size).backstage =
      s.backstage.say .info (Report.boot s.plan.listing (toString size)) :=
  backstage_printed (s.logger.logAll .info (Report.boot s.plan.listing (toString size))).1
    (s.logger.logAll .info (Report.boot s.plan.listing (toString size))).2 _ .info _ s
    (Logger.threshold_logAll _ _ s.logger) rfl (Logger.message_logAll _ _ s.logger)

theorem backstage_emit {e : Event τ} (ht : e.tone? = none) (hm : e.message? = none)
    (s : Session τ) : (s.emit e).backstage = s.backstage := by
  simp [emit, backstage, tones, said, ht, hm]

theorem backstage_call {e : Event τ} {on : Bool} (ht : e.tone? = some on) (hm : e.message? = none)
    (s : Session τ) :
    (s.emit e).backstage = { s.backstage with tones := s.backstage.tones ++ [on] } := by
  simp [emit, backstage, tones, said, ht, hm]

theorem backstage_setTone (on : Bool) (s : Session τ) :
    (s.setTone on).backstage = s.backstage.turn on := by
  by_cases h : on = s.toneOn
  · have hb : on = s.backstage.toneOn := h
    rw [setTone, if_pos h, Backstage.turn, if_pos hb]
  have hb : ¬on = s.backstage.toneOn := h
  rw [setTone, if_neg h, Backstage.turn, if_neg hb]
  by_cases ha : s.hasAudio = true
  · have hn : ¬(!s.hasAudio) = true := by simp [ha]
    have hcall (text : String) (e : Event τ) (he : e.tone? = some on) (hm : e.message? = none) :
        ((({ s with toneOn := on }).log .debug text).emit e).backstage =
          { s.backstage.say .debug [text] with
            toneOn := on, tones := s.backstage.tones ++ [on] } := by
      rw [backstage_call he hm, backstage_log]
      rfl
    rw [if_pos (show s.backstage.hasAudio = true from ha)]
    refine (congrArg backstage (if_neg hn)).trans ?_
    cases on with
    | false => exact hcall "Audio paused" .stopTone rfl rfl
    | true => exact hcall "Playing audio" .startTone rfl rfl
  · have hn : (!s.hasAudio) = true := by simp [ha]
    rw [if_neg (show ¬s.backstage.hasAudio = true from ha)]
    exact congrArg backstage (if_pos hn)

theorem backstage_boot {image : List UInt8} {m : Machine}
    (h : (Machine.create s.plan.seed).load image = .ok m) :
    (s.boot image).session.backstage =
      (s.backstage.turn false).say .info (Report.boot s.plan.listing (toString image.length)) := by
  have hp : (({ s with machine := m, frames := 0 } : Session τ).setTone false).plan = s.plan :=
    congrArg Stage.plan (stage_setTone _ _)
  rw [boot, h]
  simp only
  rw [backstage_logBoot, backstage_setTone, hp]
  rfl

theorem lines_boot {p : String → Bool} {cs : List Char} (hp : Report.HeadsIn cs p)
    (hcs : ∀ c ∈ ['=', 'B', ' ', 'P', 'A'], c ∉ cs) {image : List UInt8} {m : Machine}
    (h : (Machine.create s.plan.seed).load image = .ok m) :
    (s.boot image).session.backstage.lines p = s.backstage.lines p := by
  have hboot : ∀ t ∈ Report.boot s.plan.listing (toString image.length), p t = false := by
    intro t ht
    obtain ⟨c, hc, he⟩ := Report.head_boot ht
    exact hp.not_of_head he (hcs c (List.mem_append_left ['P', 'A'] hc))
  rw [backstage_boot h, Backstage.lines_say_of_not hboot]
  exact Backstage.lines_turn hp (fun c hc => hcs c (List.mem_append_right ['=', 'B', ' '] hc)) _ _

/-! ### Ticks -/

theorem backstage_traceStep (s : Session τ) :
    s.traceStep.backstage =
      s.backstage.say .debug (if s.plan.trace then s.machine.shown else []) := by
  by_cases h : s.plan.trace = true ∧ s.machine.status = .running ∧
      s.machine.pc.toNat + 1 < Memory.size
  · have hs : (s.plan.trace && s.running &&
        decide (s.machine.pc.toNat + 1 < Memory.size)) = true := by
      simp [running, h.1, h.2.1, h.2.2]
    rw [traceStep, if_pos hs, backstage_log, if_pos h.1, Machine.shown, if_pos h.2]
  · have hs : ¬(s.plan.trace && s.running &&
        decide (s.machine.pc.toNat + 1 < Memory.size)) = true := by
      simpa [running, and_assoc] using h
    rw [traceStep, if_neg hs]
    cases ht : s.plan.trace with
    | false => simp
    | true =>
      have hm : ¬(s.machine.status = .running ∧ s.machine.pc.toNat + 1 < Memory.size) :=
        fun hm => h ⟨ht, hm⟩
      rw [if_pos rfl, Machine.shown, if_neg hm, Backstage.say_nil]

theorem backstage_resume (m : Machine) (s : Session τ) :
    (s.resume (.ok m)).session.backstage = s.backstage.settle m := by
  cases h : m.failure? with
  | some f =>
    simp only [resume, check, h, Outcome.andThen, Backstage.settle,
      Machine.isFaulted_of_failure h, if_true]
    rfl
  | none =>
    simp only [resume, check, h, Outcome.andThen, Backstage.settle,
      Machine.failure?_eq_none.1 h]
    exact backstage_setTone _ _

theorem backstage_step (s : Session τ) :
    s.step.session.backstage = s.backstage.hear s.plan.trace s.machine := by
  have hm : s.traceStep.machine = s.machine := congrArg Stage.machine s.stage_traceStep
  rw [step, backstage_resume, backstage_traceStep, hm]
  rfl

theorem backstage_steps (n : Nat) (s : Session τ) :
    (s.steps n).session.backstage =
      (s.machine.visits n).foldl (fun b m => b.hear s.plan.trace m) s.backstage := by
  induction n generalizing s with
  | zero => rfl
  | succ n ih =>
    have hr := s.step_reaches
    have hm : s.step.session.machine = s.machine.step := congrArg Stage.machine hr.stage
    have hp : s.step.session.plan = s.plan := congrArg Stage.plan hr.stage
    rw [steps, Machine.visits, List.foldl_cons, ← backstage_step]
    cases hf : s.step.failure with
    | none =>
      rw [← hm, ← hp]
      exact ih s.step.session
    | some f =>
      -- a halted machine is visited by the ticks that are left, and they add nothing
      have hx := Machine.isFaulted_of_failure (hr.failure.symm.trans hf)
      rw [Backstage.foldl_hear_of_isFaulted hx]

/-! ### Frames -/

theorem backstage_pollInput (s : Session τ) : s.pollInput.session.backstage = s.backstage := by
  cases hi : s.input with
  | none => simp only [pollInput, hi]
  | some i =>
    have he : (({ s with input := some i.poll.2 }).emit (.poll i.polls)).backstage = s.backstage :=
      backstage_emit rfl rfl _
    rw [← he]
    simp only [pollInput, hi, Input.poll, setKeypad]
    split <;> rfl

theorem backstage_burst (s : Session τ) :
    s.burst.session.backstage =
      if s.plan.cyclesPerFrame < 0x80000000 then
        s.backstage.settle (s.machine.cycles s.plan.cyclesPerFrame)
      else s.backstage := by
  split
  · next h => rw [burst, Machine.cycles?_of_lt h, backstage_resume]
  · next h => rw [burst_of_ge (not_lt.1 h)]

theorem plays_ticks (s : Session τ) : s.backstage.Plays s.ticks.session.backstage := by
  rw [ticks]
  split
  · rw [backstage_steps]
    exact .foldl_hear _ _ _
  · rw [backstage_burst]
    split
    · exact .settle _ _
    · exact .refl

theorem machine_tickTimers (s : Session τ) :
    s.tickTimers.machine = s.machine.tickTimers :=
  congrArg Stage.machine (stage_setTone _ _)

theorem backstage_tickTimers (s : Session τ) :
    s.tickTimers.backstage = s.backstage.turn s.machine.tickTimers.sounds :=
  backstage_setTone _ _

theorem backstage_drawDisplay (s : Session τ) : s.drawDisplay.backstage = s.backstage := by
  rw [drawDisplay]
  split
  · exact backstage_emit rfl rfl s
  · rfl

theorem backstage_logRegisters (s : Session τ) :
    s.logRegisters.backstage = s.backstage.say .debug [Report.registers s.machine] := by
  rw [logRegisters]
  split
  · exact backstage_log _ _ _
  · next h =>
    have hn : ¬s.backstage.threshold.rank ≤ Level.debug.rank := by
      simpa [Logger.isEnabled, backstage] using h
    rw [Backstage.say, if_neg hn, List.append_nil]

theorem backstage_endFrame (s : Session τ) :
    s.endFrame.backstage = (s.backstage.turn s.machine.tickTimers.sounds).say .debug
      [Report.registers s.machine.tickTimers] := by
  rw [endFrame, backstage_drawDisplay, backstage_logRegisters, ← backstage_tickTimers,
    ← machine_tickTimers]
  rfl

theorem plays_frame (s : Session τ) : s.backstage.Plays s.frame.session.backstage := by
  have hp := s.backstage_pollInput
  have ht := s.pollInput.session.plays_ticks
  rw [hp] at ht
  cases s.lap with
  | refused f hf h =>
    rw [h, hp]
    exact .refl
  | cut f hf hcut h =>
    rw [h]
    exact ht
  | ended hf hend h =>
    rw [h, backstage_endFrame]
    exact (ht.turn _).registers _

end Session
end Chip8
