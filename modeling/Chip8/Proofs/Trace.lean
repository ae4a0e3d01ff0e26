import Chip8.Proofs.Frames
import Chip8.Proofs.Operations

/-! The trace of a session against the instructions that it executes. They are the same, line for
line, but for a word that has no room behind it to advance to: it is shown and halts the machine
instead. -/
namespace Chip8

/-- A list is not longer for parts that add nothing, and only for those. -/
theorem flatMap_append_eq_iff {α β : Type} {f g : α → List β} {l : List α} :
    (l.flatMap fun a => f a ++ g a) = l.flatMap f ↔ ∀ a ∈ l, g a = [] := by
  have hlen (l : List α) : (l.flatMap f).length ≤ (l.flatMap fun a => f a ++ g a).length := by
    induction l with
    | nil => exact le_refl _
    | cons a l ih =>
      simp only [List.flatMap_cons, List.length_append]
      omega
  induction l with
  | nil => simp
  | cons a l ih =>
    rw [List.flatMap_cons, List.flatMap_cons, List.append_assoc, List.append_cancel_left_eq,
      List.forall_mem_cons]
    constructor
    · intro h
      have hsum := congrArg List.length h
      have hl := hlen l
      rw [List.length_append] at hsum
      have ha : g a = [] := List.length_eq_zero_iff.1 (by omega)
      rw [ha, List.nil_append] at h
      exact ⟨ha, ih.1 h⟩
    · rintro ⟨ha, h⟩
      rw [ha, List.nil_append, ih.2 h]

namespace Machine
variable {m : Machine}

/-- The line of the word that a tick executes. -/
def executed (m : Machine) : Option String :=
  m.word?.map fun w => Report.instruction m.pc.toNat (disassemble w)

/-- The line of a word at the very end of memory, which is shown and not executed. -/
def stranded (m : Machine) : List String :=
  if m.status = .running ∧ m.pc = 4094 then
    [Report.instruction m.pc.toNat (disassemble m.wordAt.toNat)] else []

theorem stranded_eq_nil : m.stranded = [] ↔ (m.status = .running → m.pc ≠ 4094) := by
  rw [stranded]
  split
  · next h => simp [h]
  · next h => simpa using h

theorem shown_eq (m : Machine) : m.shown = m.executed.toList ++ m.stranded := by
  by_cases hs : m.status = .running
  · have hpc : m.pc = 4094 ↔ m.pc.toNat = 4094 := UInt16.toNat_inj.symm
    -- a trace looks at both bytes of the word, a fetch at the address behind them
    have hshown : m.pc.toNat + 1 < Memory.size ↔ m.pc.toNat ≤ 4094 := by
      simp only [Memory.size]
      omega
    rcases Nat.lt_trichotomy m.pc.toNat 4094 with hlt | heq | hgt
    · simp [shown, executed, word?, stranded, hs, hpc, hshown, hlt, hlt.le, hlt.ne,
        wordAt_toNat hlt]
    · simp [shown, executed, word?, stranded, Memory.size, hs, hpc, heq]
    · simp [shown, executed, word?, stranded, hs, hpc, hshown, hgt.not_ge, hgt.ne', hgt.not_gt]
  · simp [shown, executed, word?, stranded, hs]

/-- The word of a tick is handed to execution. A tick without one polls a key, halts at the end
of memory or does nothing. -/
theorem step_eq_execute (m : Machine) :
    m.step = match m.word?, m.status with
      | some w, _ => m.fetched.execute w
      | none, .running => m.fault .endOfMemory
      | none, .awaitingKey => m.awaitKey
      | none, .halted _ => m := by
  cases hw : m.word? with
  | some w =>
    obtain ⟨hs, hp, rfl⟩ := word?_eq_some.1 hw
    rw [step_of_running hs hp, ← wordAt_toNat hp]
    exact (execute_eq_perform m.wordAt m.fetched).symm
  | none =>
    cases hs : m.status with
    | running =>
      refine step_at_end hs (not_lt.1 fun hlt => ?_)
      rw [word?_eq_some.2 ⟨hs, hlt, rfl⟩] at hw
      cases hw
    | awaitingKey => simp only [step, hs]
    | halted f => simp only [step, hs]

end Machine

namespace Report

theorem opens_instruction (pc : Int) (text : String) : opens "0x" (instruction pc text) = true := by
  rw [instruction, String.append_assoc, String.append_assoc, opens_append]

theorem heads_traced : HeadsIn ['0'] (opens "0x") := headsIn_opens rfl

end Report

namespace Backstage
variable {b c : Backstage}

/-- The lines of the trace: no others open with an address. -/
def traced (b : Backstage) : List String := b.lines (Report.opens "0x")

theorem traced_turn (on : Bool) (b : Backstage) : (b.turn on).traced = b.traced :=
  lines_turn Report.heads_traced (by simp) on b

theorem traced_settle (m : Machine) (b : Backstage) : (b.settle m).traced = b.traced := by
  rw [settle]
  split
  · rfl
  · exact traced_turn _ b

theorem traced_hear (h : b.threshold.rank ≤ Level.debug.rank) (m : Machine) :
    (b.hear true m).traced = b.traced ++ m.shown := by
  have hshown : m.shown.filter (Report.opens "0x") = m.shown := by
    rw [Machine.shown]
    split
    · rw [List.filter_singleton, Report.opens_instruction]
      rfl
    · rfl
  rw [hear, traced_settle, if_pos rfl, traced, lines_say, if_pos h, hshown]
  rfl

theorem traced_foldl_hear (h : b.threshold.rank ≤ Level.debug.rank) (n : Nat) (m : Machine) :
    ((m.visits n).foldl (fun b m => b.hear true m) b).traced =
      b.traced ++ (m.visits n).flatMap Machine.shown := by
  induction n generalizing b m with
  | zero => exact (List.append_nil _).symm
  | succ n ih =>
    have ht : (b.hear true m).threshold = b.threshold := (Plays.hear true m b).threshold
    rw [Machine.visits, List.foldl_cons, ih (by rwa [ht]), traced_hear h, List.flatMap_cons,
      List.append_assoc]

end Backstage

namespace Session
variable {τ : Type} {s : Session τ}

def traced (s : Session τ) : List String := s.backstage.traced

/-- The machines that the ticks of a cue start from. -/
def visits (c : Cue) (s : Session τ) : List Machine :=
  match c with
  | .keys _ => []
  | .step => [s.machine]
  | .frame =>
    match s.pollInput.failure with
    | some _ => []
    | none => s.pollInput.session.machine.visits s.plan.cyclesPerFrame

def visitsAll : List Cue → Session τ → List Machine
  | [], _ => []
  | c :: cs, s => s.visits c ++ visitsAll cs (s.follow c).session

theorem traced_boot {image : List UInt8} {m : Machine}
    (h : (Machine.create s.plan.seed).load image = .ok m) :
    (s.boot image).session.traced = s.traced :=
  lines_boot Report.heads_traced (by simp) h

section Traced
variable (ht : s.plan.trace = true) (hd : s.logger.isEnabled .debug = true)
include ht hd

theorem traced_ticks :
    s.ticks.session.traced =
      s.traced ++ (s.machine.visits s.plan.cyclesPerFrame).flatMap Machine.shown := by
  have hprints : s.backstage.threshold.rank ≤ Level.debug.rank := of_decide_eq_true hd
  rw [ticks, if_pos ht, traced, backstage_steps, ht]
  exact Backstage.traced_foldl_hear hprints _ _

theorem traced_frame :
    s.frame.session.traced = s.traced ++ (s.visits .frame).flatMap Machine.shown := by
  have hplan := s.plan_pollInput.1
  have hback := s.backstage_pollInput
  have hthreshold : s.pollInput.session.logger.isEnabled .debug = s.logger.isEnabled .debug :=
    congrArg (fun b : Backstage => decide (b.threshold.rank ≤ Level.debug.rank)) hback
  have hticks := traced_ticks (s := s.pollInput.session) (by rwa [hplan]) (by rwa [hthreshold])
  rw [hplan, traced, traced, hback] at hticks
  cases s.lap with
  | refused f hp he =>
    rw [he, traced, hback, visits, hp]
    exact (List.append_nil _).symm
  | cut f hp _ he =>
    rw [he, visits, hp]
    exact hticks
  | ended hp _ he =>
    have hend : s.pollInput.session.ticks.session.endFrame.traced =
        s.pollInput.session.ticks.session.traced := by
      rw [traced, backstage_endFrame]
      exact (Backstage.lines_registers Report.heads_traced (by simp) _ _).trans
        (Backstage.traced_turn _ _)
    rw [he, visits, hp]
    exact hend.trans hticks

theorem traced_follow (c : Cue) :
    (s.follow c).session.traced = s.traced ++ (s.visits c).flatMap Machine.shown := by
  cases c with
  | keys flags =>
    rw [follow, setKeypad, visits, List.flatMap_nil, List.append_nil]
    split <;> rfl
  | step =>
    have hprints : s.backstage.threshold.rank ≤ Level.debug.rank := of_decide_eq_true hd
    rw [follow, traced, backstage_step, ht, Backstage.traced_hear hprints, visits,
      List.flatMap_singleton]
    rfl
  | frame => exact traced_frame ht hd

theorem traced_followAll (cues : List Cue) :
    (s.followAll cues).traced = s.traced ++ (s.visitsAll cues).flatMap Machine.shown := by
  induction cues generalizing s with
  | nil => exact (List.append_nil _).symm
  | cons c cs ih =>
    have hthreshold : (s.follow c).session.logger.isEnabled .debug = s.logger.isEnabled .debug :=
      congrArg (fun l : Level => decide (l.rank ≤ Level.debug.rank)) (s.plays_follow c).threshold
    rw [followAll, visitsAll, List.flatMap_append, ← List.append_assoc, ← traced_follow ht hd]
    exact ih (by rwa [plan_follow]) (by rwa [hthreshold])

end Traced

/-- A traced session that prints lines of debugging, from the boot of a program on. Its trace is
made of the instructions that its ticks hand to execution, each with its address and its word, and
of a line for a tick that finds a running machine at address 4094, which has no room to advance.
So it is the stream of executed instructions exactly if no tick does. -/
theorem trace_eq_executed_iff {c : Config} {hasRenderer hasAudio stamped : Bool}
    {input : Option Input} {wall : Clock Float} {clock : Clock τ} {s : Session τ}
    {image : List UInt8} (hs : ofConfig c hasRenderer hasAudio input stamped wall clock = .ok s)
    (ht : s.plan.trace = true) (hd : s.logger.isEnabled .debug = true)
    (hsize : image.length ≤ 3584) :
    ∃ b, s.boot image = { session := b } ∧ ∀ cues : List Cue,
      (b.followAll cues).traced =
        ((b.visitsAll cues).flatMap fun m => m.executed.toList ++ m.stranded) ∧
      ((b.followAll cues).traced = (b.visitsAll cues).filterMap Machine.executed ↔
        ∀ m ∈ b.visitsAll cues, m.status = .running → m.pc ≠ 4094) ∧
      ∀ m ∈ b.visitsAll cues, m.step = match m.word?, m.status with
        | some w, _ => m.fetched.execute w
        | none, .running => m.fault .endOfMemory
        | none, .awaitingKey => m.awaitKey
        | none, .halted _ => m := by
  obtain ⟨qs, logger, plan, -, -, -, rfl⟩ := ofConfig_eq_ok.1 hs
  obtain ⟨m, hload⟩ := Machine.load_of_length (.create plan.seed) image hsize
  obtain ⟨b, hb, hstage, -⟩ :=
    boot_of_load (s := create plan hasRenderer hasAudio input logger clock) hload
  have hback := backstage_boot (s := create plan hasRenderer hasAudio input logger clock) hload
  have htraced := traced_boot (s := create plan hasRenderer hasAudio input logger clock) hload
  rw [hb] at hback htraced
  have htb : b.plan.trace = true := by
    rwa [show b.plan = plan from congrArg Stage.plan hstage]
  have hdb : b.logger.isEnabled .debug = true := by
    have hlevel : b.logger.threshold = logger.threshold := congrArg Backstage.threshold hback
    rw [Logger.isEnabled, hlevel]
    exact hd
  refine ⟨b, hb, fun cues => ?_⟩
  have hlines : (b.followAll cues).traced =
      (b.visitsAll cues).flatMap fun m => m.executed.toList ++ m.stranded := by
    rw [traced_followAll htb hdb, show b.traced = [] from htraced, List.nil_append]
    exact congrArg (b.visitsAll cues).flatMap (funext Machine.shown_eq)
  refine ⟨hlines, ?_, fun m _ => m.step_eq_execute⟩
  rw [hlines, List.filterMap_eq_flatMap_toList, flatMap_append_eq_iff]
  exact forall₂_congr fun m _ => Machine.stranded_eq_nil

theorem trace_eq_executed_iff_jumpToSelf :
    ∃ b : Session Unit, (b.followAll [.step, .step]).traced =
      (b.visitsAll [.step, .step]).filterMap Machine.executed := by
  have hs : ofConfig (τ := Unit) { logLevel := .text "DEBUG", trace := .flag true } false false none
      false ⟨0, []⟩ ⟨(), []⟩ = .ok _ := rfl
  have hsize : ([0x12, 0x00] : List UInt8).length ≤ 3584 := by decide
  obtain ⟨b, hb, hcues⟩ := trace_eq_executed_iff hs rfl (by decide) hsize
  have hbooted : _ = b := congrArg Outcome.session hb
  refine ⟨b, (hcues [.step, .step]).2.1.2 ?_⟩
  rw [← hbooted]
  decide +kernel

/-- A jump to the last word of memory, which is shown and not executed. -/
theorem stranded_shown :
    ∃ s : Session Unit, ofConfig { logLevel := .text "DEBUG", trace := .flag true } false false none
        false ⟨0, []⟩ ⟨(), []⟩ = .ok s ∧
      let b := (s.boot [0x1F, 0xFE]).session
      (b.followAll [.step, .step]).traced = ["0x200: 1FFE JP 0xFFE", "0xFFE: 0000 ???"] ∧
        (b.visitsAll [.step, .step]).filterMap Machine.executed = ["0x200: 1FFE JP 0xFFE"] ∧
        (b.followAll [.step, .step]).machine.status = .halted .endOfMemory := by
  refine ⟨_, rfl, ?_⟩
  decide +kernel

end Session
end Chip8
