import Chip8.Proofs.Devices
import Chip8.Proofs.Run
import Mathlib.Logic.Function.Iterate

/-! Two cadences: as long as no word reads or sets a timer, ticks of the timers commute with ticks
of the machine, so it does not matter how the two are interleaved. -/
namespace Chip8

/-- Runs of so many ticks of the machine and so many of the timers, in any order. -/
inductive Interleaving : Nat → Nat → List Action → Prop
  | nil : Interleaving 0 0 []
  | step {n t : Nat} {as : List Action} (h : Interleaving n t as) :
      Interleaving (n + 1) t (.step :: as)
  | tick {n t : Nat} {as : List Action} (h : Interleaving n t as) :
      Interleaving n (t + 1) (.tick :: as)

theorem Interleaving.replicate (n : Nat) :
    Interleaving n 1 (List.replicate n .step ++ [.tick]) := by
  induction n with
  | zero => exact .tick .nil
  | succ n ih => exact .step ih

def Devices.tick (p : Devices) : Devices :=
  { p with
    delayTimer := if p.delayTimer > 0 then p.delayTimer - 1 else 0
    soundTimer := if p.soundTimer > 0 then p.soundTimer - 1 else 0 }

namespace Machine
variable {m : Machine} {n t : Nat} {as : List Action}

def UsesTimers (m : Machine) : Prop := m.Executes .ldVxDt ∨ m.Executes .ldDt ∨ m.Executes .ldSt

instance (m : Machine) : Decidable m.UsesTimers :=
  inferInstanceAs (Decidable (_ ∨ _ ∨ _))

theorem not_usesTimers_of_halted {f : Fault} (h : m.status = .halted f) : ¬m.UsesTimers := by
  have hidle (o : Opcode) : ¬m.Executes o := by
    intro he
    rw [he.ready.1] at h
    cases h
  simp [UsesTimers, hidle]

theorem devicesAfter_of_untimed (h : ¬m.UsesTimers) (p : Devices) :
    m.devicesAfter p = { p with rng := (m.devicesAfter p).rng } := by
  obtain ⟨-, hd, hs⟩ : _ ∧ ¬m.Executes .ldDt ∧ ¬m.Executes .ldSt := by
    simpa only [UsesTimers, not_or] using h
  rw [devicesAfter, if_neg hd, if_neg hs]

theorem step_tickTimers (h : ¬m.UsesTimers) : m.tickTimers.step = m.step.tickTimers := by
  have hsees : m.SeesSame m.devices.tick :=
    ⟨fun _ => rfl, fun hx => absurd (.inl hx) h, fun _ => rfl⟩
  refine step_attach_map Devices.tick hsees ?_
  rw [devicesAfter_of_untimed h, devicesAfter_of_untimed h m.devices]
  rfl

/-- None of the first ticks of the machine uses a timer. -/
def Untimed (n : Nat) (m : Machine) : Prop := ∀ k < n, ¬(m.cycles k).UsesTimers

theorem untimed_succ : m.Untimed (n + 1) ↔ ¬m.UsesTimers ∧ m.step.Untimed n :=
  Nat.forall_lt_succ_left

/-- The words that are executed do not depend on the timers, so the timers may tick first. -/
theorem untimed_tickTimers : m.tickTimers.Untimed n ↔ m.Untimed n := by
  induction n generalizing m with
  | zero => simp [Untimed]
  | succ n ih =>
    rw [untimed_succ, untimed_succ]
    refine and_congr_right fun hfirst => ?_
    have hm : ¬m.UsesTimers := hfirst
    rw [step_tickTimers hm]
    exact ih

theorem cycles_tickTimers (h : m.Untimed n) :
    m.tickTimers.cycles n = (m.cycles n).tickTimers := by
  induction n generalizing m with
  | zero => rfl
  | succ n ih =>
    obtain ⟨hfirst, hrest⟩ := untimed_succ.1 h
    rw [cycles, step_tickTimers hfirst, ih hrest, cycles]

theorem run_interleaving (h : Interleaving n t as) (hu : m.Untimed n) :
    m.run as = tickTimers^[t] (m.cycles n) := by
  induction h generalizing m with
  | nil => rfl
  | step _ ih => exact ih (untimed_succ.1 hu).2
  | @tick n t as _ ih =>
    calc m.run (.tick :: as)
        = tickTimers^[t] (m.tickTimers.cycles n) := ih (untimed_tickTimers.2 hu)
      _ = tickTimers^[t + 1] (m.cycles n) := by
        rw [cycles_tickTimers hu, Function.iterate_succ_apply]

/-- What one interleaving executes, the ticks of the machine execute by themselves. -/
theorem untimed_of_interleaving (h : Interleaving n t as)
    (hu : ∀ before after, as = before ++ .step :: after → ¬(m.run before).UsesTimers) :
    m.Untimed n := by
  induction h generalizing m with
  | nil => simp [Untimed]
  | step _ ih =>
    refine untimed_succ.2 ⟨hu [] _ rfl, ih ?_⟩
    rintro before after rfl
    exact hu (.step :: before) after rfl
  | tick _ ih =>
    refine untimed_tickTimers.1 (ih ?_)
    rintro before after rfl
    exact hu (.tick :: before) after rfl

theorem status_run_of_halted {f : Fault} (h : m.status = .halted f) (as : List Action) :
    (m.run as).status = .halted f := by
  refine run_induction (P := fun m => m.status = .halted f) ?_ as m h
  intro m a hm
  cases a with
  | step => exact (congrArg status (step_of_halted hm)).trans hm
  | tick | keys => exact hm

/-! ### Timers -/

theorem toNat_pred (b : UInt8) : (if b > 0 then b - 1 else 0).toNat = b.toNat - 1 := by
  have hlt := b.toNat_lt
  split
  · next h =>
    have hpos : 0 < b.toNat := UInt8.lt_iff_toNat_lt.1 h
    simp only [UInt8.toNat_sub, UInt8.reduceToNat]
    omega
  · next h =>
    have hzero : ¬0 < b.toNat := fun hp => h (UInt8.lt_iff_toNat_lt.2 hp)
    simp only [UInt8.reduceToNat]
    omega

theorem timers_iterate (t : Nat) (m : Machine) :
    (tickTimers^[t] m).delayTimer.toNat = m.delayTimer.toNat - t ∧
      (tickTimers^[t] m).soundTimer.toNat = m.soundTimer.toNat - t := by
  induction t with
  | zero => exact ⟨rfl, rfl⟩
  | succ t ih =>
    obtain ⟨hd, hs⟩ := ih
    rw [Function.iterate_succ_apply']
    refine ⟨(toNat_pred _).trans ?_, (toNat_pred _).trans ?_⟩
    · rw [hd, Nat.sub_sub]
    · rw [hs, Nat.sub_sub]

theorem timers_cycles (h : m.Untimed n) :
    (m.cycles n).delayTimer = m.delayTimer ∧ (m.cycles n).soundTimer = m.soundTimer := by
  induction n generalizing m with
  | zero => exact ⟨rfl, rfl⟩
  | succ n ih =>
    obtain ⟨hfirst, hrest⟩ := untimed_succ.1 h
    obtain ⟨hd, hs⟩ := ih hrest
    have hstep := (step_devices m).trans (devicesAfter_of_untimed hfirst m.devices)
    exact ⟨hd.trans (congrArg Devices.delayTimer hstep),
      hs.trans (congrArg Devices.soundTimer hstep)⟩

/-- A tick that does not use the timers commutes with a tick of the timers. So if one interleaving
executes no word that uses them, then none does, and all of them end in the same machine: the one
whose timers tick behind all of its ticks, and stop at zero. As many ticks as 31 bits count may be
asked for at once. -/
theorem timers_independent (m : Machine) :
    (¬m.UsesTimers → m.tickTimers.step = m.step.tickTimers) ∧
    ∀ (n t : Nat) (as : List Action), Interleaving n t as →
      (∀ before after, as = before ++ .step :: after → ¬(m.run before).UsesTimers) →
      m.run as = tickTimers^[t] (m.cycles n) ∧
      (n < 0x80000000 → ∃ m', m.cycles? n = .ok m' ∧ m.run as = tickTimers^[t] m') ∧
      (m.run as).delayTimer.toNat = m.delayTimer.toNat - t ∧
      (m.run as).soundTimer.toNat = m.soundTimer.toNat - t ∧
      ∀ bs, Interleaving n t bs → m.run bs = m.run as := by
  refine ⟨step_tickTimers, ?_⟩
  intro n t as has hu
  have hn : m.Untimed n := untimed_of_interleaving has hu
  have hrun := run_interleaving has hn
  obtain ⟨hd, hs⟩ := timers_iterate t (m.cycles n)
  obtain ⟨hd', hs'⟩ := timers_cycles hn
  refine ⟨hrun, fun hlt => ⟨_, cycles?_of_lt hlt, hrun⟩, ?_, ?_, ?_⟩
  · rw [hrun, hd, hd']
  · rw [hrun, hs, hs']
  · intro bs hbs
    rw [hrun, run_interleaving hbs hn]

/-- Starts to wait for a key while both timers run. -/
def waitsWithTimers : Machine :=
  { create ⟨0, 0⟩ with
    memory := Memory.zeros.store 0x200 [0xF0, 0x0A]
    delayTimer := 3
    soundTimer := 1 }

theorem timers_independent_waitsWithTimers :
    let m := waitsWithTimers
    m.tickTimers.step = m.step.tickTimers ∧
      (∃ m', m.cycles? 1 = .ok m' ∧ m.run [.tick, .step, .tick] = tickTimers^[2] m') ∧
      m.run [.tick, .step, .tick] = m.run [.step, .tick, .tick] ∧
      (m.run [.tick, .step, .tick]).delayTimer.toNat = 1 ∧
      (m.run [.tick, .step, .tick]).soundTimer.toNat = 0 := by
  intro m
  have hm : ¬m.UsesTimers ∧ ¬(m.run [.tick]).UsesTimers := by decide +kernel
  have hu : ∀ before after, [.tick, .step, .tick] = before ++ .step :: after →
      ¬(m.run before).UsesTimers := by
    intro before after h
    match before with
    | [] => simp at h
    | [a] =>
      obtain ⟨rfl, -⟩ : a = .tick ∧ after = [.tick] := by simpa [eq_comm] using h
      exact hm.2
    | [a, b] => simp at h
    | a :: b :: c :: rest => simp at h
  obtain ⟨hcommute, hrun⟩ := timers_independent m
  obtain ⟨-, honce, hd, hs, heq⟩ := hrun 1 2 _ (.tick (.step (.tick .nil))) hu
  exact ⟨hcommute hm.1, honce (by decide), (heq _ (.step (.tick (.tick .nil)))).symm, hd, hs⟩

/-- Sets the delay timer to 3 and halts, a return with nothing called. -/
def haltsWithTimer : Machine :=
  { create ⟨0, 0⟩ with
    memory := Memory.zeros.store 0x200 [0x60, 0x03, 0xF0, 0x15, 0x00, 0xEE] }

theorem interleaving_not_asked_at_once :
    let m := haltsWithTimer.cycles 3
    let as := List.replicate 0x80000000 .step ++ [.tick]
    Interleaving 0x80000000 1 as ∧
      (∀ before after, as = before ++ .step :: after → ¬(m.run before).UsesTimers) ∧
      m.run as = m.tickTimers ∧ m.delayTimer = 3 ∧ m.cycles? 0x80000000 = .error .outOfRange := by
  intro m as
  have hm : m.status = .halted .stackUnderflow ∧ m.delayTimer = 3 := by decide +kernel
  obtain ⟨hhalted, htimer⟩ := hm
  have has : Interleaving 0x80000000 1 as := .replicate 0x80000000
  have hidle (before : List Action) : ¬(m.run before).UsesTimers :=
    not_usesTimers_of_halted (status_run_of_halted hhalted before)
  have hu : m.Untimed 0x80000000 := untimed_of_interleaving has fun before _ _ => hidle before
  refine ⟨has, fun before _ _ => hidle before, ?_, htimer, cycles?_of_ge le_rfl⟩
  rw [run_interleaving has hu, cycles_of_halted hhalted]
  rfl

end Machine
end Chip8
