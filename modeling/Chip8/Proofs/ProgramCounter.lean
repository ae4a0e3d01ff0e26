import Chip8.Proofs.WellFormed

/-! Where the program counter can go. Fetches, jumps, calls and returns keep it inside memory; a
skip that is taken on the last words carries it past the end, and nothing else does. -/
namespace Chip8
open Opcode

theorem Opcode.skips_fetched (o : Opcode) (d : Instruction) (m : Machine) :
    o.skips d m.fetched = o.skips d m := by
  cases o <;> rfl

theorem Opcode.fault?_of_skips {o : Opcode} {d : Instruction} {m : Machine}
    (h : o.skips d m = true) : o.fault? d m = none ∧ o ≠ .ldKey := by
  cases o <;> simp_all [skips, fault?]

theorem Opcode.pcAfter_of_skips {o : Opcode} {d : Instruction} {m : Machine}
    (h : o.skips d m = true) : o.pcAfter d m = m.pc + 2 := by
  cases o <;> simp_all [skips, pcAfter]

namespace Machine
variable {m : Machine}

/-- A tick that takes a skip with no room left behind the next word. -/
def Overruns (m : Machine) : Prop :=
  m.status = .running ∧ (m.pc.toNat = 4092 ∨ m.pc.toNat = 4093) ∧
    m.opcode.skips m.operands m = true

theorem step_of_skips (hs : m.status = .running) (hlt : m.pc.toNat < 4094)
    (hk : m.opcode.skips m.operands m = true) :
    m.step.status = .running ∧ m.step.pc.toNat = m.pc.toNat + 4 := by
  obtain ⟨hf, hne⟩ := fault?_of_skips hk
  have hpc : m.step.pc = m.fetched.pc + 2 := by
    rw [step_pc hs hlt hf]
    exact pcAfter_of_skips ((skips_fetched _ _ m).trans hk)
  have hnext := fetched_pc hlt
  refine ⟨by rw [step_status hs hlt hf, if_neg hne], ?_⟩
  rw [hpc]
  simp only [UInt16.toNat_add, UInt16.reduceToNat]
  omega

/-- A variant that is neither stopped nor a skip that is taken goes on inside memory. -/
theorem pcAfter_lt (h : m.control.WellFormed) (hlt : m.pc.toNat < 4094)
    (hf : m.opcode.fault? m.operands m = none) (hk : m.opcode.skips m.operands m = false) :
    (m.opcode.pcAfter m.operands m.fetched).toNat < 4096 := by
  have hnext := fetched_pc hlt
  have hnnn := m.operands.nnn.isLt
  rw [← skips_fetched] at hk
  cases ho : m.opcode with
  | jp | call =>
    simp only [pcAfter, UInt16.toNat_ofNat']
    omega
  | ret =>
    have he : m.stack.isEmpty = false := by simpa [ho, fault?] using hf
    have ha := (h.stack.pop_address he).2
    exact Nat.lt_succ_of_le ha
  | jpV0 =>
    rw [ho] at hf
    have hh : m.operands.nnn.val + (m.reg 0).toNat + 1 ≤ 4096 := Memory.fault?_eq_none.1 hf
    have hr : (m.fetched.reg 0).toNat = (m.reg 0).toNat := rfl
    simp only [pcAfter, UInt16.toNat_ofNat', hr]
    omega
  | _ =>
    rw [ho] at hk
    simp only [pcAfter, hk, Bool.false_eq_true, if_false]
    omega

theorem step_pc_lt (h : m.control.WellFormed) (hp : m.pc.toNat < 4096) (hn : ¬m.Overruns) :
    m.step.pc.toNat < 4096 := by
  cases m.tick with
  | halted f hs he => rwa [he]
  | idle hs hk he => rwa [he]
  | key k hs hk he => rwa [he]
  | ended hs hend he => rwa [he]
  | stopped f hs hlt hf he =>
    have hpc : m.step.pc = m.fetched.pc := by
      rw [he]
      rfl
    have hnext := fetched_pc hlt
    rw [hpc]
    omega
  | performed hs hlt hf _ =>
    cases hk : m.opcode.skips m.operands m with
    | true =>
      have hroom : ¬(m.pc.toNat = 4092 ∨ m.pc.toNat = 4093) := fun hr => hn ⟨hs, hr, hk⟩
      rw [(step_of_skips hs hlt hk).2]
      omega
    | false =>
      rw [step_pc hs hlt hf]
      exact pcAfter_lt h hlt hf hk

theorem Overruns.step (h : m.Overruns) :
    m.step.status = .running ∧ 4096 ≤ m.step.pc.toNat ∧ m.step.pc.toNat ≤ 4097 := by
  obtain ⟨hs, hp, hk⟩ := h
  obtain ⟨hst, hpc⟩ := step_of_skips hs (by omega) hk
  exact ⟨hst, by omega, by omega⟩

/-- Past the end nothing moves the program counter any more. -/
theorem apply_pc (a : Action) (hp : 4096 ≤ m.pc.toNat) : (a.apply m).pc = m.pc := by
  cases a with
  | tick => rfl
  | keys k => rfl
  | step =>
    cases m.tick with
    | halted f hs he | idle hs hk he | key k hs hk he => rw [Action.apply, he]
    | ended hs hend he =>
      rw [Action.apply, he]
      rfl
    | stopped f hs hlt hf he | performed hs hlt hf he => omega

theorem run_pc (as : List Action) (hp : 4096 ≤ m.pc.toNat) : (m.run as).pc = m.pc := by
  induction as generalizing m with
  | nil => rfl
  | cons a as ih =>
    have ha := apply_pc a hp
    rw [run, ih (by rw [ha]; exact hp), ha]

theorem run_split (before after : List Action) (m : Machine) :
    m.run (before ++ .step :: after) = ((m.run before).step).run after :=
  run_append before (.step :: after) m

theorem run_of_overruns {before : List Action} (after : List Action)
    (h : (m.run before).Overruns) :
    4096 ≤ (m.run (before ++ .step :: after)).pc.toNat ∧
      (m.run (before ++ .step :: after)).pc.toNat ≤ 4097 := by
  obtain ⟨-, hlo, hhi⟩ := h.step
  rw [run_split, run_pc after hlo]
  exact ⟨hlo, hhi⟩

theorem run_pc_lt (h : m.control.WellFormed) (hp : m.pc.toNat < 4096) (as : List Action)
    (hn : ∀ before after, as = before ++ .step :: after → ¬(m.run before).Overruns) :
    (m.run as).pc.toNat < 4096 := by
  induction as generalizing m with
  | nil => exact hp
  | cons a as ih =>
    have ha : (a.apply m).pc.toNat < 4096 := by
      cases a with
      | step => exact step_pc_lt h hp (hn [] as rfl)
      | tick => exact hp
      | keys k => exact hp
    refine ih (h.apply a) ha ?_
    intro before after he
    exact hn (a :: before) after (by rw [he]; rfl)

/-- Any program that fits boots, and the program counter of a run from there is inside memory
exactly if no tick of the run overruns. It is never past 4097, a running machine whose program
counter is past the end halts with its next tick, and no other tick of a machine inside memory
leaves one running outside. -/
theorem pc_inside_iff (key : RandomKey) (image : List UInt8) (hl : image.length ≤ 3584) :
    ∃ m₀, (create key).load image = .ok m₀ ∧ ∀ as : List Action,
      ((m₀.run as).pc.toNat < 4096 ↔
        ∀ before after, as = before ++ .step :: after → ¬(m₀.run before).Overruns) ∧
      (m₀.run as).pc.toNat ≤ 4097 ∧
      ((m₀.run as).status = .running → 4096 ≤ (m₀.run as).pc.toNat →
        (m₀.run as).step = (m₀.run as).fault .endOfMemory) ∧
      ((m₀.run as).pc.toNat < 4096 →
        ((m₀.run as).step.status = .running ∧ 4096 ≤ (m₀.run as).step.pc.toNat ↔
          (m₀.run as).Overruns)) := by
  obtain ⟨m₀, hb⟩ := load_of_length (create key) image hl
  have hc := load_control hb
  have h₀ : m₀.control.WellFormed := hc ▸ Control.WellFormed.boot
  have hp₀ : m₀.pc.toNat < 4096 := by
    rw [show m₀.pc = 0x200 from congrArg Control.pc hc]
    decide
  refine ⟨m₀, hb, fun as => ?_⟩
  have hrun : (m₀.run as).control.WellFormed := h₀.run as
  refine ⟨⟨?_, run_pc_lt h₀ hp₀ as⟩, ?_, fun hs hge => step_at_end hs (by omega), ?_⟩
  · rintro hlt before after rfl ho
    have hge := (run_of_overruns after ho).1
    omega
  · by_contra hgt
    have hlt : (m₀.run as).pc.toNat < 4096 := by
      refine run_pc_lt h₀ hp₀ as ?_
      rintro before after rfl ho
      exact hgt (run_of_overruns after ho).2
    omega
  · intro hp
    refine ⟨?_, fun ho => ⟨ho.step.1, ho.step.2.1⟩⟩
    rintro ⟨-, hge⟩
    by_contra hn
    have hlt := step_pc_lt hrun hp hn
    omega

/-- Stores a word that skips on the last words of memory and jumps there. -/
def skipAtEnd : List UInt8 := [0x60, 0x40, 0xAF, 0xFC, 0xF0, 0x55, 0x1F, 0xFC]

theorem run_skipAtEnd {m₀ : Machine} (hb : (create ⟨0, 0⟩).load skipAtEnd = .ok m₀) :
    (m₀.run (List.replicate 5 .step)).status = .running ∧
      (m₀.run (List.replicate 5 .step)).pc = 4096 := by
  cases hb
  decide +kernel

theorem pc_inside_iff_skipAtEnd : ∃ m₀, (create ⟨0, 0⟩).load skipAtEnd = .ok m₀ ∧
    ¬∀ before after, List.replicate 5 Action.step = before ++ .step :: after →
      ¬(m₀.run before).Overruns := by
  obtain ⟨m₀, hb, h⟩ := pc_inside_iff ⟨0, 0⟩ skipAtEnd (by decide)
  refine ⟨m₀, hb, fun hn => ?_⟩
  have hlt := (h (List.replicate 5 .step)).1.2 hn
  rw [(run_skipAtEnd hb).2] at hlt
  exact absurd hlt (by decide)

/-- The fifth tick leaves a running machine behind the end of memory. -/
theorem skipAtEnd_leaves_memory : ∃ m₀, (create ⟨0, 0⟩).load skipAtEnd = .ok m₀ ∧
    (m₀.run (List.replicate 5 .step)).status = .running ∧
    (m₀.run (List.replicate 5 .step)).pc = 4096 := by
  obtain ⟨m₀, hb⟩ := load_of_length (create ⟨0, 0⟩) skipAtEnd (by decide)
  exact ⟨m₀, hb, run_skipAtEnd hb⟩

end Machine
end Chip8
