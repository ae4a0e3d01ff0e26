import Chip8.Proofs.Effect
import Chip8.Proofs.Pattern

/-! When a tick halts the machine: the exact conditions, read off the program counter and the
digits of the word there. A machine that halts keeps all that it had. -/
namespace Chip8
open Opcode Instruction
variable {m : Machine} {f : Fault}

/-- Why a machine cannot execute a word. Addresses are compared as numbers, so none wraps. -/
inductive Blocked (m : Machine) (w : Nat) : Fault → Prop where
  | call (hw : w / 0x1000 = 0x2) (h : 16 ≤ m.stack.pointer.toNat) : Blocked m w .stackOverflow
  | ret (hw : w = 0x00EE) (h : m.stack.pointer.toNat = 0) : Blocked m w .stackUnderflow
  | jump (hw : w / 0x1000 = 0xB) (h : 4096 ≤ w % 0x1000 + (m.reg 0).toNat) :
      Blocked m w .memoryOutOfBounds
  | draw (hw : w / 0x1000 = 0xD) (h : 4096 < m.i.toNat + w % 0x10) :
      Blocked m w .memoryOutOfBounds
  | decimal (hw : w / 0x1000 = 0xF) (hb : w % 0x100 = 0x33) (h : 4096 < m.i.toNat + 3) :
      Blocked m w .memoryOutOfBounds
  | registers (hw : w / 0x1000 = 0xF) (hb : w % 0x100 = 0x55 ∨ w % 0x100 = 0x65)
      (h : 4096 < m.i.toNat + w / 0x100 % 0x10 + 1) : Blocked m w .memoryOutOfBounds

namespace Machine

/-- The two bytes at the program counter, the high one first. -/
def bigEndian (m : Machine) : Nat :=
  256 * (m.memory.peek m.pc.toNat).toNat + (m.memory.peek (m.pc.toNat + 1)).toNat

/-- The fault that a tick of a running machine ends in. -/
def Due (m : Machine) (f : Fault) : Prop :=
  if 4094 ≤ m.pc.toNat then f = .endOfMemory else Blocked m m.bigEndian f

theorem wordAt_toNat (h : m.pc.toNat < 4094) : m.wordAt.toNat = m.bigEndian := by
  have hmin : min m.pc.toNat 4094 = m.pc.toNat := by omega
  have hhi := (m.memory.peek m.pc.toNat).toNat_lt
  have hlo := (m.memory.peek (m.pc.toNat + 1)).toNat_lt
  have hor : 256 * (m.memory.peek m.pc.toNat).toNat ||| (m.memory.peek (m.pc.toNat + 1)).toNat =
      256 * (m.memory.peek m.pc.toNat).toNat + (m.memory.peek (m.pc.toNat + 1)).toNat :=
    (Nat.two_pow_add_eq_or_of_lt (i := 8) hlo _).symm
  have hshift : (m.memory.peek m.pc.toNat).toNat <<< 8 % 65536 =
      256 * (m.memory.peek m.pc.toNat).toNat := by
    rw [Nat.shiftLeft_eq]
    omega
  simp only [wordAt, hmin, bigEndian, UInt16.toNat_or, UInt16.toNat_shiftLeft,
    UInt8.toNat_toUInt16, ← hor]
  exact congrArg (· ||| _) hshift

/-- The word that a tick executes. A machine that waits, has halted or has no room to advance
executes none. -/
def word? (m : Machine) : Option Nat :=
  if m.status = .running ∧ m.pc.toNat < 4094 then some m.bigEndian else none

theorem word?_eq_some {w : Nat} :
    m.word? = some w ↔ m.status = .running ∧ m.pc.toNat < 4094 ∧ m.bigEndian = w := by
  simp [word?, and_assoc]

end Machine

theorem memory_fault_iff {a n : Nat} :
    Memory.fault? a n = some f ↔ 4096 < a + n ∧ f = .memoryOutOfBounds := by
  rw [Memory.fault?_eq_some, Memory.Holds, Nat.not_le]

theorem Blocked.of_fault {w : UInt16}
    (h : (classify w.toNat).fault? (decode w.toNat) m = some f) : Blocked m w.toNat f := by
  have hw : w.toNat < 65536 := w.toNat_lt
  cases ho : classify w.toNat with
  | call =>
    rw [ho] at h
    obtain ⟨hs, rfl⟩ := fault?_call.1 h
    have hd := (classify_eq_iff_class (a := 0x2) (by decide) w).1 ho
    exact .call hd ((CallStack.isFull_iff _).1 hs)
  | ret =>
    rw [ho] at h
    obtain ⟨hs, rfl⟩ := fault?_ret.1 h
    have hd := (classify_eq_iff_system (r := 0x00EE) (by decide) w).1 ho
    exact .ret (by omega) ((CallStack.isEmpty_iff _).1 hs)
  | jpV0 =>
    rw [ho, fault?, memory_fault_iff, decode_nnn hw] at h
    obtain ⟨ha, rfl⟩ := h
    have hd := (classify_eq_iff_class (a := 0xB) (by decide) w).1 ho
    exact .jump hd (by omega)
  | drw =>
    rw [ho, fault?, memory_fault_iff, decode_n_val hw] at h
    obtain ⟨ha, rfl⟩ := h
    have hd := (classify_eq_iff_class (a := 0xD) (by decide) w).1 ho
    exact .draw hd ha
  | bcd =>
    rw [ho, fault?, memory_fault_iff] at h
    obtain ⟨ha, rfl⟩ := h
    obtain ⟨hd, hb⟩ := (classify_eq_iff_misc (b := 0x33) (by decide) w).1 ho
    exact .decimal hd hb ha
  | store =>
    rw [ho, fault?, memory_fault_iff, decode_x_val hw] at h
    obtain ⟨ha, rfl⟩ := h
    obtain ⟨hd, hb⟩ := (classify_eq_iff_misc (b := 0x55) (by decide) w).1 ho
    exact .registers hd (.inl hb) ha
  | load =>
    rw [ho, fault?, memory_fault_iff, decode_x_val hw] at h
    obtain ⟨ha, rfl⟩ := h
    obtain ⟨hd, hb⟩ := (classify_eq_iff_misc (b := 0x65) (by decide) w).1 ho
    exact .registers hd (.inr hb) ha
  | _ => simp [ho, fault?] at h

theorem Blocked.fault {w : UInt16} (h : Blocked m w.toNat f) :
    (classify w.toNat).fault? (decode w.toNat) m = some f := by
  have hw : w.toNat < 65536 := w.toNat_lt
  cases h with
  | call hd h =>
    rw [(classify_eq_iff_class (a := 0x2) (o := .call) (by decide) w).2 hd]
    exact fault?_call.2 ⟨(CallStack.isFull_iff _).2 h, rfl⟩
  | ret hd h =>
    rw [(classify_eq_iff_system (r := 0x00EE) (o := .ret) (by decide) w).2 (by omega)]
    exact fault?_ret.2 ⟨(CallStack.isEmpty_iff _).2 h, rfl⟩
  | jump hd h =>
    rw [(classify_eq_iff_class (a := 0xB) (o := .jpV0) (by decide) w).2 hd, fault?,
      memory_fault_iff, decode_nnn hw]
    exact ⟨by omega, rfl⟩
  | draw hd h =>
    rw [(classify_eq_iff_class (a := 0xD) (o := .drw) (by decide) w).2 hd, fault?,
      memory_fault_iff, decode_n_val hw]
    exact ⟨h, rfl⟩
  | decimal hd hb h =>
    rw [(classify_eq_iff_misc (b := 0x33) (o := .bcd) (by decide) w).2 ⟨hd, hb⟩, fault?,
      memory_fault_iff]
    exact ⟨h, rfl⟩
  | registers hd hb h =>
    rcases hb with hb | hb
    · rw [(classify_eq_iff_misc (b := 0x55) (o := .store) (by decide) w).2 ⟨hd, hb⟩, fault?,
        memory_fault_iff, decode_x_val hw]
      exact ⟨h, rfl⟩
    · rw [(classify_eq_iff_misc (b := 0x65) (o := .load) (by decide) w).2 ⟨hd, hb⟩, fault?,
        memory_fault_iff, decode_x_val hw]
      exact ⟨h, rfl⟩

namespace Machine

section Ticks
variable [Randomness]

theorem step_inside (hs : m.status = .running) (h : m.pc.toNat < 4094) :
    m.step.status = .halted f ↔ m.opcode.fault? m.operands m = some f := by
  cases hg : m.opcode.fault? m.operands m with
  | some g => simp [step_of_fault hs h hg, fault]
  | none =>
    have hst := step_status hs h hg
    by_cases hk : m.opcode = .ldKey <;> simp [hst, hk]

theorem due_iff (hs : m.status = .running) : m.step.status = .halted f ↔ m.Due f := by
  by_cases h : 4094 ≤ m.pc.toNat
  · rw [step_at_end hs h, Due, if_pos h]
    simp [fault, eq_comm]
  · have hlt : m.pc.toNat < 4094 := by omega
    rw [step_inside hs hlt, Due, if_neg h, ← wordAt_toNat hlt]
    exact ⟨.of_fault, Blocked.fault⟩

theorem step_of_due (hs : m.status = .running) (h : m.Due f) :
    m.step =
      { m with status := .halted f, pc := if 4094 ≤ m.pc.toNat then m.pc else m.pc + 2 } := by
  by_cases hp : 4094 ≤ m.pc.toNat
  · have hf : f = .endOfMemory := by simpa [Due, hp] using h
    rw [step_at_end hs hp, hf, if_pos hp]
    rfl
  · have hlt : m.pc.toNat < 4094 := by omega
    have hg := (step_inside hs hlt).1 ((due_iff hs).2 h)
    rw [step_of_fault hs hlt hg, if_neg hp]
    rfl

theorem isFaulted_step_of_awaiting (hs : m.status = .awaitingKey) : m.step.isFaulted = false := by
  cases hk : m.keypad.lowest? with
  | some k =>
    rw [step_of_key hs hk]
    rfl
  | none =>
    rw [step_of_no_key hs hk, isFaulted, hs]
    rfl

/-- A tick of a running machine halts it with exactly the fault that is due, and then changes
the status and at most the program counter. A halted machine stays as it is, one tick after the
other and also when as many are asked for at once as 32 bits count; more are refused. A machine
that waits for a key never faults. -/
theorem faults_exactly (m : Machine) :
    (m.status = .running →
      (∀ f, m.step.status = .halted f ↔ m.Due f) ∧
      (m.step.isFaulted → m.step = { m with
        status := m.step.status
        pc := if 4094 ≤ m.pc.toNat then m.pc else m.pc + 2 })) ∧
    (m.isFaulted → m.step = m ∧ (∀ n, m.cycles n = m) ∧
      ∀ n : Int, m.cycles? n =
        if -0x80000000 ≤ n ∧ n < 0x80000000 then .ok m else .error .outOfRange) ∧
    (m.status = .awaitingKey → m.step.isFaulted = false) := by
  refine ⟨fun hs => ⟨fun f => due_iff hs, ?_⟩, ?_, isFaulted_step_of_awaiting⟩
  · intro hf
    obtain ⟨f, hst⟩ := isFaulted_iff.1 hf
    rw [hst]
    exact step_of_due hs ((due_iff hs).1 hst)
  · intro hf
    obtain ⟨f, hst⟩ := isFaulted_iff.1 hf
    exact ⟨step_of_halted hst, cycles_of_halted hst, cycles?_of_halted hst⟩

end Ticks

/-- Three digits do not fit on the last two bytes. -/
theorem faults_exactly_at_last_bytes :
    let m : Machine :=
      { create ⟨0, 0⟩ with memory := Memory.zeros.store 0x200 [0xF0, 0x33], i := 0xFFE }
    m.step.status = .halted .memoryOutOfBounds := by
  intro m
  have hp : ¬4094 ≤ m.pc.toNat := by decide
  have hb : m.bigEndian = 0xF033 := by decide +kernel
  refine (((faults_exactly m).1 rfl).1 .memoryOutOfBounds).2 ?_
  rw [Due, if_neg hp, hb]
  exact .decimal (by decide) (by decide) (by decide)

/-- A return with nothing called halts the machine, which cannot be asked for 2147483648 more ticks
at once. -/
theorem halted_ticks_refused :
    let m : Machine := { create ⟨0, 0⟩ with memory := Memory.zeros.store 0x200 [0x00, 0xEE] }
    m.step.status = .halted .stackUnderflow ∧ m.step.step = m.step ∧
      m.step.cycles? 0x80000000 = .error .outOfRange := by
  intro m
  have h : m.step.status = .halted .stackUnderflow := by decide +kernel
  exact ⟨h, step_of_halted h, (cycles?_of_halted h _).trans (if_neg (by decide))⟩

end Machine
end Chip8
