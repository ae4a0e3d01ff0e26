import Chip8.Proofs.Fault
import Chip8.Proofs.Run
import Chip8.Session

/-! The invariant of every machine that a host can bring about: a stack of addresses inside
memory with zeros above, a wait register that names a register, and a status with a meaning. -/
namespace Chip8

structure CallStack.WellFormed (s : CallStack) : Prop where
  pointer_le : s.pointer.toNat ≤ 16
  free : ∀ (k : Nat) (h : k < 16), s.pointer.toNat ≤ k → s.slots[k] = 0
  used : ∀ (k : Nat) (h : k < 16), k < s.pointer.toNat →
    2 ≤ s.slots[k].toNat ∧ s.slots[k].toNat ≤ 4095

namespace CallStack.WellFormed
variable {s : CallStack}

theorem empty : CallStack.empty.WellFormed where
  pointer_le := by decide
  free k h _ := by simp [CallStack.empty]
  used k h hk := by simp [CallStack.empty] at hk

theorem push_pointer (hf : s.isFull = false) :
    s.pointer.toNat < 16 ∧ (s.pointer + 1).toNat = s.pointer.toNat + 1 := by
  have hn : ¬16 ≤ s.pointer.toNat := by
    rw [← s.isFull_iff, hf]
    decide
  refine ⟨by omega, ?_⟩
  simp only [UInt8.toNat_add, UInt8.reduceToNat]
  omega

theorem push (h : s.WellFormed) (hf : s.isFull = false) {a : UInt16} (hlo : 2 ≤ a.toNat)
    (hhi : a.toNat ≤ 4095) : (s.push a).WellFormed := by
  obtain ⟨hp, hnext⟩ := push_pointer hf
  refine ⟨by simp only [CallStack.push, hnext]; omega, ?_, ?_⟩
  · intro k hk hle
    simp only [CallStack.push, hnext] at hle ⊢
    rw [Vector.getElem_setIfInBounds_ne hk (by omega)]
    exact h.free k hk (by omega)
  · intro k hk hlt
    simp only [CallStack.push, hnext] at hlt ⊢
    by_cases he : s.pointer.toNat = k
    · subst he
      rw [Vector.getElem_setIfInBounds_self]
      exact ⟨hlo, hhi⟩
    · rw [Vector.getElem_setIfInBounds_ne hk he]
      exact h.used k hk (by omega)

theorem pop_pointer (he : s.isEmpty = false) :
    0 < s.pointer.toNat ∧ (s.pointer - 1).toNat = s.pointer.toNat - 1 := by
  have hn : s.pointer.toNat ≠ 0 := by
    intro h0
    rw [(s.isEmpty_iff).2 h0] at he
    cases he
  have hlt := s.pointer.toNat_lt
  refine ⟨by omega, ?_⟩
  simp only [UInt8.toNat_sub, UInt8.reduceToNat]
  omega

theorem pop (h : s.WellFormed) (he : s.isEmpty = false) : s.pop.1.WellFormed := by
  obtain ⟨h0, hp⟩ := pop_pointer he
  have hle := h.pointer_le
  refine ⟨by simp only [CallStack.pop, hp]; omega, ?_, ?_⟩
  · intro k hk hle
    simp only [CallStack.pop, hp] at hle ⊢
    by_cases hkp : s.pointer.toNat - 1 = k
    · subst hkp
      rw [Vector.getElem_setIfInBounds_self]
    · rw [Vector.getElem_setIfInBounds_ne hk hkp]
      exact h.free k hk (by omega)
  · intro k hk hlt
    simp only [CallStack.pop, hp] at hlt ⊢
    rw [Vector.getElem_setIfInBounds_ne hk (by omega)]
    exact h.used k hk (by omega)

theorem pop_address (h : s.WellFormed) (he : s.isEmpty = false) :
    2 ≤ s.pop.2.toNat ∧ s.pop.2.toNat ≤ 4095 := by
  obtain ⟨h0, hp⟩ := pop_pointer he
  have hle := h.pointer_le
  have hmin : min (s.pointer - 1).toNat 15 = s.pointer.toNat - 1 := by omega
  simp only [CallStack.pop, hmin]
  exact h.used (s.pointer.toNat - 1) (by omega) (by omega)

end CallStack.WellFormed

structure Control.WellFormed (c : Control) : Prop where
  stack : c.stack.WellFormed
  waitRegister_le : c.waitRegister.toNat ≤ 15
  code_le : c.status.code ≤ 5

theorem Blocked.code_le {m : Machine} {w : Nat} {f : Fault} (h : Blocked m w f) : f.code ≤ 5 := by
  cases h <;> decide

namespace Control.WellFormed
open Machine
variable {m : Machine}

theorem boot : Control.WellFormed ⟨.running, 0x200, .empty, 0⟩ where
  stack := .empty
  waitRegister_le := Nat.zero_le 15
  code_le := Nat.zero_le 5

theorem fault (h : m.control.WellFormed) {f : Fault} (hf : f.code ≤ 5) :
    (m.fault f).control.WellFormed :=
  ⟨h.stack, h.waitRegister_le, hf⟩

/-- Only an address that a fetch has left behind is pushed, so it lies above the first word and
inside memory. -/
theorem step (h : m.control.WellFormed) : m.step.control.WellFormed := by
  cases m.tick with
  | halted f hs he => rwa [he]
  | idle hs hk he => rwa [he]
  | key k hs hk he =>
    rw [he]
    exact ⟨h.stack, h.waitRegister_le, Nat.zero_le 5⟩
  | ended hs hp he =>
    rw [he]
    exact h.fault (by decide)
  | stopped f hs hp hf he =>
    rw [he]
    exact ⟨h.stack, h.waitRegister_le, (Blocked.of_fault hf).code_le⟩
  | performed hs hp hf _ =>
    have hnext := fetched_pc hp
    rw [step_control hs hp hf]
    refine ⟨?_, ?_, ?_⟩
    · cases ho : m.opcode with
      | call =>
        have hfull : m.stack.isFull = false := by simpa [ho, Opcode.fault?] using hf
        exact h.stack.push hfull (by omega) (by omega)
      | ret =>
        have hempty : m.stack.isEmpty = false := by simpa [ho, Opcode.fault?] using hf
        exact h.stack.pop hempty
      | _ => exact h.stack
    · by_cases hk : m.opcode = .ldKey
      · have hx := m.operands.x.isLt
        simp only [Opcode.controlAfter, if_pos hk, UInt8.toNat_ofNat']
        omega
      · simp only [Opcode.controlAfter, if_neg hk]
        exact h.waitRegister_le
    · by_cases hk : m.opcode = .ldKey
      · simp [Opcode.controlAfter, hk, Status.code]
      · simp only [Opcode.controlAfter, if_neg hk]
        exact h.code_le

theorem cycles (n : Nat) (h : m.control.WellFormed) :
    (m.cycles n).control.WellFormed := by
  induction n generalizing m with
  | zero => exact h
  | succ n ih => exact ih h.step

theorem apply (a : Action) (h : m.control.WellFormed) :
    (a.apply m).control.WellFormed := by
  cases a with
  | step => exact h.step
  | tick => exact h
  | keys k => exact h

theorem run (h : m.control.WellFormed) (as : List Action) : (m.run as).control.WellFormed :=
  run_induction (P := fun m => m.control.WellFormed) (fun _ a hm => hm.apply a) as m h

theorem answer {m' : Machine} {r : Request} (hr : r.answer m = .ok m')
    (h : m.control.WellFormed) : m'.control.WellFormed := by
  cases r with
  | action a =>
    cases hr
    exact h.apply a
  | load image =>
    rw [load_control hr]
    exact h
  | cycles n =>
    rw [cycles?_eq_ok hr]
    exact h.cycles n.toNat
  | frame n =>
    rw [frame?_eq_ok hr]
    exact h.cycles n.toNat
  | reset =>
    cases hr
    exact boot
  | read a =>
    cases hr
    by_cases hb : Memory.inBounds a 1 = true
    · rwa [readByte, if_pos hb]
    · rw [readByte, if_neg hb]
      exact h.fault (by decide)
  | write a b =>
    cases hr
    by_cases hb : Memory.inBounds a 1 = true
    · rw [writeByte, if_pos hb]
      exact h
    · rw [writeByte, if_neg hb]
      exact h.fault (by decide)

theorem failure (h : m.control.WellFormed) :
    if m.isFaulted then
      ∃ c ∈ [Cause.stackOverflow, .stackUnderflow, .memoryOutOfBounds, .endOfMemory],
        m.failure? = some (.halt (.fault c none (some m.pc.toNat)))
    else m.failure? = none := by
  have hc := h.code_le
  cases hs : m.status with
  | running => simp [isFaulted, failure?, hs, Status.isHalted]
  | awaitingKey => simp [isFaulted, failure?, hs, Status.isHalted]
  | halted f =>
    cases f with
    | unassigned k =>
      simp only [Machine.control, hs, Status.code, Fault.code] at hc
      omega
    | _ => simp [isFaulted, failure?, hs, Status.isHalted, Cause.ofFault?]

theorem cause (h : m.control.WellFormed) {f : Fault} (hf : m.status = .halted f) :
    ∃ c, Cause.ofFault? f = some c ∧
      m.failure? = some (.halt (.fault c none (some m.pc.toNat))) := by
  have hc := h.code_le
  cases f with
  | unassigned k =>
    simp only [Machine.control, hf, Status.code, Fault.code] at hc
    omega
  | _ => exact ⟨_, rfl, by simp [failure?, hf, Cause.ofFault?]⟩

end Control.WellFormed

theorem Session.exactly_one_mode {τ : Type} (s : Session τ) :
    [s.running, s.waitingForKey, s.halted].count true = 1 := by
  cases hs : s.machine.status <;>
    simp [running, waitingForKey, halted, Machine.isFaulted, hs, Status.isHalted]

namespace Machine

/-- Whatever a host asks of a machine from its boot on: the stack holds addresses from 2 to 4095
below its pointer and zeros from there up, the wait register names a register, and the status is
one of the six that have a meaning. So asking for the failure answers nothing or a machine fault,
and a session on the machine is in exactly one of its three modes. -/
theorem served_wellFormed (key : RandomKey) (rs : List Request) :
    let m := (create key).serve rs
    m.stack.pointer.toNat ≤ 16 ∧
    (∀ k : Fin 16, m.stack.pointer.toNat ≤ k.val → m.stack.slots.get k = 0) ∧
    (∀ k : Fin 16, k.val < m.stack.pointer.toNat →
      2 ≤ (m.stack.slots.get k).toNat ∧ (m.stack.slots.get k).toNat ≤ 4095) ∧
    m.waitRegister.toNat ≤ 15 ∧
    m.status.code ≤ 5 ∧
    (if m.isFaulted then
      ∃ c ∈ [Cause.stackOverflow, .stackUnderflow, .memoryOutOfBounds, .endOfMemory],
        m.failure? = some (.halt (.fault c none (some m.pc.toNat)))
    else m.failure? = none) ∧
    ∀ {τ : Type} (session : Session τ),
      let s := { session with machine := m }
      [s.running, s.waitingForKey, s.halted].count true = 1 := by
  intro m
  have h : m.control.WellFormed :=
    serve_induction (P := fun m => m.control.WellFormed) (fun m m' r hr hm => hm.answer hr)
      rs (create key) .boot
  exact ⟨h.stack.pointer_le, fun k => h.stack.free k k.isLt, fun k => h.stack.used k k.isLt,
    h.waitRegister_le, h.code_le, h.failure, fun s => Session.exactly_one_mode _⟩

/-- A program that calls 200 at once. -/
theorem served_wellFormed_call :
    let m := (create ⟨0, 0⟩).serve [.load [0x22, 0x00], .action .step]
    2 ≤ (m.stack.slots.get 0).toNat ∧ (m.stack.slots.get 0).toNat ≤ 4095 :=
  (served_wellFormed ⟨0, 0⟩ [.load [0x22, 0x00], .action .step]).2.2.1 0 (by decide +kernel)

end Machine
end Chip8
