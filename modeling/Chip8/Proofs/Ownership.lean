import Chip8.Proofs.Executed
import Chip8.Proofs.KeyWait
import Chip8.Proofs.Strict

/-! Who writes what: every tick changes only the cells that its word names, so a cell that differs
behind a run was written by one of the ticks in between. -/
namespace Chip8
open Opcode

/-- A part of a machine that is written as a whole. -/
inductive Cell where
  | keypad | display | delayTimer | soundTimer | rng | stack | index | waitRegister
  | byte (a : Fin 4096)
  | register (k : Fin 16)

namespace Cell

/-- The two machines hold the same in a cell. -/
def Same (m n : Machine) : Cell → Prop
  | keypad => n.keypad = m.keypad
  | display => n.display = m.display
  | delayTimer => n.delayTimer = m.delayTimer
  | soundTimer => n.soundTimer = m.soundTimer
  | rng => n.rng = m.rng
  | stack => n.stack = m.stack
  | index => n.i = m.i
  | waitRegister => n.waitRegister = m.waitRegister
  | byte a => n.memory.get a = m.memory.get a
  | register k => n.reg k = m.reg k

end Cell

namespace Opcode

/-- The variants whose result goes to VX. -/
def targeting : List Opcode :=
  [ldImm, addImm, ldReg, or, and, xor, addReg, sub, shr, subn, shl, rnd, ldVxDt]

/-- The variants whose flag goes to VF. -/
def flagging : List Opcode := [addReg, sub, shr, subn, shl, drw]

end Opcode

/-- The cells that are named by the word of a tick, with the value of `I` at that tick, and the one
that the end of a wait is due to write. -/
def Machine.Names (m : Machine) : Cell → Prop
  | .keypad => False
  | .display => m.Executes .cls ∨ m.Executes .drw
  | .delayTimer => m.Executes .ldDt
  | .soundTimer => m.Executes .ldSt
  | .rng => m.Executes .rnd
  | .stack => m.Executes .call ∨ m.Executes .ret
  | .index => m.Executes .ldI ∨ m.Executes .addI ∨ m.Executes .ldFont
  | .waitRegister => m.Executes .ldKey
  | .byte a =>
    m.Executes .bcd ∧ m.i.toNat ≤ a.val ∧ a.val ≤ m.i.toNat + 2 ∨
      m.Executes .store ∧ m.i.toNat ≤ a.val ∧ a.val ≤ m.i.toNat + m.operands.x.val
  | .register k =>
    (∃ o ∈ targeting, m.Executes o ∧ m.operands.x = k) ∨
      (∃ o ∈ flagging, m.Executes o ∧ k = 15) ∨
      m.Executes .load ∧ k ≤ m.operands.x ∨
      m.status = .awaitingKey ∧ (∃ j, m.keypad.get j = true) ∧ m.waitRegister.toNat = k.val

/-- A tick writes what it names unless it halts the machine. -/
def Machine.Writes (m : Machine) (c : Cell) : Prop := m.Names c ∧ m.step.isFaulted = false

variable {m n r : Machine} {c : Cell} {k x y : Fin 16}

namespace Cell

theorem Same.refl (m : Machine) (c : Cell) : c.Same m m := by
  cases c <;> rfl

theorem Same.trans (h : c.Same m n) (h' : c.Same n r) : c.Same m r := by
  cases c <;> exact Eq.trans h' h

/-- No cell holds the program counter or the status. -/
theorem same_control (c : Cell) (m : Machine) (pc : UInt16) (s : Status) :
    c.Same m { m with pc := pc, status := s } := by
  cases c <;> rfl

theorem same_registers {v : Registers} (pc : UInt16) (s : Status)
    (h : ∀ k, c = .register k → v.get k = m.reg k) :
    c.Same m { m with pc := pc, status := s, v := v } := by
  cases c with
  | register k => exact h k rfl
  | _ => rfl

theorem same_memory {bytes : Memory} (pc : UInt16)
    (h : ∀ a, c = .byte a → bytes.get a = m.memory.get a) :
    c.Same m { m with pc := pc, memory := bytes } := by
  cases c with
  | byte a => exact h a rfl
  | _ => rfl

end Cell

namespace Memory

theorem getElem_store_of_outside (m : Memory) {a b n : Nat} {bytes : List UInt8} (hb : b < 4096)
    (hn : bytes.length = n) (h : b < a ∨ a + n ≤ b) : (m.store a bytes)[b] = m[b] := by
  rw [getElem_store _ _ _ hb]
  rcases h with h | h
  · rw [if_neg (by omega)]
  · rw [if_pos (by omega), List.getD_eq_getElem?_getD, List.getElem?_eq_none (by omega),
      Option.getD_none]

end Memory

namespace Machine

theorem reg_arithmetic_of_ne (m : Machine) (op : Alu) (h : k ≠ x)
    (hf : op.flag? (m.reg x) (m.reg y) = none ∨ k ≠ 15) :
    (m.arithmetic op x y).reg k = m.reg k := by
  rw [reg_arithmetic]
  cases hop : op.flag? (m.reg x) (m.reg y) with
  | none => exact if_neg h
  | some f =>
    have hk : k ≠ 15 := by simpa [hop] using hf
    exact (if_neg hk).trans (if_neg h)

/-- One case for each shape of effect: what the variant may write is excluded by the hypothesis,
and all other cells pass through its record update. -/
theorem same_of_performed (hs : m.status = .running) (hp : m.pc.toNat < 4094)
    (hf : m.opcode.fault? m.operands m = none) (hn : ¬m.Names c) :
    c.Same m (m.opcode.perform m.operands m.fetched) := by
  have he (o : Opcode) (ho : m.opcode = o) (hu : o ≠ .unknown) : m.Executes o :=
    (executes_iff hs hp hu).2 ho
  have hx (o : Opcode) (ho : m.opcode = o) (hu : o ≠ .unknown) (ht : o ∈ targeting) (k : Fin 16)
      (hk : c = .register k) : k ≠ m.operands.x := by
    rintro rfl
    exact hn (hk ▸ .inl ⟨o, ht, he o ho hu, rfl⟩)
  have hv (o : Opcode) (ho : m.opcode = o) (hu : o ≠ .unknown) (ht : o ∈ flagging) (k : Fin 16)
      (hk : c = .register k) : k ≠ 15 := by
    rintro rfl
    exact hn (hk ▸ .inr (.inl ⟨o, ht, he o ho hu, rfl⟩))
  rw [← fault?_fetched] at hf
  cases ho : m.opcode with
  | cls =>
    cases c with
    | display => exact absurd (.inl (he _ ho (by decide))) hn
    | _ => rfl
  | ret =>
    have hempty : m.fetched.stack.isEmpty = false := by simpa [ho, fault?] using hf
    rw [perform, returnFrom, hempty]
    cases c with
    | stack => exact absurd (.inr (he _ ho (by decide))) hn
    | _ => rfl
  | call =>
    have hfull : m.fetched.stack.isFull = false := by simpa [ho, fault?] using hf
    rw [perform, call, hfull]
    cases c with
    | stack => exact absurd (.inl (he _ ho (by decide))) hn
    | _ => rfl
  | jp | unknown => exact c.same_control m _ _
  | seImm | sneImm | seReg | sneReg | skp | sknp =>
    exact (congrArg (c.Same m) (skipIf_eq _ m.fetched)).mpr (c.same_control m _ _)
  | jpV0 =>
    rw [ho] at hf
    rw [perform, jumpOffset, if_pos (Memory.fault?_eq_none.1 hf)]
    exact c.same_control m _ _
  | ldImm | addImm | ldVxDt =>
    exact Cell.same_registers _ _ fun k hk =>
      reg_setRegister_of_ne m.fetched _ (hx _ ho (by decide) (by decide) k hk)
  | ldReg | or | and | xor =>
    rw [perform, arithmetic_eq]
    exact Cell.same_registers _ _ fun k hk =>
      reg_arithmetic_of_ne m.fetched _ (hx _ ho (by decide) (by decide) k hk) (.inl rfl)
  | addReg | sub | shr | subn | shl =>
    rw [perform, arithmetic_eq]
    exact Cell.same_registers _ _ fun k hk =>
      reg_arithmetic_of_ne m.fetched _ (hx _ ho (by decide) (by decide) k hk)
        (.inr (hv _ ho (by decide) (by decide) k hk))
  | load =>
    rw [ho] at hf
    rw [perform, loadRegisters, if_pos (Memory.fault?_eq_none.1 hf)]
    refine Cell.same_registers _ _ fun k hk => ?_
    have hlt : m.operands.x < k := by
      by_contra hle
      exact hn (hk ▸ .inr (.inr (.inl ⟨he _ ho (by decide), Fin.not_lt.1 hle⟩)))
    exact (Vector.getElem_ofFn k.isLt).trans (if_neg (Fin.not_le.2 hlt))
  | ldI | addI | ldFont =>
    cases c with
    | index =>
      have hex := he _ ho (by decide)
      simp [Names, hex] at hn
    | _ => rfl
  | rnd =>
    cases c with
    | rng => exact absurd (he _ ho (by decide)) hn
    | register k =>
      exact reg_setRegister_of_ne _ _ (hx _ ho (by decide) (by decide) k rfl)
    | _ => rfl
  | drw =>
    rw [ho] at hf
    rw [perform, draw, if_pos (Memory.fault?_eq_none.1 hf)]
    cases c with
    | display => exact absurd (.inr (he _ ho (by decide))) hn
    | register k => exact reg_setRegister_of_ne _ _ (hv _ ho (by decide) (by decide) k rfl)
    | _ => rfl
  | ldKey =>
    cases c with
    | waitRegister => exact absurd (he _ ho (by decide)) hn
    | _ => rfl
  | ldDt =>
    cases c with
    | delayTimer => exact absurd (he _ ho (by decide)) hn
    | _ => rfl
  | ldSt =>
    cases c with
    | soundTimer => exact absurd (he _ ho (by decide)) hn
    | _ => rfl
  | bcd =>
    rw [ho] at hf
    rw [perform, storeDecimal, if_pos (Memory.fault?_eq_none.1 hf)]
    refine Cell.same_memory _ fun a ha => ?_
    have hout : a.val < m.i.toNat ∨ m.i.toNat + 3 ≤ a.val := by
      by_contra hin
      exact hn (ha ▸ .inl ⟨he _ ho (by decide), by omega, by omega⟩)
    exact m.memory.getElem_store_of_outside a.isLt rfl hout
  | store =>
    rw [ho] at hf
    rw [perform, storeRegisters_eq (Memory.fault?_eq_none.1 hf)]
    refine Cell.same_memory _ fun a ha => ?_
    have hout : a.val < m.i.toNat ∨ m.i.toNat + (m.operands.x.val + 1) ≤ a.val := by
      by_contra hin
      exact hn (ha ▸ .inr ⟨he _ ho (by decide), by omega, by omega⟩)
    exact m.memory.getElem_store_of_outside a.isLt (m.length_registers m.operands.x) hout

theorem same_step (hw : ¬m.Writes c) : c.Same m m.step := by
  cases m.tick with
  | halted f hs h | idle hs hk h =>
    rw [h]
    exact .refl m c
  | key j hs hj h =>
    have hgo : m.step.isFaulted = false := by rw [h]; rfl
    rw [h]
    refine Cell.same_registers m.pc _ fun k hk => ?_
    have hne : m.waitRegister.toNat ≠ k.val := by
      intro hk'
      have hend : m.Names (.register k) :=
        .inr (.inr (.inr ⟨hs, ⟨j, (Keypad.get_of_lowest?_some hj).1⟩, hk'⟩))
      exact hw ⟨hk ▸ hend, hgo⟩
    exact Vector.getElem_setIfInBounds_ne k.isLt hne
  | ended hs hp h | stopped f hs hp hf h =>
    rw [h]
    exact c.same_control m _ _
  | performed hs hp hf h =>
    have hgo : m.step.isFaulted = false := by
      rw [isFaulted, step_status hs hp hf]
      split <;> rfl
    rw [h]
    exact same_of_performed hs hp hf fun hn => hw ⟨hn, hgo⟩

theorem same_cycles {n : Nat} (hw : ∀ k < n, ¬(m.cycles k).Writes c) :
    c.Same m (m.cycles n) := by
  induction n generalizing m with
  | zero => exact .refl m c
  | succ n ih =>
    obtain ⟨hfirst, hrest⟩ := Nat.forall_lt_succ_left.1 hw
    exact (same_step hfirst).trans (ih hrest)

theorem writes_of_changed {n : Nat} (h : ¬c.Same m (m.cycles n)) :
    ∃ k < n, (m.cycles k).Writes c := by
  by_contra hnone
  refine h (same_cycles ?_)
  intro k hk hw
  exact hnone ⟨k, hk, hw⟩

/-- Whatever a program does, its own code included: a cell that differs behind a run, whose ticks
were asked for at once or one by one, was written by a tick of that run, with a word that names it.
So the font stays as it is while no stored range meets it. -/
theorem changed_cells_written (m m' : Machine) (n : Nat)
    (h : m.cycles? n = .ok m' ∨ m.cycles n = m') :
    (∀ c : Cell, ¬c.Same m m' → ∃ k < n, (m.cycles k).Writes c) ∧
    ((∀ k < n, ∀ a : Fin 4096, 0x050 ≤ a.val → a.val ≤ 0x09F →
        ¬(m.cycles k).Writes (.byte a)) →
      ∀ a : Fin 4096, 0x050 ≤ a.val → a.val ≤ 0x09F → m'.memory.get a = m.memory.get a) := by
  obtain rfl : m.cycles n = m' := h.elim (fun h => (cycles?_eq_ok h).symm) id
  refine ⟨fun c => writes_of_changed, ?_⟩
  intro hfont a hlo hhi
  exact same_cycles (c := .byte a) fun k hk => hfont k hk a hlo hhi

/-- Stores the byte 65 in front of the byte 2A and so executes 652A, which it did not contain. -/
def writesItself : Machine :=
  { create ⟨0, 0⟩ with
    memory := Memory.zeros.store 0x200 [0xA2, 0x04, 0xF0, 0x55, 0x00, 0x2A]
    v := (Vector.replicate 16 0).set 0 0x65 }

theorem cycles_writesItself :
    (writesItself.cycles 3).reg 5 ≠ writesItself.reg 5 ∧
      ∀ k < 3, ¬(writesItself.cycles k).Executes .bcd ∧
        ((writesItself.cycles k).Executes .store → 0x204 ≤ (writesItself.cycles k).i) := by
  decide +kernel

theorem changed_cells_written_writesItself :
    ∃ m', writesItself.cycles? 3 = .ok m' ∧ m'.reg 5 ≠ writesItself.reg 5 ∧
      (∃ k < 3, (writesItself.cycles k).Writes (.register 5)) ∧
      m'.memory.get 0x050 = writesItself.memory.get 0x050 := by
  obtain ⟨hne, hwords⟩ := cycles_writesItself
  have hrun : writesItself.cycles? 3 = .ok (writesItself.cycles 3) := cycles?_of_lt (by decide)
  obtain ⟨hcell, hfont⟩ := changed_cells_written writesItself _ 3 (.inl hrun)
  refine ⟨_, hrun, hne, hcell (.register 5) hne, hfont ?_ 0x050 (by decide) (by decide)⟩
  intro k hk a hlo hhi hw
  obtain ⟨hb, hs⟩ := hwords k hk
  obtain ⟨⟨he, -⟩ | ⟨he, hle, -⟩, -⟩ := hw
  · exact hb he
  · have hi : 0x204 ≤ (writesItself.cycles k).i.toNat := hs he
    omega

end Machine
end Chip8
