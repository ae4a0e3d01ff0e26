import Chip8.Proofs.Dispatch

/-! What a variant does to the control of a machine: the fault that it runs into before it writes
anything, and otherwise the status, program counter, stack and wait register that it leaves. -/
namespace Chip8
variable {o : Opcode} {d : Instruction} {m : Machine} {f : Fault}

theorem setIfInBounds_eq_set {α : Type} {n i : Nat} (xs : Vector α n) (a : α) (h : i < n) :
    xs.setIfInBounds i a = xs.set i a := by
  apply Vector.ext
  intro j hj
  rw [Vector.getElem_setIfInBounds, Vector.getElem_set]

def Memory.fault? (a n : Nat) : Option Fault :=
  if Holds a n then none else some .memoryOutOfBounds

theorem Memory.fault?_eq_none {a n : Nat} : fault? a n = none ↔ Holds a n := by
  by_cases h : Holds a n <;> simp [fault?, h]

theorem Memory.fault?_eq_some {a n : Nat} :
    fault? a n = some f ↔ ¬Holds a n ∧ f = .memoryOutOfBounds := by
  by_cases h : Holds a n <;> simp [fault?, h, eq_comm]

namespace Opcode

/-- The fault that stops a variant before it writes anything. -/
def fault? (o : Opcode) (d : Instruction) (m : Machine) : Option Fault :=
  match o with
  | ret => if m.stack.isEmpty then some .stackUnderflow else none
  | call => if m.stack.isFull then some .stackOverflow else none
  | jpV0 => Memory.fault? (d.nnn.val + (m.reg 0).toNat) 1
  | drw => Memory.fault? m.i.toNat d.n.val
  | bcd => Memory.fault? m.i.toNat 3
  | store | load => Memory.fault? m.i.toNat (d.x.val + 1)
  | _ => none

def skips (o : Opcode) (d : Instruction) (m : Machine) : Bool :=
  match o with
  | seImm => m.reg d.x = d.nn
  | sneImm => m.reg d.x ≠ d.nn
  | seReg => m.reg d.x = m.reg d.y
  | sneReg => m.reg d.x ≠ m.reg d.y
  | skp => m.keyHeld d.x
  | sknp => !m.keyHeld d.x
  | _ => false

/-- The program counter behind a variant, from a machine that has passed the word. -/
def pcAfter (o : Opcode) (d : Instruction) (m : Machine) : UInt16 :=
  match o with
  | jp | call => UInt16.ofNat d.nnn.val
  | ret => m.stack.pop.2
  | jpV0 => UInt16.ofNat (d.nnn.val + (m.reg 0).toNat)
  | _ => if o.skips d m then m.pc + 2 else m.pc

def stackAfter (o : Opcode) (m : Machine) : CallStack :=
  match o with
  | call => m.stack.push m.pc
  | ret => m.stack.pop.1
  | _ => m.stack

end Opcode

/-- The fields that decide what a machine does next. -/
structure Control where
  status : Status
  pc : UInt16
  stack : CallStack
  waitRegister : UInt8

namespace Machine

def control (m : Machine) : Control := ⟨m.status, m.pc, m.stack, m.waitRegister⟩

theorem skipIf_eq (c : Bool) (m : Machine) :
    m.skipIf c = { m with pc := if c then m.pc + 2 else m.pc } := by
  cases c <;> rfl

theorem arithmetic_eq (op : Alu) (x y : Fin 16) (m : Machine) :
    m.arithmetic op x y = { m with v := (m.arithmetic op x y).v } := by
  cases op <;> rfl

theorem reg_arithmetic (m : Machine) (op : Alu) (x y k : Fin 16) :
    (m.arithmetic op x y).reg k =
      match op.flag? (m.reg x) (m.reg y) with
      | some f => if k = 15 then f else if k = x then op.result (m.reg x) (m.reg y) else m.reg k
      | none => if k = x then op.result (m.reg x) (m.reg y) else m.reg k := by
  rw [arithmetic]
  cases op.flag? (m.reg x) (m.reg y) with
  | none => exact reg_setRegister m x k _
  | some f =>
    change ((m.setRegister x _).setRegister 15 f).reg k = _
    rw [reg_setRegister, reg_setRegister]

end Machine

namespace Opcode

def controlAfter (o : Opcode) (d : Instruction) (m : Machine) : Control where
  status := if o = ldKey then .awaitingKey else m.status
  pc := o.pcAfter d m
  stack := o.stackAfter m
  waitRegister := if o = ldKey then UInt8.ofNat d.x.val else m.waitRegister

theorem fault?_ret : ret.fault? d m = some f ↔ m.stack.isEmpty = true ∧ f = .stackUnderflow := by
  rw [fault?, Option.ite_none_right_eq_some, Option.some.injEq, @eq_comm _ f]

theorem fault?_call : call.fault? d m = some f ↔ m.stack.isFull = true ∧ f = .stackOverflow := by
  rw [fault?, Option.ite_none_right_eq_some, Option.some.injEq, @eq_comm _ f]

theorem perform_of_fault [Randomness] (h : o.fault? d m = some f) : o.perform d m = m.fault f := by
  cases o with
  | ret =>
    obtain ⟨hs, rfl⟩ := fault?_ret.1 h
    rw [perform, Machine.returnFrom, if_pos hs]
  | call =>
    obtain ⟨hs, rfl⟩ := fault?_call.1 h
    rw [perform, Machine.call, if_pos hs]
  | jpV0 | drw | bcd | store | load =>
    obtain ⟨hn, rfl⟩ := Memory.fault?_eq_some.1 h
    simp [perform, Machine.jumpOffset, Machine.draw, Machine.storeDecimal,
      Machine.storeRegisters, Machine.loadRegisters, hn]
  | _ => simp [fault?] at h

/-- A variant that is not stopped: only waiting for a key touches the status and the wait
register, only calls and returns touch the stack. -/
theorem perform_control [Randomness] (h : o.fault? d m = none) :
    (o.perform d m).control = o.controlAfter d m := by
  cases o with
  | ret =>
    have hs : m.stack.isEmpty = false := by simpa [fault?] using h
    rw [perform, Machine.returnFrom, hs]
    rfl
  | call =>
    have hs : m.stack.isFull = false := by simpa [fault?] using h
    rw [perform, Machine.call, hs]
    rfl
  | jpV0 =>
    rw [perform, Machine.jumpOffset, if_pos (Memory.fault?_eq_none.1 h)]
    rfl
  | drw =>
    rw [perform, Machine.draw, if_pos (Memory.fault?_eq_none.1 h)]
    rfl
  | bcd =>
    rw [perform, Machine.storeDecimal, if_pos (Memory.fault?_eq_none.1 h)]
    rfl
  | store =>
    rw [perform, Machine.storeRegisters, if_pos (Memory.fault?_eq_none.1 h)]
    rfl
  | load =>
    rw [perform, Machine.loadRegisters, if_pos (Memory.fault?_eq_none.1 h)]
    rfl
  | seImm | sneImm | seReg | sneReg | skp | sknp => exact congrArg _ (Machine.skipIf_eq _ m)
  | ldReg | or | and | xor | addReg | sub | shr | subn | shl =>
    rw [perform, Machine.arithmetic_eq]
    rfl
  | _ => rfl

theorem fault?_fetched (o : Opcode) (d : Instruction) (m : Machine) :
    o.fault? d m.fetched = o.fault? d m := by
  cases o <;> rfl

end Opcode

namespace Machine

theorem isFaulted_iff : m.isFaulted = true ↔ ∃ f, m.status = .halted f := by
  cases h : m.status <;> simp [isFaulted, h, Status.isHalted]

theorem isFaulted_of_running (h : m.status = .running) : m.isFaulted = false := by
  rw [isFaulted, h]
  rfl

theorem isFaulted_of_halted {f : Fault} (h : m.status = .halted f) : m.isFaulted = true :=
  isFaulted_iff.2 ⟨f, h⟩

theorem failure?_eq_none : m.failure? = none ↔ m.isFaulted = false := by
  cases hs : m.status with
  | running | awaitingKey => simp [failure?, isFaulted, hs, Status.isHalted]
  | halted f => cases f <;> simp [failure?, isFaulted, hs, Status.isHalted, Cause.ofFault?]

theorem isFaulted_of_failure {e : Failure} (h : m.failure? = some e) : m.isFaulted = true := by
  rw [← Bool.not_eq_false, ← failure?_eq_none, h]
  exact Option.some_ne_none e

theorem load_of_length (m : Machine) (image : List UInt8) (h : image.length ≤ 3584) :
    ∃ m', m.load image = .ok m' := by
  have hn : ¬image.length > Memory.maxRomSize := Nat.not_lt_of_le h
  exact ⟨_, by rw [load, if_neg hn]⟩

theorem load_eq {image : List UInt8} {m' : Machine} (h : m.load image = .ok m') :
    m' = { m with memory := m'.memory } := by
  rw [load] at h
  split at h
  · cases h
  · cases h
    rfl

theorem load_control {image : List UInt8} {m' : Machine} (h : m.load image = .ok m') :
    m'.control = m.control := by
  rw [load_eq h]
  rfl

section Ticks
variable [Randomness]

theorem step_of_halted (h : m.status = .halted f) : m.step = m := by
  simp only [step, h]

theorem cycles_of_halted (h : m.status = .halted f) (n : Nat) : m.cycles n = m := by
  induction n with
  | zero => rfl
  | succ n ih => rw [cycles, step_of_halted h, ih]

theorem cycles_of_step_halted (h : m.step.status = .halted f) {n : Nat} (hn : 0 < n) :
    m.cycles n = m.step := by
  obtain ⟨k, rfl⟩ := Nat.exists_eq_succ_of_ne_zero hn.ne'
  exact cycles_of_halted h k

theorem cycles?_of_lt {n : Nat} (h : n < 0x80000000) : m.cycles? n = .ok (m.cycles n) := by
  have hlo : (-0x80000000 : Int) ≤ n := by omega
  have hhi : (n : Int) < 0x80000000 := by omega
  rw [cycles?, if_pos ⟨hlo, hhi⟩, Int.toNat_natCast]

theorem cycles?_of_ge {n : Nat} (h : 0x80000000 ≤ n) : m.cycles? n = .error .outOfRange := by
  have hn : ¬((-0x80000000 : Int) ≤ n ∧ (n : Int) < 0x80000000) := by omega
  rw [cycles?, if_neg hn]

theorem cycles?_of_halted (h : m.status = .halted f) (n : Int) :
    m.cycles? n = if -0x80000000 ≤ n ∧ n < 0x80000000 then .ok m else .error .outOfRange := by
  rw [cycles?, cycles_of_halted h]

theorem cycles?_eq_ok {n : Int} {m' : Machine} (h : m.cycles? n = .ok m') :
    m' = m.cycles n.toNat := by
  rw [cycles?] at h
  split at h
  · cases h
    rfl
  · cases h

theorem frame?_eq_ok {n : Int} {m' : Machine} (h : m.frame? n = .ok m') :
    m' = (m.cycles n.toNat).tickTimers := by
  cases hc : m.cycles? n with
  | error e => simp [frame?, hc, Except.map] at h
  | ok m₁ =>
    rw [frame?, hc, cycles?_eq_ok hc] at h
    cases h
    rfl

theorem step_of_no_key (hs : m.status = .awaitingKey) (hk : m.keypad.lowest? = none) :
    m.step = m := by
  simp only [step, hs, awaitKey, hk]

theorem step_of_key {k : Fin 16} (hs : m.status = .awaitingKey) (hk : m.keypad.lowest? = some k) :
    m.step = { m with
      v := m.v.setIfInBounds m.waitRegister.toNat (UInt8.ofNat k.val)
      status := .running } := by
  simp only [step, hs, awaitKey, hk]

theorem step_of_fault (hs : m.status = .running) (h : m.pc.toNat < 4094)
    (hf : m.opcode.fault? m.operands m = some f) : m.step = m.fetched.fault f := by
  rw [step_of_running hs h]
  exact Opcode.perform_of_fault ((Opcode.fault?_fetched _ _ m).trans hf)

theorem step_control (hs : m.status = .running) (h : m.pc.toNat < 4094)
    (hf : m.opcode.fault? m.operands m = none) :
    m.step.control = m.opcode.controlAfter m.operands m.fetched := by
  rw [step_of_running hs h]
  exact Opcode.perform_control ((Opcode.fault?_fetched _ _ m).trans hf)

theorem step_status (hs : m.status = .running) (h : m.pc.toNat < 4094)
    (hf : m.opcode.fault? m.operands m = none) :
    m.step.status = if m.opcode = .ldKey then .awaitingKey else .running := by
  have hc : m.step.status = if m.opcode = .ldKey then .awaitingKey else m.status :=
    congrArg Control.status (step_control hs h hf)
  rw [hc, hs]

theorem step_pc (hs : m.status = .running) (h : m.pc.toNat < 4094)
    (hf : m.opcode.fault? m.operands m = none) :
    m.step.pc = m.opcode.pcAfter m.operands m.fetched :=
  congrArg Control.pc (step_control hs h hf)

/-- All that a tick can do. -/
inductive Tick (m : Machine) : Prop where
  | halted (f : Fault) (hs : m.status = .halted f) (h : m.step = m)
  | idle (hs : m.status = .awaitingKey) (hk : m.keypad.lowest? = none) (h : m.step = m)
  | key (k : Fin 16) (hs : m.status = .awaitingKey) (hk : m.keypad.lowest? = some k)
      (h : m.step = { m with
        v := m.v.setIfInBounds m.waitRegister.toNat (UInt8.ofNat k.val)
        status := .running })
  | ended (hs : m.status = .running) (hp : 4094 ≤ m.pc.toNat) (h : m.step = m.fault .endOfMemory)
  | stopped (f : Fault) (hs : m.status = .running) (hp : m.pc.toNat < 4094)
      (hf : m.opcode.fault? m.operands m = some f) (h : m.step = m.fetched.fault f)
  | performed (hs : m.status = .running) (hp : m.pc.toNat < 4094)
      (hf : m.opcode.fault? m.operands m = none)
      (h : m.step = m.opcode.perform m.operands m.fetched)

theorem tick (m : Machine) : m.Tick := by
  cases hs : m.status with
  | halted f => exact .halted f hs (step_of_halted hs)
  | awaitingKey =>
    cases hk : m.keypad.lowest? with
    | none => exact .idle hs hk (step_of_no_key hs hk)
    | some k => exact .key k hs hk (step_of_key hs hk)
  | running =>
    by_cases hp : 4094 ≤ m.pc.toNat
    · exact .ended hs hp (step_at_end hs hp)
    have hlt : m.pc.toNat < 4094 := by omega
    cases hf : m.opcode.fault? m.operands m with
    | some f => exact .stopped f hs hlt hf (step_of_fault hs hlt hf)
    | none => exact .performed hs hlt hf (step_of_running hs hlt)

end Ticks

end Machine
end Chip8
