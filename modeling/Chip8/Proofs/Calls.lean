import Chip8.Proofs.CallStack

/-! Calls and returns along a run. The stack holds the addresses behind the calls that have not
returned yet, a return goes on behind its call, and a balanced run leaves the stack as it was. -/
namespace Chip8
open Opcode Instruction

namespace Machine
variable {m : Machine} {w : Nat}

/-- The call or return that a tick completes. -/
def transfer? (m : Machine) : Option Transfer :=
  if m.step.isFaulted then none
  else
    match m.word? with
    | some w =>
      if w / 0x1000 = 0x2 then some (.call (m.pc + 2))
      else if w = 0x00EE then some (.ret m.step.pc)
      else none
    | none => none

end Machine

def Action.transfer? (m : Machine) : Action → Option Transfer
  | step => m.transfer?
  | _ => none

/-- The calls and returns of a run, in order. -/
def Machine.transfers : List Action → Machine → List Transfer
  | [], _ => []
  | a :: as, m => (a.transfer? m).toList ++ transfers as (a.apply m)

namespace Machine
variable {m : Machine} {w : Nat}

theorem opcode_eq_call_iff (hp : m.pc.toNat < 4094) :
    m.opcode = .call ↔ m.bigEndian / 0x1000 = 0x2 := by
  rw [opcode, classify_eq_iff_class (a := 0x2) (by decide), wordAt_toNat hp]
  rfl

theorem opcode_eq_ret_iff (hp : m.pc.toNat < 4094) :
    m.opcode = .ret ↔ m.bigEndian = 0x00EE := by
  rw [opcode, classify_eq_iff_system (r := 0x00EE) (by decide), wordAt_toNat hp]
  omega

theorem operands_nnn (hp : m.pc.toNat < 4094) : m.operands.nnn.val = m.bigEndian % 0x1000 := by
  rw [operands, decode_nnn m.wordAt.toNat_lt, wordAt_toNat hp]

theorem isFull_iff_length (hle : m.stack.pointer.toNat ≤ 16) :
    m.stack.isFull = true ↔ ¬m.stack.toList.length < 16 := by
  rw [CallStack.isFull_iff, CallStack.length_toList hle, Nat.not_lt]

theorem isEmpty_iff_toList (hle : m.stack.pointer.toNat ≤ 16) :
    m.stack.isEmpty = true ↔ m.stack.toList = [] := by
  rw [CallStack.isEmpty_iff, ← CallStack.length_toList hle, List.length_eq_zero_iff]

/-- A call with room for its return address appends it and jumps. -/
theorem step_of_call (hle : m.stack.pointer.toNat ≤ 16) (hw : m.word? = some w)
    (hc : w / 0x1000 = 0x2) :
    if m.stack.toList.length < 16 then
      m.step.stack.toList = m.stack.toList ++ [m.pc + 2] ∧ m.step.pc.toNat = w % 0x1000 ∧
        m.step.status = .running
    else m.step.status = .halted .stackOverflow ∧ m.step.stack = m.stack := by
  obtain ⟨hs, hp, rfl⟩ := word?_eq_some.1 hw
  have hstep : m.step = m.fetched.call m.operands.nnn := by
    rw [step_of_running hs hp, (opcode_eq_call_iff hp).2 hc]
    rfl
  have hfull : m.fetched.stack.isFull = m.stack.isFull := rfl
  rw [hstep, call, hfull, ← operands_nnn hp]
  by_cases hlen : m.stack.toList.length < 16
  · have hf : m.stack.isFull = false := by
      rw [← Bool.not_eq_true, isFull_iff_length hle]
      exact not_not_intro hlen
    rw [if_pos hlen, hf, if_neg Bool.false_ne_true]
    refine ⟨CallStack.toList_push hf _, ?_, hs⟩
    have hnnn := m.operands.nnn.isLt
    simp only [jump, UInt16.toNat_ofNat']
    omega
  · rw [if_neg hlen, if_pos ((isFull_iff_length hle).2 hlen)]
    exact ⟨rfl, rfl⟩

/-- A return takes the last address off and goes on there. -/
theorem step_of_ret (hle : m.stack.pointer.toNat ≤ 16) (hw : m.word? = some 0x00EE) :
    if m.stack.toList = [] then
      m.step.status = .halted .stackUnderflow ∧ m.step.stack = m.stack
    else
      m.step.stack.toList ++ [m.step.pc] = m.stack.toList ∧ m.step.status = .running := by
  obtain ⟨hs, hp, he⟩ := word?_eq_some.1 hw
  have hstep : m.step = m.fetched.returnFrom := by
    rw [step_of_running hs hp, (opcode_eq_ret_iff hp).2 he]
    rfl
  have hempty : m.fetched.stack.isEmpty = m.stack.isEmpty := rfl
  rw [hstep, returnFrom, hempty]
  by_cases hnil : m.stack.toList = []
  · rw [if_pos hnil, if_pos ((isEmpty_iff_toList hle).2 hnil)]
    exact ⟨rfl, rfl⟩
  · have hf : m.stack.isEmpty = false := by
      rw [← Bool.not_eq_true, isEmpty_iff_toList hle]
      exact hnil
    rw [if_neg hnil, hf, if_neg Bool.false_ne_true]
    exact ⟨CallStack.toList_pop hle hf, hs⟩

theorem step_stack_of_other
    (h : ∀ w, m.word? = some w → w / 0x1000 ≠ 0x2 ∧ w ≠ 0x00EE) : m.step.stack = m.stack := by
  cases m.tick with
  | halted f hs he | idle hs hk he | key k hs hk he => rw [he]
  | ended hs hp he | stopped f hs hp hf he =>
    rw [he]
    rfl
  | performed hs hp hf _ =>
    obtain ⟨hc, hr⟩ := h m.bigEndian (word?_eq_some.2 ⟨hs, hp, rfl⟩)
    have hstack : m.step.stack = m.opcode.stackAfter m.fetched :=
      congrArg Control.stack (step_control hs hp hf)
    rw [hstack]
    cases ho : m.opcode with
    | call => exact absurd ((opcode_eq_call_iff hp).1 ho) hc
    | ret => exact absurd ((opcode_eq_ret_iff hp).1 ho) hr
    | _ => rfl

/-- A tick does to the list of addresses what its call or return says. -/
theorem step_lifo (hle : m.stack.pointer.toNat ≤ 16) :
    Lifo m.stack.toList m.transfer?.toList m.step.stack.toList := by
  rw [transfer?]
  cases hw : m.word? with
  | none =>
    rw [step_stack_of_other (by simp [hw]), ite_self]
    exact .nil _
  | some w =>
    by_cases hc : w / 0x1000 = 0x2
    · have hstep := step_of_call hle hw hc
      split at hstep
      · obtain ⟨hlist, -, hs⟩ := hstep
        rw [isFaulted_of_running hs, hlist]
        simp only [if_pos hc]
        exact .call (.nil _)
      · obtain ⟨hs, hstack⟩ := hstep
        rw [isFaulted_of_halted hs, hstack]
        exact .nil _
    by_cases hr : w = 0x00EE
    · subst hr
      have hstep := step_of_ret hle hw
      split at hstep
      · obtain ⟨hs, hstack⟩ := hstep
        rw [isFaulted_of_halted hs, hstack]
        exact .nil _
      · obtain ⟨hlist, hs⟩ := hstep
        rw [isFaulted_of_running hs, ← hlist]
        exact .ret (.nil _)
    · rw [step_stack_of_other (by simp [hw, hc, hr])]
      simp only [if_neg hc, if_neg hr, ite_self]
      exact .nil _

theorem run_lifo (h : m.control.WellFormed) (as : List Action) :
    Lifo m.stack.toList (m.transfers as) (m.run as).stack.toList := by
  induction as generalizing m with
  | nil => exact .nil _
  | cons a as ih =>
    refine Lifo.append_iff.2 ⟨(a.apply m).stack.toList, ?_, ih (h.apply a)⟩
    cases a with
    | step => exact step_lifo h.stack.pointer_le
    | tick => exact .nil _
    | keys k => exact .nil _

/-- Equal lists are equal stacks, so a balanced run restores every slot. -/
theorem run_stack_of_balanced (h : m.control.WellFormed) {as : List Action}
    (hb : Balanced (m.transfers as)) : (m.run as).stack = m.stack :=
  (h.run as).stack.eq_of_toList h.stack (Lifo.eq_of_balanced hb (run_lifo h as))

/-- From the boot of a program that fits, along every run: a call appends the address behind it
and goes to its target while fewer than sixteen addresses are held, a return takes the last one
off and goes on there, and each of them faults otherwise; nothing else touches the stack. So the
stack lists the calls that have not returned, in order, every return goes on behind the call that
it answers, and a balanced run restores all slots and the pointer. -/
theorem stack_lifo (key : RandomKey) (image : List UInt8) (hl : image.length ≤ 3584) :
    ∃ m₀, (create key).load image = .ok m₀ ∧ ∀ as : List Action,
      let m := m₀.run as
      (∀ w, m.word? = some w → w / 0x1000 = 0x2 →
        if m.stack.toList.length < 16 then
          m.step.stack.toList = m.stack.toList ++ [m.pc + 2] ∧ m.step.pc.toNat = w % 0x1000 ∧
            m.step.status = .running
        else m.step.status = .halted .stackOverflow ∧ m.step.stack = m.stack) ∧
      (m.word? = some 0x00EE →
        if m.stack.toList = [] then
          m.step.status = .halted .stackUnderflow ∧ m.step.stack = m.stack
        else
          m.step.stack.toList ++ [m.step.pc] = m.stack.toList ∧ m.step.status = .running) ∧
      (∀ a : Action, (a = .step → ∀ w, m.word? = some w → w / 0x1000 ≠ 0x2 ∧ w ≠ 0x00EE) →
        (a.apply m).stack = m.stack) ∧
      Pending (m₀.transfers as) m.stack.toList ∧
      (∀ before inner after back next,
        m₀.transfers as = before ++ .call back :: inner ++ .ret next :: after →
        Balanced inner → next = back) ∧
      ∀ bs, Balanced (m.transfers bs) → (m.run bs).stack = m.stack := by
  obtain ⟨m₀, hb⟩ := load_of_length (create key) image hl
  have hc := load_control hb
  have h₀ : m₀.control.WellFormed := hc ▸ Control.WellFormed.boot
  refine ⟨m₀, hb, fun as => ?_⟩
  intro m
  have h : m.control.WellFormed := h₀.run as
  have hle := h.stack.pointer_le
  have hempty : m₀.stack.toList = [] := by
    rw [show m₀.stack = .empty from congrArg Control.stack hc]
    rfl
  have hrun : Lifo [] (m₀.transfers as) m.stack.toList := hempty ▸ run_lifo h₀ as
  refine ⟨fun w => step_of_call hle, step_of_ret hle, ?_, hrun.pending, ?_,
    fun bs => run_stack_of_balanced h⟩
  · intro a ha
    cases a with
    | step => exact step_stack_of_other (ha rfl)
    | tick => rfl
    | keys k => rfl
  · intro before inner after back next he hi
    exact Lifo.back_of_balanced hi (he ▸ hrun)

/-- Calls a subroutine that returns at once. -/
def callAndReturn : List UInt8 := [0x22, 0x04, 0x12, 0x02, 0x00, 0xEE]

theorem transfers_callAndReturn {m₀ : Machine}
    (hb : (create ⟨0, 0⟩).load callAndReturn = .ok m₀) :
    m₀.word? = some 0x2204 ∧ m₀.pc = 0x200 ∧ m₀.stack.toList = [] ∧
      m₀.transfers [.step, .step] = [.call 0x202, .ret 0x202] := by
  cases hb
  decide +kernel

/-- The call puts the one address behind it on the stack, the return takes it off again. -/
theorem stack_lifo_callAndReturn : ∃ m₀, (create ⟨0, 0⟩).load callAndReturn = .ok m₀ ∧
    m₀.step.stack.toList = [0x202] ∧ (m₀.run [.step, .step]).stack = m₀.stack := by
  obtain ⟨m₀, hb, h⟩ := stack_lifo ⟨0, 0⟩ callAndReturn (by decide)
  obtain ⟨hw, hpc, hnil, ht⟩ := transfers_callAndReturn hb
  obtain ⟨hcall, -, -, -, -, hbal⟩ := h []
  refine ⟨m₀, hb, ?_, hbal [.step, .step] ?_⟩
  · have hstep := hcall 0x2204 hw (by decide)
    rw [if_pos (by simp [run, hnil])] at hstep
    have hlist : m₀.step.stack.toList = m₀.stack.toList ++ [m₀.pc + 2] := hstep.1
    rw [hlist, hnil, hpc]
    decide
  · rw [show m₀.run [] = m₀ from rfl, ht]
    exact .nest 0x202 0x202 .nil .nil

end Machine
end Chip8
