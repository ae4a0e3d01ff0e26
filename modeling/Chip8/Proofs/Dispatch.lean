import Chip8.Machine.Execute
import Mathlib.Data.Fintype.Basic
import Mathlib.Tactic.FinCases

/-! The run-time switch and the table look-up choose the same variant: executing a word is the
transition of the variant that the tables name, and words without a variant are ignored. -/
namespace Chip8

theorem lookup_cons_of_ne {α β : Type} [DecidableEq α] {k a : α} (h : k ≠ a) (v : β)
    (l : List (α × β)) : ((a, v) :: l).lookup k = l.lookup k := by
  rw [List.lookup_cons, beq_false_of_ne h]

/-- Looking a key up in a zipped table is reading the second list where the first one has it. -/
theorem lookup_zip {α β : Type} [DecidableEq α] (k : α) (ks : List α) (vs : List β)
    (h : ks.length = vs.length) : (ks.zip vs).lookup k = vs[ks.findIdx (· = k)]? := by
  induction ks generalizing vs with
  | nil =>
    cases vs with
    | nil => rfl
    | cons v vs => simp at h
  | cons a ks ih =>
    cases vs with
    | nil => simp at h
    | cons v vs =>
      have ht : ks.length = vs.length := by simpa using h
      by_cases ha : k = a
      · simp [List.findIdx_cons, ha]
      · rw [List.zip_cons_cons, lookup_cons_of_ne ha, ih vs ht]
        simp [List.findIdx_cons, Ne.symm ha]

theorem Opcode.classify_natCast {w : Nat} (h : w < 65536) :
    classify w = ofFields (Instruction.decode w) := by
  rw [classify, Instruction.low_natCast h]

namespace Machine

section Words
variable [Randomness]

theorem system_eq_perform (d : Instruction) (m : Machine) :
    m.system d = ((Opcode.bySystemWord.lookup d.raw).getD .unknown).perform d m := by
  by_cases hc : d.raw = 0x00E0
  · simp [system, Opcode.bySystemWord, Opcode.perform, hc]
  · rw [system, if_neg hc, Opcode.bySystemWord, lookup_cons_of_ne hc]
    by_cases hr : d.raw = 0x00EE
    · simp [Opcode.perform, hr]
    · rw [if_neg hr, lookup_cons_of_ne hr]
      rfl

theorem arithmeticWord_eq_perform (d : Instruction) (m : Machine) :
    m.arithmeticWord d =
      ((Opcode.byArithmeticDigit.lookup d.n).getD .unknown).perform d m := by
  obtain ⟨raw, opcode, x, y, n, nn, nnn⟩ := d
  -- digit by digit: the mask and the moved place of E have no closed form
  fin_cases n <;> rfl

theorem skipOnKey_eq_perform (d : Instruction) (m : Machine) :
    m.skipOnKey d = ((Opcode.byKeyByte.lookup d.nn).getD .unknown).perform d m := by
  by_cases hp : d.nn = 0x9E
  · simp [skipOnKey, Opcode.byKeyByte, Opcode.perform, skipIfKey, hp]
  · rw [Opcode.byKeyByte, lookup_cons_of_ne hp]
    by_cases hr : d.nn = 0xA1
    · simp [skipOnKey, Opcode.perform, skipUnlessKey, hr]
    · rw [lookup_cons_of_ne hr]
      simp [skipOnKey, Opcode.perform, skipIf, hp, hr]

def miscOpcodes : List Opcode :=
  [.ldVxDt, .ldKey, .ldDt, .ldSt, .addI, .ldFont, .bcd, .store, .load]

theorem misc_eq_perform (d : Instruction) (m : Machine) :
    m.misc d = ((Opcode.byMiscByte.lookup d.nn).getD .unknown).perform d m := by
  have hz : Opcode.byMiscByte = miscBytes.zip miscOpcodes := rfl
  rw [hz, lookup_zip d.nn miscBytes miscOpcodes rfl, misc]
  match miscBytes.findIdx (· = d.nn) with
  | 0 | 1 | 2 | 3 | 4 | 5 | 6 | 7 | 8 => rfl
  | _ + 9 => rfl

theorem skipIf_digit {c : Bool} {n : Fin 16} {o : Opcode} {d : Instruction} {m : Machine}
    (h : o.perform d m = m.skipIf c) :
    m.skipIf (c && n = 0) = (if n ≠ 0 then Opcode.unknown else o).perform d m := by
  by_cases hn : n = 0
  · simp [hn, h]
  · simp [hn, skipIf, Opcode.perform]

/-- The two decoders agree on all fields, also on those that no word has. -/
theorem dispatch_eq_perform (d : Instruction) (m : Machine) :
    m.dispatch d = (Opcode.ofFields d).perform d m := by
  have h0 := system_eq_perform d m
  have h5 : m.skipIf (m.reg d.x = m.reg d.y && d.n = 0) = _ :=
    skipIf_digit (o := .seReg) (d := d) rfl
  have h8 := arithmeticWord_eq_perform d m
  have h9 : m.skipIf (m.reg d.x ≠ m.reg d.y && d.n = 0) = _ :=
    skipIf_digit (o := .sneReg) (d := d) rfl
  have hE := skipOnKey_eq_perform d m
  have hF := misc_eq_perform d m
  obtain ⟨raw, opcode, x, y, n, nn, nnn⟩ := d
  fin_cases opcode
  exacts [h0, rfl, rfl, rfl, rfl, h5, rfl, rfl, h8, h9, rfl, rfl, rfl, rfl, hE, hF]

end Words

/-! ### Ticks -/

def opcode (m : Machine) : Opcode := Opcode.classify m.wordAt.toNat

def operands (m : Machine) : Instruction := Instruction.decode m.wordAt.toNat

/-- The machine behind a fetch that has room to advance. -/
def fetched (m : Machine) : Machine := { m with pc := m.pc + 2 }

theorem fetch_of_lt {m : Machine} (h : m.pc.toNat < 4094) : m.fetch = (m.fetched, m.wordAt) := by
  have hn : ¬m.pc.toNat + 2 ≥ Memory.size := by simp only [Memory.size]; omega
  rw [fetch, if_neg hn]
  rfl

theorem fetch_of_ge {m : Machine} (h : 4094 ≤ m.pc.toNat) :
    m.fetch = (m.fault .endOfMemory, m.wordAt) := by
  have hp : m.pc.toNat + 2 ≥ Memory.size := by simp only [Memory.size]; omega
  rw [fetch, if_pos hp]

theorem isFaulted_fetch {m : Machine} (hs : m.status = .running) :
    m.fetch.1.isFaulted = decide (4094 ≤ m.pc.toNat) := by
  by_cases h : 4094 ≤ m.pc.toNat
  · rw [fetch_of_ge h]
    simp [isFaulted, fault, Status.isHalted, h]
  · rw [fetch_of_lt (by omega)]
    simp [isFaulted, fetched, hs, Status.isHalted, h]

theorem fetched_pc {m : Machine} (h : m.pc.toNat < 4094) :
    m.fetched.pc.toNat = m.pc.toNat + 2 := by
  simp only [fetched, UInt16.toNat_add, UInt16.reduceToNat]
  omega

section Step
variable [Randomness]

theorem execute_eq_perform (w : UInt16) (m : Machine) :
    m.execute w.toNat = (Opcode.classify w.toNat).perform (Instruction.decode w.toNat) m := by
  rw [execute, dispatch_eq_perform, Opcode.classify_natCast w.toNat_lt]

theorem step_of_running {m : Machine} (hs : m.status = .running) (h : m.pc.toNat < 4094) :
    m.step = m.opcode.perform m.operands m.fetched := by
  have hf : m.fetched.isFaulted = false := by simp [isFaulted, fetched, hs, Status.isHalted]
  simp only [step, hs, advance, fetch_of_lt h, hf]
  exact execute_eq_perform m.wordAt m.fetched

theorem step_at_end {m : Machine} (hs : m.status = .running) (h : 4094 ≤ m.pc.toNat) :
    m.step = m.fault .endOfMemory := by
  simp only [step, hs, advance, fetch_of_ge h]
  rfl

/-- Executing a word of sixteen bits is the transition of its variant. Unknown words change
nothing, and a tick that fetches one only moves the program counter on. -/
theorem execute_classified (m : Machine) (w : UInt16) :
    m.execute w.toNat = (Opcode.classify w.toNat).perform (Instruction.decode w.toNat) m ∧
    (Opcode.classify w.toNat = .unknown → m.execute w.toNat = m) ∧
    (m.status = .running → m.fetch.1.isFaulted = false → m.fetch.2 = w →
      Opcode.classify w.toNat = .unknown →
      m.step = { m with pc := m.pc + 2 } ∧ m.step.pc.toNat = m.pc.toNat + 2) := by
  refine ⟨execute_eq_perform w m, ?_, ?_⟩
  · intro hu
    rw [execute_eq_perform, hu]
    rfl
  · intro hs hf hw hu
    have hlt : m.pc.toNat < 4094 := by simpa [isFaulted_fetch hs] using hf
    have ho : m.opcode = .unknown := by
      rw [fetch_of_lt hlt] at hw
      rw [opcode, show m.wordAt = w from hw, hu]
    have hstep : m.step = m.fetched := by
      rw [step_of_running hs hlt, ho]
      rfl
    refine ⟨hstep, ?_⟩
    rw [hstep, fetched_pc hlt]

end Step

/-- The boot machine fetches the unknown word 0000. -/
theorem execute_classified_boot :
    (Machine.create ⟨0, 0⟩).step.pc.toNat = 0x202 :=
  ((execute_classified (create ⟨0, 0⟩) 0).2.2 rfl (by decide +kernel) (by decide +kernel)
    (by decide)).2

end Machine
end Chip8
