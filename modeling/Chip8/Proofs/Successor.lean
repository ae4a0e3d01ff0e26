import Chip8.Proofs.Calls
import Chip8.Proofs.Executed
import Chip8.Proofs.ProgramCounter

/-! Where a tick goes on, read off the four digits of its word, and the three pairs of skips: on any
machine exactly one word of a pair skips, and it moves nothing but the program counter. -/
namespace Chip8
open Opcode Instruction

namespace Machine

/-- The word behind the next one if the condition holds, and the next one otherwise. -/
def past (m : Machine) (c : Bool) : Nat := m.pc.toNat + if c then 4 else 2

/-- The program counter behind a word. Words that no line names only go on to the next one. -/
def successor (m : Machine) (w : Nat) : Nat :=
  match digits w with
  | [0x0, 0x0, 0xE, 0xE] => (m.stack.toList.getLastD 0).toNat
  | [0x1, _, _, _] | [0x2, _, _, _] => w % 0x1000
  | [0x3, x, a, b] => m.past ((m.reg x).toNat = 16 * a.val + b.val)
  | [0x4, x, a, b] => m.past ((m.reg x).toNat ≠ 16 * a.val + b.val)
  | [0x5, x, y, 0x0] => m.past (m.reg x = m.reg y)
  | [0x9, x, y, 0x0] => m.past (m.reg x ≠ m.reg y)
  | [0xB, _, _, _] => w % 0x1000 + (m.reg 0).toNat
  | [0xE, x, 0x9, 0xE] => m.past (m.keypad.get (Fin.ofNat 16 (m.reg x).toNat))
  | [0xE, x, 0xA, 0x1] => m.past (!m.keypad.get (Fin.ofNat 16 (m.reg x).toNat))
  | _ => m.past false

/-- The first word skips the next one, and the second one does nothing. -/
def SkipsBy (m : Machine) (w w' : Nat) : Prop :=
  m.execute w = { m with pc := m.pc + 2 } ∧ m.execute w' = m

theorem keyHeld_eq (x : Fin 16) (m : Machine) :
    m.keyHeld x = m.keypad.get (Fin.ofNat 16 (m.reg x).toNat) := rfl

end Machine

namespace Opcode
variable {o : Opcode} {w : Nat} {m : Machine}

/-- The variants that may skip the next word. -/
def skipping : List Opcode := [seImm, sneImm, seReg, sneReg, skp, sknp]

/-- The program counter behind a variant, as a number. -/
def successor (o : Opcode) (d : Instruction) (m : Machine) : Nat :=
  match o with
  | jp | call => d.nnn.val
  | ret => (m.stack.toList.getLastD 0).toNat
  | jpV0 => d.nnn.val + (m.reg 0).toNat
  | _ => m.past (o.skips d m)

theorem eq_decode_nn_iff (hw : w < 65536) (b : UInt8) :
    b = (decode w).nn ↔ b.toNat = 16 * (nibble w 1).val + (nibble w 0).val := by
  have hlt : 16 * (nibble w 1).val + (nibble w 0).val < 256 := by omega
  rw [decode_nn hw, ← UInt8.toNat_inj, UInt8.toNat_ofNat_of_lt' hlt]

theorem successor_of_fits (hw : w < 65536) (h : o.Fits w) :
    m.successor w = o.successor (decode w) m := by
  cases o with
  | unknown => simp [Fits, places, digits] at h
  | seImm | sneImm =>
    simp only [Fits, places, digits, List.forall₂_cons, Place.Fits] at h
    simp [Machine.successor, successor, digits, skips, h, decode_x hw, eq_decode_nn_iff hw]
  | _ =>
    simp only [Fits, places, digits, List.forall₂_cons, Place.Fits] at h
    simp [Machine.successor, successor, digits, skips, h, decode_x hw, decode_y hw, decode_nnn hw,
      Machine.keyHeld_eq]

/-- Every line of the table but the last one is a pattern. -/
theorem successor_of_unknown (h : ∀ o : Opcode, ¬o.Fits w) : m.successor w = m.past false := by
  rw [Machine.successor]
  split
  · next hd => exact absurd (by simp [Fits, hd, places, Place.Fits]) (h ret)
  · next hd => exact absurd (by simp [Fits, hd, places, Place.Fits]) (h jp)
  · next hd => exact absurd (by simp [Fits, hd, places, Place.Fits]) (h call)
  · next hd => exact absurd (by simp [Fits, hd, places, Place.Fits]) (h seImm)
  · next hd => exact absurd (by simp [Fits, hd, places, Place.Fits]) (h sneImm)
  · next hd => exact absurd (by simp [Fits, hd, places, Place.Fits]) (h seReg)
  · next hd => exact absurd (by simp [Fits, hd, places, Place.Fits]) (h sneReg)
  · next hd => exact absurd (by simp [Fits, hd, places, Place.Fits]) (h jpV0)
  · next hd => exact absurd (by simp [Fits, hd, places, Place.Fits]) (h skp)
  · next hd => exact absurd (by simp [Fits, hd, places, Place.Fits]) (h sknp)
  · rfl

end Opcode

namespace Machine
variable {m : Machine} {o : Opcode} {c : Bool} {w w' : Nat}

theorem successor_bigEndian (hp : m.pc.toNat < 4094) :
    m.successor m.bigEndian = m.opcode.successor m.operands m := by
  have hw : m.wordAt.toNat < 65536 := m.wordAt.toNat_lt
  rw [← wordAt_toNat hp]
  by_cases ho : m.opcode = .unknown
  · rw [ho]
    refine successor_of_unknown fun o hf => ?_
    have ho' : m.opcode = o := by
      rw [Machine.opcode, classify_natCast hw, ofFields_of_fits hw hf]
    rw [← ho', ho] at hf
    cases hf
  · exact successor_of_fits hw ((classify_eq_iff m.wordAt ho).1 rfl)

theorem getLastD_toList (hle : m.stack.pointer.toNat ≤ 16) (he : m.stack.isEmpty = false) :
    m.stack.toList.getLastD 0 = m.stack.pop.2 := by
  rw [← CallStack.toList_pop hle he, List.getLastD_concat]

theorem toNat_skip (hp : m.pc.toNat ≤ 4093) (c : Bool) :
    (if c then m.fetched.pc + 2 else m.fetched.pc).toNat = m.past c := by
  have hnext := fetched_pc (m := m) (by omega)
  cases c with
  | false => exact hnext
  | true =>
    simp only [past, if_true, UInt16.toNat_add, UInt16.reduceToNat]
    omega

/-- The sixteen bits of the program counter hold every successor. -/
theorem toNat_pcAfter (hp : m.pc.toNat ≤ 4093) (hle : m.stack.pointer.toNat ≤ 16)
    (d : Instruction) (hf : o.fault? d m = none) :
    (o.pcAfter d m.fetched).toNat = o.successor d m := by
  have hnnn := d.nnn.isLt
  cases o with
  | jp | call =>
    simp only [pcAfter, Opcode.successor, UInt16.toNat_ofNat']
    omega
  | ret =>
    have he : m.stack.isEmpty = false := by simpa [fault?] using hf
    rw [pcAfter, Opcode.successor, getLastD_toList hle he]
    rfl
  | jpV0 =>
    have hh : d.nnn.val + (m.reg 0).toNat + 1 ≤ 4096 := Memory.fault?_eq_none.1 hf
    have hr : (m.fetched.reg 0).toNat = (m.reg 0).toNat := rfl
    simp only [pcAfter, Opcode.successor, UInt16.toNat_ofNat', hr]
    omega
  | _ =>
    simp only [pcAfter, Opcode.successor, skips_fetched]
    exact toNat_skip hp _

theorem step_pc_eq (hs : m.status = .running) (hp : m.pc.toNat ≤ 4093)
    (hle : m.stack.pointer.toNat ≤ 16) (hn : m.step.isFaulted = false) :
    m.step.pc.toNat = m.successor m.bigEndian := by
  have hlt : m.pc.toNat < 4094 := by omega
  cases hf : m.opcode.fault? m.operands m with
  | some f =>
    rw [isFaulted_of_halted ((step_inside hs hlt).2 hf)] at hn
    cases hn
  | none => rw [step_pc hs hlt hf, successor_bigEndian hlt, toNat_pcAfter hp hle _ hf]

theorem perform_of_skipping (ho : o ∈ skipping) (d : Instruction) (m : Machine) :
    o.perform d m = m.skipIf (o.skips d m) := by
  simp only [skipping, List.mem_cons, List.not_mem_nil, or_false] at ho
  rcases ho with rfl | rfl | rfl | rfl | rfl | rfl <;> rfl

/-- A skip touches nothing but the program counter, whether or not its condition holds. -/
theorem step_of_skipping (ho : o ∈ skipping) (h : m.Executes o) :
    m.step = { m with pc := m.step.pc } := by
  obtain ⟨hs, hp⟩ := h.ready
  rw [step_of_running hs hp, h.opcode_eq, perform_of_skipping ho, skipIf_eq]
  rfl

/-! ### Pairs of skips -/

theorem execute_skipping (ho : o ∈ skipping) (hw : w < 65536) (hf : o.Fits w) (m : Machine) :
    m.execute w = m.skipIf (o.skips (decode w) m) := by
  rw [execute_of_fits hw hf, perform_of_skipping ho]

theorem skipsBy_of_skipIf {p : Prop} [Decidable p] (h : m.execute w = m.skipIf (decide p))
    (h' : m.execute w' = m.skipIf (decide ¬p)) :
    if p then m.SkipsBy w w' else m.SkipsBy w' w := by
  by_cases hp : p
  · rw [if_pos hp]
    simpa [SkipsBy, skipIf, hp] using And.intro h h'
  · rw [if_neg hp]
    simpa [SkipsBy, skipIf, hp] using And.intro h' h

theorem eq_nn_word_iff (a x y z : Fin 16) (b : UInt8) :
    b = (decode (word a x y z)).nn ↔ b.toNat = 16 * y.val + z.val := by
  have hd := digits_word a x y z
  simp only [digits, List.cons.injEq] at hd
  obtain ⟨-, -, hy, hz, -⟩ := hd
  rw [eq_decode_nn_iff (word_lt a x y z), hy, hz]

theorem skips_immediate (m : Machine) (x y z : Fin 16) :
    if (m.reg x).toNat = 16 * y.val + z.val then m.SkipsBy (word 0x3 x y z) (word 0x4 x y z)
    else m.SkipsBy (word 0x4 x y z) (word 0x3 x y z) := by
  apply skipsBy_of_skipIf
  · rw [execute_skipping (o := seImm) (by decide) (word_lt 0x3 x y z)
      (by simp [places, Place.Fits])]
    simp only [skips, decode_word, eq_nn_word_iff]
  · rw [execute_skipping (o := sneImm) (by decide) (word_lt 0x4 x y z)
      (by simp [places, Place.Fits])]
    simp only [skips, decode_word, ne_eq, eq_nn_word_iff]

theorem skips_register (m : Machine) (x y : Fin 16) :
    if m.reg x = m.reg y then m.SkipsBy (word 0x5 x y 0x0) (word 0x9 x y 0x0)
    else m.SkipsBy (word 0x9 x y 0x0) (word 0x5 x y 0x0) := by
  apply skipsBy_of_skipIf
  · rw [execute_skipping (o := seReg) (by decide) (word_lt 0x5 x y 0x0)
      (by simp [places, Place.Fits])]
    simp only [skips, decode_word]
  · rw [execute_skipping (o := sneReg) (by decide) (word_lt 0x9 x y 0x0)
      (by simp [places, Place.Fits])]
    simp only [skips, decode_word, ne_eq]

theorem skips_key (m : Machine) (x : Fin 16) :
    if m.keypad.get (Fin.ofNat 16 (m.reg x).toNat) then
      m.SkipsBy (word 0xE x 0x9 0xE) (word 0xE x 0xA 0x1)
    else m.SkipsBy (word 0xE x 0xA 0x1) (word 0xE x 0x9 0xE) := by
  apply skipsBy_of_skipIf
  · rw [execute_skipping (o := skp) (by decide) (word_lt 0xE x 0x9 0xE)
      (by simp [places, Place.Fits])]
    simp only [skips, decode_word, keyHeld_eq, Bool.decide_eq_true]
  · rw [execute_skipping (o := sknp) (by decide) (word_lt 0xE x 0xA 0x1)
      (by simp [places, Place.Fits])]
    simp only [skips, decode_word, keyHeld_eq, decide_not, Bool.decide_eq_true]

/-- A tick that does not fault goes on at the successor of its word. A skip changes nothing else, and
of the two words that test one condition exactly one skips, whatever the machine and the operands
are. -/
theorem step_pc_successor (m : Machine) :
    (m.status = .running → m.pc.toNat ≤ 4093 → m.stack.pointer.toNat ≤ 16 →
      m.step.isFaulted = false → m.step.pc.toNat = m.successor m.bigEndian) ∧
    (∀ o ∈ skipping, m.Executes o → m.step = { m with pc := m.step.pc }) ∧
    ∀ x y z : Fin 16,
      (if (m.reg x).toNat = 16 * y.val + z.val then m.SkipsBy (word 0x3 x y z) (word 0x4 x y z)
        else m.SkipsBy (word 0x4 x y z) (word 0x3 x y z)) ∧
      (if m.reg x = m.reg y then m.SkipsBy (word 0x5 x y 0x0) (word 0x9 x y 0x0)
        else m.SkipsBy (word 0x9 x y 0x0) (word 0x5 x y 0x0)) ∧
      (if m.keypad.get (Fin.ofNat 16 (m.reg x).toNat) then
        m.SkipsBy (word 0xE x 0x9 0xE) (word 0xE x 0xA 0x1)
        else m.SkipsBy (word 0xE x 0xA 0x1) (word 0xE x 0x9 0xE)) := by
  refine ⟨step_pc_eq, fun o ho he => step_of_skipping ho he, fun x y z => ?_⟩
  exact ⟨skips_immediate m x y z, skips_register m x y, skips_key m x⟩

/-- From the last address at which a word is executed a skip leads past the end of memory. -/
theorem step_pc_successor_atEnd :
    let m : Machine := { create ⟨0, 0⟩ with memory := Memory.zeros.store 4093 [0x30], pc := 4093 }
    m.step.pc.toNat = 4097 ∧ m.step = { m with pc := m.step.pc } := by
  intro m
  have hw : m.bigEndian = 0x3000 := by decide +kernel
  have he : m.Executes .seImm := by decide +kernel
  obtain ⟨hpc, hskip, -⟩ := step_pc_successor m
  refine ⟨?_, hskip .seImm (by decide) he⟩
  rw [hpc rfl (by decide) (by decide) (by decide +kernel), hw]
  rfl

end Machine
end Chip8
