import Chip8.Proofs.Effect
import Chip8.Proofs.Pattern

/-! Arithmetic words in whole numbers: the sum, difference or shift that VX ends with and the carry,
borrow or lost bit that VF ends with, whichever of the three registers coincide. -/
namespace Chip8

theorem toNat_toUInt8 (c : Bool) : c.toUInt8.toNat = if c then 1 else 0 := by
  cases c <;> rfl

theorem toNat_sub (a b : UInt8) : (a - b).toNat = (((a.toNat : Int) - b.toNat) % 256).toNat := by
  have ha := a.toNat_lt
  have hb := b.toNat_lt
  rw [UInt8.toNat_sub]
  omega

namespace Alu

/-- What the last digit of an arithmetic word makes of the numbers in VX and VY: the new VX, and VF
if the operation has a flag. Other digits make nothing of them. -/
def outcome (n : Fin 16) (a b : Nat) : Option (Nat × Option Nat) :=
  match n with
  | 0x0 => some (b, none)
  | 0x1 => some (a ||| b, none)
  | 0x2 => some (a &&& b, none)
  | 0x3 => some (a ^^^ b, none)
  | 0x4 => some ((a + b) % 256, some (if a + b > 255 then 1 else 0))
  | 0x5 => some ((((a : Int) - b) % 256).toNat, some (if a ≥ b then 1 else 0))
  | 0x6 => some (a / 2, some (a % 2))
  | 0x7 => some ((((b : Int) - a) % 256).toNat, some (if b ≥ a then 1 else 0))
  | 0xE => some (2 * a % 256, some (a / 128))
  | _ => none

def digit : Alu → Fin 16
  | set => 0x0
  | or => 0x1
  | and => 0x2
  | xor => 0x3
  | add => 0x4
  | subXY => 0x5
  | shiftRight => 0x6
  | subYX => 0x7
  | shiftLeft => 0xE

theorem ofDigit?_eq_some_iff {n : Fin 16} {op : Alu} : ofDigit? n = some op ↔ n = op.digit := by
  fin_cases n <;> cases op <;> decide

theorem outcome_digit (op : Alu) (a b : UInt8) :
    outcome op.digit a.toNat b.toNat =
      some ((op.result a b).toNat, (op.flag? a b).map UInt8.toNat) := by
  cases op with
  | set => rfl
  | or | and | xor => simp [digit, outcome, result, flag?]
  | add => simp [digit, outcome, result, flag?, toNat_toUInt8]
  | subXY | subYX =>
    simp [digit, outcome, result, flag?, toNat_toUInt8, toNat_sub, UInt8.le_iff_toNat_le]
  | shiftRight => simp [digit, outcome, result, flag?, Nat.shiftRight_eq_div_pow]
  | shiftLeft =>
    simp [digit, outcome, result, flag?, Nat.shiftLeft_eq, Nat.shiftRight_eq_div_pow,
      Nat.mul_comm]

theorem idle_digits : ∀ n : Fin 16, ofDigit? n = none →
    n ∈ ([0x8, 0x9, 0xA, 0xB, 0xC, 0xD, 0xF] : List (Fin 16)) := by
  decide

theorem outcome_eq_none {n : Fin 16} (h : ofDigit? n = none) (a b : Nat) :
    outcome n a b = none := by
  have hn := idle_digits n h
  fin_cases hn <;> rfl

end Alu

namespace Machine
open Instruction

theorem execute_arithmetic (m : Machine) (x y : Fin 16) {n : Fin 16} {op : Alu}
    (h : Alu.ofDigit? n = some op) : m.execute (word 0x8 x y n) = m.arithmetic op x y := by
  obtain ⟨ho, hx, hy, hn⟩ := decode_word 0x8 x y n
  simp only [execute, dispatch, ho, arithmeticWord, hx, hy, hn, h]

theorem execute_idle (m : Machine) (x y : Fin 16) {n : Fin 16} (h : Alu.ofDigit? n = none) :
    m.execute (word 0x8 x y n) = m := by
  obtain ⟨ho, -, -, hn⟩ := decode_word 0x8 x y n
  simp only [execute, dispatch, ho, arithmeticWord, hn, h]

/-- Both registers are read before the first write, and the flag is written last: so VF as a target
ends as the flag, and VF as an operand counts as it was. Digits without an operation change nothing,
and no digit changes anything but VX and VF. -/
theorem arithmetic_outcome (m : Machine) (x y n : Fin 16) :
    let after := m.execute (word 0x8 x y n)
    after = { m with v := after.v } ∧
    match Alu.outcome n (m.reg x).toNat (m.reg y).toNat with
    | none => after = m
    | some (r, none) => ∀ k, (after.reg k).toNat = if k = x then r else (m.reg k).toNat
    | some (r, some f) =>
      ∀ k, (after.reg k).toNat = if k = 15 then f else if k = x then r else (m.reg k).toNat := by
  intro after
  cases h : Alu.ofDigit? n with
  | none =>
    have hm : after = m := execute_idle m x y h
    rw [hm, Alu.outcome_eq_none h]
    exact ⟨rfl, rfl⟩
  | some op =>
    have hm : after = m.arithmetic op x y := execute_arithmetic m x y h
    rw [hm, Alu.ofDigit?_eq_some_iff.1 h, Alu.outcome_digit]
    refine ⟨arithmetic_eq op x y m, ?_⟩
    have hreg := reg_arithmetic m op x y
    cases hf : op.flag? (m.reg x) (m.reg y) with
    | none =>
      intro k
      rw [hreg, hf]
      exact apply_ite UInt8.toNat _ _ _
    | some f =>
      intro k
      rw [hreg, hf]
      simp only [apply_ite UInt8.toNat]

/-- VF is added to itself; the carry replaces the sum. -/
example : (({ create ⟨0, 0⟩ with v := Vector.replicate 16 200 }).execute 0x8FF4).reg 15 = 1 := by
  decide +kernel

end Machine
end Chip8
