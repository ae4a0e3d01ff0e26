import Chip8.Proofs.Strict

/-! Checked access to single bytes, over all 32-bit addresses. The check adds in 32 bits, so a range
that ends past the largest integer passes it: of all addresses outside memory the largest one alone
does not fault. -/
namespace Chip8

theorem Memory.inBounds_iff {a n : Int32} (hn : 0 ≤ n.toInt) :
    inBounds a n = true ↔
      0 ≤ a.toInt ∧ (a.toInt + n.toInt ≤ 4096 ∨ 2147483648 ≤ a.toInt + n.toInt) := by
  have ha := a.toInt_lt
  have hn' := n.toInt_lt
  simp only [inBounds, Bool.and_eq_true, decide_eq_true_eq, Int32.le_iff_toInt_le, Int32.toInt_add,
    Int32.reduceToInt]
  refine and_congr_right fun h0 => ?_
  by_cases h : a.toInt + n.toInt < 2147483648
  · rw [Int.bmod_eq_of_le (by omega) (by omega)]
    omega
  · -- the sum of two such numbers wraps once
    have hwrap : Int.bmod (a.toInt + n.toInt) (2 ^ 32) = a.toInt + n.toInt - 4294967296 := by
      rw [Int.bmod_eq_emod]
      split <;> omega
    rw [hwrap]
    omega

namespace Machine

theorem inBounds_one_iff {a : Int32} :
    Memory.inBounds a 1 = true ↔ 0 ≤ a.toInt ∧ a.toInt < 4096 ∨ a.toInt = 2147483647 := by
  have ha := a.toInt_lt
  have h1 : (1 : Int32).toInt = 1 := rfl
  rw [Memory.inBounds_iff (by decide), h1]
  omega

theorem readByte_of_inside {m : Machine} {a : Int32} (h0 : 0 ≤ a.toInt) (h : a.toInt < 4096) :
    m.readByte a = (m, m.memory[a.toInt.toNat]) := by
  rw [readByte, if_pos (inBounds_one_iff.2 (.inl ⟨h0, h⟩)), Memory.peek_of_lt]

theorem writeByte_of_inside {m : Machine} {a : Int32} (h0 : 0 ≤ a.toInt) (h : a.toInt < 4096)
    (b : UInt8) : m.writeByte a b = { m with memory := m.memory.set a.toInt.toNat b } := by
  rw [writeByte, if_pos (inBounds_one_iff.2 (.inl ⟨h0, h⟩)), Memory.poke, setIfInBounds_eq_set]

theorem access_of_outside {m : Machine} {a : Int32} (h : ¬(0 ≤ a.toInt ∧ a.toInt < 4096))
    (hmax : a.toInt ≠ 2147483647) (b : UInt8) :
    m.readByte a = (m.fault .memoryOutOfBounds, 0) ∧
      m.writeByte a b = m.fault .memoryOutOfBounds := by
  have hb : ¬Memory.inBounds a 1 = true := by
    rw [inBounds_one_iff]
    omega
  exact ⟨if_neg hb, if_neg hb⟩

/-- The largest address passes the check; the last byte is read, and nothing is written. -/
theorem access_of_max {m : Machine} {a : Int32} (h : a.toInt = 2147483647) (b : UInt8) :
    m.readByte a = (m, m.memory[4095]) ∧ m.writeByte a b = m := by
  have hb : Memory.inBounds a 1 = true := inBounds_one_iff.2 (.inr h)
  have hpeek : m.memory.peek a.toInt.toNat = m.memory[4095] := by
    rw [h]
    rfl
  have hpoke : m.memory.poke a.toInt.toNat b = m.memory := by
    rw [h]
    exact Vector.setIfInBounds_eq_of_size_le (by decide)
  constructor
  · rw [readByte, if_pos hb, hpeek]
  · rw [writeByte, if_pos hb, hpoke]

/-- Inside memory a write changes one byte, to the low byte of the value, and a read gives it back.
Outside both halt the machine and change nothing else, but for the largest address: it reads as the
last byte of memory, writes to it are lost, and the machine goes on. The check of a range is exact
as long as its end can be computed, and passes otherwise. -/
theorem access_checked (m : Machine) (a v : Int32) :
    (0 ≤ a.toInt ∧ a.toInt < 4096 →
      let written := m.writeValue a v
      written = { m with memory := written.memory } ∧
      (∀ b : Fin 4096, ((written.memory.get b).toNat : Int) =
        if (b.val : Int) = a.toInt then v.toInt % 256 else (m.memory.get b).toNat) ∧
      (written.readByte a).1 = written ∧ ((written.readByte a).2.toNat : Int) = v.toInt % 256) ∧
    (¬(0 ≤ a.toInt ∧ a.toInt < 4096) →
      if a.toInt = 2147483647 then
        m.writeValue a v = m ∧ m.readByte a = (m, m.memory.get 4095)
      else
        m.writeValue a v = m.fault .memoryOutOfBounds ∧
          m.readByte a = (m.fault .memoryOutOfBounds, 0)) ∧
    ∀ n : Int32, 0 ≤ n.toInt →
      (Memory.inBounds a n = true ↔
        0 ≤ a.toInt ∧ (a.toInt + n.toInt ≤ 4096 ∨ 2147483648 ≤ a.toInt + n.toInt)) := by
  have hlow : ((UInt8.ofInt v.toInt).toNat : Int) = v.toInt % 256 := by
    simp only [UInt8.ofInt, UInt8.toNat_ofNat']
    omega
  refine ⟨?_, ?_, fun n hn => Memory.inBounds_iff hn⟩
  · rintro ⟨h0, h⟩ written
    have hw : written = _ := writeByte_of_inside h0 h (UInt8.ofInt v.toInt)
    have ha : a.toInt.toNat < 4096 := by omega
    have hbyte (b : Fin 4096) : written.memory.get b =
        if (b.val : Int) = a.toInt then UInt8.ofInt v.toInt else m.memory.get b := by
      rw [hw]
      refine (Vector.getElem_set ha b.isLt).trans (if_congr ?_ rfl rfl)
      omega
    refine ⟨?_, ?_, ?_⟩
    · rw [hw]
    · intro b
      rw [hbyte, ← hlow]
      split <;> rfl
    · rw [readByte_of_inside h0 h]
      have hread := hbyte ⟨a.toInt.toNat, ha⟩
      rw [if_pos (Int.toNat_of_nonneg h0)] at hread
      exact ⟨rfl, (congrArg (fun b => (b.toNat : Int)) hread).trans hlow⟩
  · intro h
    split
    · next hmax => exact (access_of_max hmax _).symm
    · next hmax => exact (access_of_outside h hmax _).symm

theorem access_checked_lastByte :
    (0 ≤ (4095 : Int32).toInt ∧ (4095 : Int32).toInt < 4096) ∧
      ¬(0 ≤ (-1 : Int32).toInt ∧ (-1 : Int32).toInt < 4096) ∧
      ((((create ⟨0, 0⟩).writeValue 4095 300).readByte 4095).2.toNat : Int) = 44 ∧
      (create ⟨0, 0⟩).writeValue (-1) 300 = (create ⟨0, 0⟩).fault .memoryOutOfBounds := by
  have hin : 0 ≤ (4095 : Int32).toInt ∧ (4095 : Int32).toInt < 4096 := by decide
  have hout : ¬(0 ≤ (-1 : Int32).toInt ∧ (-1 : Int32).toInt < 4096) := by decide
  obtain ⟨-, -, -, hread⟩ := (access_checked (create ⟨0, 0⟩) 4095 300).1 hin
  exact ⟨hin, hout, hread, ((access_checked (create ⟨0, 0⟩) (-1) 300).2.1 hout).1⟩

/-- An address far outside memory that is taken to lie inside: the sum with the length wraps. -/
theorem max_address_unchecked :
    (¬((2147483647 : Int32).toInt + 1 ≤ 4096) ∧ Memory.inBounds 2147483647 1 = true) ∧
      ((create ⟨0, 0⟩).readByte 2147483647).1.status ≠ .halted .memoryOutOfBounds ∧
      ((create ⟨0, 0⟩).writeValue 2147483647 7).status ≠ .halted .memoryOutOfBounds := by
  decide +kernel

end Machine
end Chip8
