import Chip8.Proofs.Layout
import Chip8.Proofs.Ownership

/-! Transfers between registers and memory: a store writes the bytes from `I` on that its word names
and no other, and a load reads them back, up to the last byte of memory. -/
namespace Chip8.Machine
open Instruction

/-- Behind `m` the bytes from `I` on are as listed, and everything else is as it was. -/
def Stores (m : Machine) (bytes : List UInt8) (after : Machine) : Prop :=
  after = { m with memory := after.memory } ∧
  (∀ k (hk : k < bytes.length), after.memory[m.i.toNat + k]? = some bytes[k]) ∧
  ∀ b : Fin 4096, b.val < m.i.toNat ∨ m.i.toNat + bytes.length ≤ b.val →
    after.memory.get b = m.memory.get b

/-- Behind `m` the registers up to VX are the bytes from `I` on, and everything else is as it was. -/
def Loads (m : Machine) (x : Fin 16) (after : Machine) : Prop :=
  after = { m with v := after.v } ∧
  (∀ k ≤ x, m.memory[m.i.toNat + k.val]? = some (after.reg k)) ∧
  ∀ k, x < k → after.reg k = m.reg k

variable {m after : Machine} {x : Fin 16} {bytes : List UInt8}

/-! ### One transfer -/

theorem execute_store (m : Machine) (x : Fin 16) :
    m.execute (word 0xF x 5 5) = m.storeRegisters x :=
  Opcode.execute_misc (o := .store) rfl (fun _ _ => rfl) m x

theorem execute_load (m : Machine) (x : Fin 16) :
    m.execute (word 0xF x 6 5) = m.loadRegisters x :=
  Opcode.execute_misc (o := .load) rfl (fun _ _ => rfl) m x

theorem execute_decimal (m : Machine) (x : Fin 16) :
    m.execute (word 0xF x 3 3) = m.storeDecimal x :=
  Opcode.execute_misc (o := .bcd) rfl (fun _ _ => rfl) m x

theorem stores_store (h : m.i.toNat + bytes.length ≤ 4096) :
    m.Stores bytes { m with memory := m.memory.store m.i.toNat bytes } := by
  refine ⟨rfl, ?_, ?_⟩
  · intro k hk
    have hin : m.i.toNat + k < 4096 := by omega
    have hsub : m.i.toNat + k - m.i.toNat = k := by omega
    rw [Vector.getElem?_eq_getElem hin, Memory.getElem_store _ _ _ hin, if_pos (by omega), hsub,
      List.getD_eq_getElem?_getD, List.getElem?_eq_getElem hk, Option.getD_some]
  · intro b hb
    exact m.memory.getElem_store_of_outside b.isLt rfl hb

theorem stores_registers (h : m.i.toNat + x.val + 1 ≤ 4096) :
    m.Stores (m.v.toList.take (x.val + 1)) (m.execute (word 0xF x 5 5)) := by
  rw [execute_store, storeRegisters_eq h]
  apply stores_store
  rw [length_registers]
  exact h

theorem loads_registers (h : m.i.toNat + x.val + 1 ≤ 4096) :
    m.Loads x (m.execute (word 0xF x 6 5)) := by
  have hload : m.loadRegisters x = _ := if_pos h
  have hreg (k : Fin 16) :
      (m.loadRegisters x).reg k = if k ≤ x then m.window.get k else m.reg k := by
    rw [hload]
    exact Vector.getElem_ofFn k.isLt
  rw [execute_load]
  refine ⟨?_, ?_, ?_⟩
  · rw [hload]
  · intro k hk
    have hin : m.i.toNat + k.val < 4096 := by omega
    rw [hreg, if_pos hk, m.window_get k hin, Vector.getElem?_eq_getElem hin]
  · intro k hk
    rw [hreg, if_neg (Fin.not_le.2 hk)]

/-! ### Back and forth -/

/-- A load brings back what has been stored, whatever is in the registers by then. -/
theorem load_of_stores (h : m.i.toNat + x.val + 1 ≤ 4096) (hs : m.Stores bytes after)
    (hlen : bytes.length = x.val + 1) (v : Registers) (k : Fin 16) :
    (({ after with v }).execute (word 0xF x 6 5)).reg k = bytes.getD k.val (v.get k) := by
  obtain ⟨heq, hbytes, -⟩ := hs
  have hi : after.i = m.i := by rw [heq]
  have hin : after.i.toNat + x.val + 1 ≤ 4096 := by rwa [hi]
  obtain ⟨-, hup, hrest⟩ := loads_registers (m := { after with v }) hin
  rw [List.getD_eq_getElem?_getD]
  by_cases hk : k ≤ x
  · have hk' : k.val < bytes.length := by omega
    have hb := hbytes k.val hk'
    rw [← hi, hup k hk, Option.some.injEq] at hb
    rw [hb, List.getElem?_eq_getElem hk', Option.getD_some]
  · rw [List.getElem?_eq_none (by omega)]
    exact hrest k (Fin.not_le.1 hk)

theorem load_of_stores_registers (h : m.i.toNat + x.val + 1 ≤ 4096)
    (hs : m.Stores (m.v.toList.take (x.val + 1)) after) (v : Registers) (k : Fin 16) :
    (({ after with v }).execute (word 0xF x 6 5)).reg k = if k ≤ x then m.reg k else v.get k := by
  have hle : k ≤ x ↔ k.val < x.val + 1 := Nat.lt_succ_iff.symm
  have hget := getD_drop_take (i := 0) (k := x.val + 1) m.v.toList k.val (v.get k)
  rw [List.drop_zero, Nat.zero_add, getD_toList _ _ k.isLt] at hget
  rw [load_of_stores h hs (length_registers m x), hget, if_congr hle rfl rfl]
  rfl

/-- A store writes nothing new where the same X has been loaded from. -/
theorem store_of_loads (h : m.i.toNat + x.val + 1 ≤ 4096) (hl : m.Loads x after) :
    (after.execute (word 0xF x 5 5)).memory = m.memory := by
  obtain ⟨heq, hregs, -⟩ := hl
  have hi : after.i = m.i := by rw [heq]
  have hm : after.memory = m.memory := by rw [heq]
  obtain ⟨-, hin, hout⟩ := stores_registers (m := after) (x := x) (by rwa [hi])
  have hlen := length_registers after x
  rw [hi] at hin hout
  rw [hlen] at hout
  apply Vector.ext
  intro b hb
  by_cases hblock : m.i.toNat ≤ b ∧ b < m.i.toNat + (x.val + 1)
  · obtain ⟨k, rfl⟩ := Nat.exists_eq_add_of_le hblock.1
    have hk : k < x.val + 1 := by omega
    have hreg := hregs ⟨k, by omega⟩ (Nat.le_of_lt_succ hk)
    have hstored := hin k (by rwa [hlen])
    rw [Vector.getElem?_eq_getElem hb, Option.some.injEq] at hreg hstored
    rw [hstored, hreg, List.getElem_take, Vector.getElem_toList]
    rfl
  · have hb' : b < m.i.toNat ∨ m.i.toNat + (x.val + 1) ≤ b := by omega
    rw [← hm]
    exact hout ⟨b, hb⟩ hb'

theorem decimalDigits_value (b : UInt8) :
    (b / 100).toNat ≤ 9 ∧ (b / 10 % 10).toNat ≤ 9 ∧ (b % 10).toNat ≤ 9 ∧
      100 * (b / 100).toNat + 10 * (b / 10 % 10).toNat + (b % 10).toNat = b.toNat := by
  have hb := b.toNat_lt
  simp only [UInt8.toNat_div, UInt8.toNat_mod, UInt8.reduceToNat]
  omega

theorem stores_decimal (h : m.i.toNat + 3 ≤ 4096) :
    m.Stores (decimalDigits (m.reg x)) (m.execute (word 0xF x 3 3)) := by
  have hstore : m.storeDecimal x = _ := if_pos h
  rw [execute_decimal, hstore]
  exact stores_store h

/-- Stores and loads that lie inside memory, up to its last byte: they move exactly the registers
and bytes that they name, undo each other, and a decimal store writes the three digits of VX. -/
theorem transfers_exact (m : Machine) (x : Fin 16) :
    (m.i.toNat + x.val + 1 ≤ 4096 →
      let stored := m.execute (word 0xF x 5 5)
      let loaded := m.execute (word 0xF x 6 5)
      m.Stores (m.v.toList.take (x.val + 1)) stored ∧ m.Loads x loaded ∧
      (∀ v : Registers,
        let back := ({ stored with v }).execute (word 0xF x 6 5)
        back = { stored with v := back.v } ∧
          ∀ k, back.reg k = if k ≤ x then m.reg k else v.get k) ∧
      (loaded.execute (word 0xF x 5 5)).memory = m.memory) ∧
    (m.i.toNat + 3 ≤ 4096 →
      let shown := m.execute (word 0xF x 3 3)
      let back := shown.execute (word 0xF 2 6 5)
      ∃ h t o : UInt8, h.toNat ≤ 9 ∧ t.toNat ≤ 9 ∧ o.toNat ≤ 9 ∧
        100 * h.toNat + 10 * t.toNat + o.toNat = (m.reg x).toNat ∧
        m.Stores [h, t, o] shown ∧
        back.reg 0 = h ∧ back.reg 1 = t ∧ back.reg 2 = o) := by
  constructor
  · intro h stored loaded
    have hs : m.Stores _ stored := stores_registers h
    have hl : m.Loads x loaded := loads_registers h
    refine ⟨hs, hl, ?_, store_of_loads h hl⟩
    intro v back
    have hin : stored.i.toNat + x.val + 1 ≤ 4096 := by
      rwa [hs.1]
    have hback : back = { stored with v := back.v } :=
      (loads_registers (m := { stored with v }) hin).1
    exact ⟨hback, load_of_stores_registers h hs v⟩
  · intro h shown back
    have hs : m.Stores _ shown := stores_decimal h
    obtain ⟨hh, ht, ho, hsum⟩ := decimalDigits_value (m.reg x)
    have hback := load_of_stores (x := 2) h hs rfl shown.v
    exact ⟨_, _, _, hh, ht, ho, hsum, hs, hback 0, hback 1, hback 2⟩

/-- `I` leaves room for three bytes. -/
def lastBytes : Machine :=
  ({ create ⟨0, 0⟩ with i := 0xFFD }).setRegister 2 253

theorem transfers_exact_lastBytes :
    lastBytes.i.toNat + (2 : Fin 16).val + 1 ≤ 4096 ∧
      (lastBytes.execute 0xF255).memory[0xFFF]? = some 253 ∧
      ((lastBytes.execute 0xF233).execute 0xF265).reg 1 = 5 := by
  have hi : lastBytes.i.toNat + (2 : Fin 16).val + 1 ≤ 4096 := by decide
  obtain ⟨hregisters, hdecimal⟩ := transfers_exact lastBytes 2
  obtain ⟨⟨-, hbytes, -⟩, -⟩ := hregisters hi
  obtain ⟨h, t, o, hh, ht, ho, hsum, -, -, hback, -⟩ := hdecimal hi
  have ht' : t = 5 := by
    rw [← UInt8.toNat_inj]
    have hv : (lastBytes.reg 2).toNat = 253 := by decide
    rw [hv] at hsum
    simp only [UInt8.reduceToNat]
    omega
  exact ⟨hi, hbytes 2 (by decide), hback.trans ht'⟩

end Chip8.Machine
