import Chip8.Machine.Strict
import Chip8.Proofs.WellFormed

/-! The checked machine never fails and does what the machine does: clamped, zero-filled and
dropped accesses decide nothing, wherever the program counter and `I` point. -/
namespace Chip8

section Access
variable {α : Type} {n : Nat} {xs : Vector α n} {i k : Nat}

theorem put?_eq (xs : Vector α n) (a : α) (h : i < n) : put? xs i a = some (xs.set i a) :=
  dif_pos h

theorem read?_eq (h : i + k ≤ n) : read? xs i k = some ((xs.toList.drop i).take k) := by
  induction k generalizing i with
  | zero => simp [read?]
  | succ k ih =>
    have hi : i < xs.toList.length := by
      rw [Vector.length_toList]
      omega
    rw [read?, ih (by omega), Vector.getElem?_eq_getElem (by omega),
      List.drop_eq_getElem_cons hi, List.take_succ_cons]
    rfl

/-- A block laid over a vector; what sticks out is dropped. -/
def overwrite (xs : Vector α n) (i : Nat) : List α → Vector α n
  | [] => xs
  | a :: rest => overwrite (xs.setIfInBounds i a) (i + 1) rest

theorem write?_eq {as : List α} (h : i + as.length ≤ n) :
    write? xs i as = some (overwrite xs i as) := by
  induction as generalizing xs i with
  | nil => rfl
  | cons a as ih =>
    rw [List.length_cons] at h
    have hi : i < n := by omega
    rw [write?, put?_eq xs a hi, overwrite, setIfInBounds_eq_set xs a hi]
    exact ih (by omega)

theorem getElem_overwrite (xs : Vector α n) (i : Nat) (as : List α) (hk : k < n) :
    (overwrite xs i as)[k] = if i ≤ k then as.getD (k - i) xs[k] else xs[k] := by
  induction as generalizing xs i with
  | nil => simp [overwrite]
  | cons a as ih =>
    rw [overwrite, ih]
    by_cases hlt : k < i
    · rw [if_neg (by omega), if_neg (by omega),
        Vector.getElem_setIfInBounds_ne hk (by omega)]
    by_cases he : k = i
    · subst he
      simp
    · rw [if_pos (by omega), if_pos (by omega), Vector.getElem_setIfInBounds_ne hk (by omega),
        show k - i = k - (i + 1) + 1 by omega, List.getD_cons_succ]

theorem getD_drop_take (l : List α) (j : Nat) (a : α) :
    ((l.drop i).take k).getD j a = if j < k then l.getD (i + j) a else a := by
  by_cases h : j < k
  · rw [if_pos h, List.getD_eq_getElem?_getD, List.getD_eq_getElem?_getD,
      List.getElem?_take_of_lt h, List.getElem?_drop]
  · rw [if_neg h, List.getD_eq_getElem?_getD, List.getElem?_take_eq_none (by omega)]
    rfl

theorem getD_toList (xs : Vector α n) (a : α) (h : k < n) : xs.toList.getD k a = xs[k] := by
  rw [List.getD_eq_getElem?_getD, Vector.getElem?_toList, Vector.getElem?_eq_getElem h,
    Option.getD_some]

theorem getD_toList_of_ge (xs : Vector α n) (a : α) (h : n ≤ k) : xs.toList.getD k a = a := by
  rw [List.getD_eq_getElem?_getD, Vector.getElem?_toList, Vector.getElem?_eq_none h,
    Option.getD_none]

end Access

theorem Memory.store_eq_overwrite (m : Memory) (a : Nat) (bs : List UInt8) :
    m.store a bs = overwrite m a bs := by
  induction bs generalizing m a with
  | nil => rfl
  | cons b bs ih => exact ih (m.poke a b) (a + 1)

theorem Memory.getElem_store (m : Memory) {k : Nat} (a : Nat) (bytes : List UInt8) (hk : k < 4096) :
    (m.store a bytes)[k] = if a ≤ k then bytes.getD (k - a) m[k] else m[k] := by
  rw [store_eq_overwrite, getElem_overwrite]

theorem Memory.peek_of_lt (m : Memory) {a : Nat} (h : a < 4096) : m.peek a = m[a] := by
  have hmin : min a 4095 = a := by omega
  simp only [peek, hmin]

theorem Memory.filled_of_lt (m : Memory) {a : Nat} (h : a < 4096) : m.filled a = m[a] := by
  rw [filled, Vector.getElem?_eq_getElem h, Option.getD_some]

namespace CallStack
variable {s : CallStack}

theorem push?_eq (hf : s.isFull = false) (a : UInt16) : s.push? a = some (s.push a) := by
  obtain ⟨hp, -⟩ := WellFormed.push_pointer hf
  rw [push?, put?_eq _ _ hp, push, setIfInBounds_eq_set _ _ hp]
  rfl

theorem pop?_eq (hle : s.pointer.toNat ≤ 16) (he : s.isEmpty = false) :
    s.pop? = some s.pop := by
  obtain ⟨h0, hp⟩ := WellFormed.pop_pointer he
  have hlt : (s.pointer - 1).toNat < 16 := by omega
  have hmin : min (s.pointer - 1).toNat 15 = (s.pointer - 1).toNat := by omega
  simp only [pop?, pop, put?_eq _ _ hlt, Vector.getElem?_eq_getElem hlt,
    setIfInBounds_eq_set _ _ hlt, hmin]
  rfl

end CallStack

namespace Sprite

/-- Lines from `y` on, around the screen, to reach a line. -/
def offset (line y : Nat) : Nat := (line + 32 - y % 32) % 32

/-- No two of at most 32 rows share a line, so the later ones hide none. -/
theorem place?_eq (x y : Nat) (rows : List UInt8) (d : Display) (h : rows.length ≤ 32) :
    ∃ sprite, place? x y rows d = some sprite ∧ ∀ (line : Nat) (hl : line < 32),
      sprite[line] = (rows.map (row · (x % 64))).getD (offset line y) d[line] := by
  induction rows generalizing y d with
  | nil => exact ⟨d, rfl, fun line hl => rfl⟩
  | cons b rows ih =>
    rw [List.length_cons] at h
    have hy : y % 32 < 32 := Nat.mod_lt _ (by decide)
    obtain ⟨sprite, hs, hlines⟩ := ih (y + 1) (d.set (y % 32) (row b (x % 64))) (by omega)
    refine ⟨sprite, ?_, fun line hl => ?_⟩
    · rw [place?, put?_eq _ _ hy]
      exact hs
    · rw [hlines line hl, List.map_cons]
      by_cases he : y % 32 = line
      · have h0 : offset line y = 0 := by simp only [offset]; omega
        have hlast : offset line (y + 1) = 31 := by simp only [offset]; omega
        have hout : (rows.map (row · (x % 64)))[31]? = none := by
          rw [List.getElem?_eq_none_iff, List.length_map]
          omega
        rw [h0, hlast, List.getD_cons_zero, List.getD_eq_getElem?_getD, hout, Option.getD_none]
        subst he
        exact Vector.getElem_set_self hy
      · have hnext : offset line y = offset line (y + 1) + 1 := by simp only [offset]; omega
        rw [hnext, List.getD_cons_succ, Vector.getElem_set_ne hy hl he]

/-- The sprite on one line, as long as its bytes lie inside memory. -/
theorem getElem_mask (m : Memory) {i n : Nat} (x y : Nat) (hn : i + n ≤ 4096) {line : Nat}
    (hl : line < 32) : (mask m i x y n)[line] =
      if offset line y < n then row (m.peek (i + offset line y)) (x % 64) else 0 := by
  have hr : ((line : Int) - y) % 32 = (offset line y : Nat) := by
    simp only [offset]
    omega
  have hx : ((x : Int) % 64).toNat = x % 64 := by omega
  simp only [mask, Vector.getElem_ofFn, hr, hx, Int.ofNat_lt]
  by_cases h : offset line y < n
  · have ha : (Int.bmod ((i : Int) + (offset line y : Nat)) 0x100000000).toNat =
        i + offset line y := by
      rw [Int.bmod_eq_of_le (by omega) (by omega)]
      omega
    rw [if_pos h, if_pos h, ha]
  · rw [if_neg h, if_neg h]

theorem place?_eq_mask (m : Memory) {i n : Nat} (x y : Nat) (hn : i + n ≤ 4096) (h : n ≤ 32) :
    place? x y ((m.toList.drop i).take n) Bitmap.blank = some (mask m i x y n) := by
  have hlen : ((m.toList.drop i).take n).length ≤ 32 := by
    rw [List.length_take]
    omega
  obtain ⟨sprite, hs, hlines⟩ := place?_eq x y _ Bitmap.blank hlen
  rw [hs, Option.some.injEq]
  apply Vector.ext
  intro line hl
  rw [hlines line hl, getElem_mask m x y hn hl, List.getD_eq_getElem?_getD, List.getElem?_map]
  by_cases h : offset line y < n
  · have ha : i + offset line y < 4096 := by omega
    rw [if_pos h, List.getElem?_take_of_lt h, List.getElem?_drop, Vector.getElem?_toList,
      Vector.getElem?_eq_getElem ha, m.peek_of_lt ha]
    rfl
  · rw [if_neg h, List.getElem?_take_eq_none (by omega), Bitmap.blank]
    exact Vector.getElem_replicate hl

end Sprite

namespace Machine
variable {m : Machine}

theorem reg?_eq (m : Machine) (x : Fin 16) : m.reg? x = some (m.reg x) :=
  Vector.getElem?_eq_getElem x.isLt

theorem setRegister?_eq (m : Machine) (x : Fin 16) (b : UInt8) :
    m.setRegister? x b = some (m.setRegister x b) := by
  rw [setRegister?, put?_eq _ _ x.isLt]
  rfl

theorem keyHeld?_eq (m : Machine) (x : Fin 16) : m.keyHeld? x = some (m.keyHeld x) := by
  have hlt : (m.reg x).toNat % 16 < 16 := Nat.mod_lt _ (by decide)
  rw [keyHeld?, reg?_eq]
  exact Vector.getElem?_eq_getElem hlt

theorem arithmetic?_eq (op : Alu) (x y : Fin 16) (m : Machine) :
    m.arithmetic? op x y = some (m.arithmetic op x y) := by
  simp only [arithmetic?, reg?_eq, setRegister?_eq, Option.bind_eq_bind, Option.bind_some]
  rw [arithmetic]
  cases op.flag? (m.reg x) (m.reg y) with
  | none => rfl
  | some f => exact setRegister?_eq _ 15 f

theorem returnFrom?_eq (hle : m.stack.pointer.toNat ≤ 16) :
    m.returnFrom? = some m.returnFrom := by
  cases he : m.stack.isEmpty with
  | true => rw [returnFrom?, returnFrom, he, if_pos rfl, if_pos rfl]
  | false =>
    rw [returnFrom?, returnFrom, he, if_neg Bool.false_ne_true, if_neg Bool.false_ne_true,
      CallStack.pop?_eq hle he]
    rfl

theorem call?_eq (nnn : Fin 4096) (m : Machine) : m.call? nnn = some (m.call nnn) := by
  cases hf : m.stack.isFull with
  | true => rw [call?, call, hf, if_pos rfl, if_pos rfl]
  | false =>
    rw [call?, call, hf, if_neg Bool.false_ne_true, if_neg Bool.false_ne_true,
      CallStack.push?_eq hf]
    rfl

theorem jumpOffset?_eq (nnn : Fin 4096) (m : Machine) :
    m.jumpOffset? nnn = some (m.jumpOffset nnn) := by
  have h0 : m.reg? 0 = some (m.reg 0) := reg?_eq m 0
  simp only [jumpOffset?, h0, Option.bind_eq_bind, Option.bind_some, jumpOffset]
  split <;> rfl

theorem draw?_eq (x y n : Fin 16) (m : Machine) : m.draw? x y n = some (m.draw x y n) := by
  by_cases h : Memory.Holds m.i.toNat n.val
  · have hn : n.val ≤ 32 := by omega
    rw [draw?, draw, if_pos h, if_pos h]
    simp only [reg?_eq, read?_eq h, Sprite.place?_eq_mask m.memory _ _ h hn,
      Option.bind_eq_bind, Option.bind_some]
    exact setRegister?_eq _ 15 _
  · rw [draw?, draw, if_neg h, if_neg h]

theorem storeDecimal?_eq (x : Fin 16) (m : Machine) :
    m.storeDecimal? x = some (m.storeDecimal x) := by
  by_cases h : Memory.Holds m.i.toNat 3
  · have hw : write? m.memory m.i.toNat (decimalDigits (m.reg x)) = some _ := write?_eq h
    rw [storeDecimal?, storeDecimal, if_pos h, if_pos h, Memory.store_eq_overwrite]
    simp only [reg?_eq, hw, Option.bind_eq_bind, Option.bind_some]
    rfl
  · rw [storeDecimal?, storeDecimal, if_neg h, if_neg h]

theorem window_get (m : Machine) (k : Fin 16) (h : m.i.toNat + k.val < 4096) :
    m.window.get k = m.memory[m.i.toNat + k.val] := by
  rw [← m.memory.filled_of_lt h]
  exact Vector.getElem_ofFn k.isLt

/-- Behind the last register a store writes back what it has read, or nothing. -/
theorem overwrite_window (x : Fin 16) (m : Machine) :
    overwrite m.memory m.i.toNat
        (Vector.ofFn fun k => if k ≤ x then m.reg k else m.window.get k).toList =
      overwrite m.memory m.i.toNat ((m.v.toList.drop 0).take (x.val + 1)) := by
  apply Vector.ext
  intro k hk
  rw [getElem_overwrite, getElem_overwrite, getD_drop_take]
  by_cases hi : m.i.toNat ≤ k
  · obtain ⟨j, rfl⟩ := Nat.exists_eq_add_of_le hi
    have hj : m.i.toNat + j - m.i.toNat = j := by omega
    rw [if_pos hi, if_pos hi, hj, Nat.zero_add]
    by_cases hlt : j < 16
    · have hle : (⟨j, hlt⟩ : Fin 16) ≤ x ↔ j < x.val + 1 := Nat.lt_succ_iff.symm
      rw [getD_toList _ _ hlt, getD_toList _ _ hlt, Vector.getElem_ofFn]
      by_cases hx : j < x.val + 1
      · rw [if_pos hx, if_pos (hle.2 hx)]
        rfl
      · rw [if_neg hx, if_neg (mt hle.1 hx)]
        exact m.window_get ⟨j, hlt⟩ hk
    · rw [if_neg (by omega), getD_toList_of_ge _ _ (Nat.le_of_not_lt hlt)]
  · rw [if_neg hi, if_neg hi]

theorem length_registers (m : Machine) (x : Fin 16) :
    (m.v.toList.take (x.val + 1)).length = x.val + 1 := by
  rw [List.length_take, Vector.length_toList]
  omega

/-- The bytes behind the last register are stored as they were. -/
theorem storeRegisters_eq {x : Fin 16} (h : Memory.Holds m.i.toNat (x.val + 1)) :
    m.storeRegisters x =
      { m with memory := m.memory.store m.i.toNat (m.v.toList.take (x.val + 1)) } := by
  rw [storeRegisters, if_pos h]
  simp only [Memory.store_eq_overwrite, overwrite_window, List.drop_zero]

theorem storeRegisters?_eq (x : Fin 16) (m : Machine) :
    m.storeRegisters? x = some (m.storeRegisters x) := by
  by_cases h : Memory.Holds m.i.toNat (x.val + 1)
  · have hx : 0 + (x.val + 1) ≤ 16 := by omega
    have hlen : m.i.toNat + ((m.v.toList.drop 0).take (x.val + 1)).length ≤ 4096 := by
      rw [List.length_take]
      exact Nat.le_trans (Nat.add_le_add_left (Nat.min_le_left _ _) _) h
    rw [storeRegisters?, storeRegisters, if_pos h, if_pos h]
    simp only [read?_eq hx, write?_eq hlen, Option.bind_eq_bind, Option.bind_some,
      Memory.store_eq_overwrite, overwrite_window]
    rfl
  · rw [storeRegisters?, storeRegisters, if_neg h, if_neg h]

theorem loadRegisters?_eq (x : Fin 16) (m : Machine) :
    m.loadRegisters? x = some (m.loadRegisters x) := by
  by_cases h : Memory.Holds m.i.toNat (x.val + 1)
  · have hlen : 0 + ((m.memory.toList.drop m.i.toNat).take (x.val + 1)).length ≤ 16 := by
      rw [List.length_take]
      omega
    have hv : overwrite m.v 0 ((m.memory.toList.drop m.i.toNat).take (x.val + 1)) =
        Vector.ofFn fun k => if k ≤ x then m.window.get k else m.reg k := by
      apply Vector.ext
      intro k hk
      rw [getElem_overwrite, getD_drop_take, if_pos (Nat.zero_le k), Vector.getElem_ofFn,
        Nat.sub_zero]
      have hle : (⟨k, hk⟩ : Fin 16) ≤ x ↔ k < x.val + 1 := Nat.lt_succ_iff.symm
      by_cases hx : k < x.val + 1
      · have hin : m.i.toNat + k < 4096 := by
          have hend : m.i.toNat + (x.val + 1) ≤ 4096 := h
          omega
        rw [if_pos hx, if_pos (hle.2 hx), getD_toList _ _ hin, m.window_get ⟨k, hk⟩ hin]
      · rw [if_neg hx, if_neg (mt hle.1 hx)]
        rfl
    have hr : read? m.memory m.i.toNat (x.val + 1) = some _ := read?_eq h
    rw [loadRegisters?, loadRegisters, if_pos h, if_pos h]
    simp only [hr, write?_eq hlen, Option.bind_eq_bind, Option.bind_some, hv]
    rfl
  · rw [loadRegisters?, loadRegisters, if_neg h, if_neg h]

end Machine

theorem Opcode.perform?_eq (o : Opcode) (d : Instruction) {m : Machine}
    (hle : m.stack.pointer.toNat ≤ 16) : o.perform? d m = some (o.perform d m) := by
  cases o with
  | ret => exact Machine.returnFrom?_eq hle
  | call => exact Machine.call?_eq d.nnn m
  | jpV0 => exact Machine.jumpOffset?_eq d.nnn m
  | drw => exact Machine.draw?_eq d.x d.y d.n m
  | bcd => exact Machine.storeDecimal?_eq d.x m
  | store => exact Machine.storeRegisters?_eq d.x m
  | load => exact Machine.loadRegisters?_eq d.x m
  | ldReg | or | and | xor | addReg | sub | shr | subn | shl =>
    exact Machine.arithmetic?_eq _ d.x d.y m
  | ldImm | rnd | ldVxDt => exact Machine.setRegister?_eq _ d.x _
  | seImm | sneImm | seReg | sneReg | addImm | skp | sknp | ldDt | ldSt | addI | ldFont =>
    simp only [perform?, Machine.reg?_eq, Machine.keyHeld?_eq, Machine.setRegister?_eq,
      Option.bind_eq_bind, Option.bind_some]
    rfl
  | _ => rfl

namespace Machine
variable {m : Machine}

theorem advance?_eq (hs : m.status = .running) (hle : m.stack.pointer.toNat ≤ 16) :
    m.advance? = some m.step := by
  by_cases h : 4094 ≤ m.pc.toNat
  · have hend : m.pc.toNat + 2 ≥ Memory.size := Nat.add_le_add_right h 2
    rw [advance?, if_pos hend, step_at_end hs h]
  · have hlt : m.pc.toNat < 4094 := by omega
    have hroom : ¬m.pc.toNat + 2 ≥ Memory.size := by
      simp only [Memory.size]
      omega
    have hmin : min m.pc.toNat 4094 = m.pc.toNat := by omega
    have hw : m.wordAt = m.memory[m.pc.toNat].toUInt16 <<< 8 |||
        m.memory[m.pc.toNat + 1].toUInt16 := by
      simp only [wordAt, hmin]
      rw [m.memory.peek_of_lt (by omega), m.memory.peek_of_lt (by omega)]
    rw [advance?, if_neg hroom, Vector.getElem?_eq_getElem (by omega),
      Vector.getElem?_eq_getElem (by omega), step_of_running hs hlt]
    simp only [Option.bind_eq_bind, Option.bind_some, ← hw]
    exact Opcode.perform?_eq m.opcode m.operands (m := m.fetched) hle

theorem awaitKey?_eq (hw : m.waitRegister.toNat ≤ 15) : m.awaitKey? = some m.awaitKey := by
  have hlt : m.waitRegister.toNat < 16 := by omega
  rw [awaitKey?, awaitKey]
  cases m.keypad.lowest? with
  | none => rfl
  | some k =>
    simp only [put?_eq _ _ hlt, setIfInBounds_eq_set _ _ hlt]
    rfl

/-- Whatever the program counter, the index and the memory are: as long as the stack pointer and
the wait register are in range, no access of a tick lies outside its array, and the tick is the one
that is made of the accesses inside. -/
theorem step?_eq_step (m : Machine) (hle : m.stack.pointer.toNat ≤ 16)
    (hw : m.waitRegister.toNat ≤ 15) : m.step? = some m.step := by
  cases hs : m.status with
  | running =>
    rw [step?, hs]
    exact advance?_eq hs hle
  | awaitingKey =>
    rw [step?, step, hs]
    exact awaitKey?_eq hw
  | halted f => rw [step?, step, hs]

/-- Stores V0 to V2 on the last three bytes; the window sticks out by thirteen. -/
def storesLast : Machine :=
  { create ⟨0, 0⟩ with
    memory := Memory.zeros.store 0x200 [0xF2, 0x55]
    i := 0xFFD
    v := (Vector.replicate 16 0).set 2 7 }

theorem step?_eq_step_storesLast :
    storesLast.step? = some storesLast.step ∧ storesLast.step.memory.peek 0xFFF = 7 :=
  ⟨step?_eq_step storesLast (by decide) (by decide), by decide +kernel⟩

end Machine
end Chip8
