import Chip8.Proofs.Strict

/-! The layout of memory: what blocks, the font and a program put at each address. -/
namespace Chip8

theorem getD_drop {α : Type} (l : List α) (n k : Nat) (a : α) :
    (l.drop n).getD k a = l.getD (n + k) a := by
  rw [List.getD_eq_getElem?_getD, List.getElem?_drop, List.getD_eq_getElem?_getD]

namespace Memory
variable {k : Nat}

/-- Below the program area the font and zeros, from there up a program and zeros. -/
def layout (program : List UInt8) (a : Nat) : UInt8 :=
  if a < 0x050 then 0
  else if a < 0x200 then font.getD (a - 0x050) 0
  else program.getD (a - 0x200) 0

theorem getElem_boot (hk : k < 4096) : boot[k] = layout [] k := by
  rw [boot, getElem_store _ _ _ hk]
  simp only [zeros, Vector.getElem_replicate, layout, fontStart]
  by_cases hlo : k < 0x050
  · rw [if_neg (by omega), if_pos hlo]
  · rw [if_pos (by omega), if_neg hlo]
    split
    · rfl
    · next hhi =>
      have hend : font.length ≤ k - 0x050 := by
        simp only [font, List.length_cons, List.length_nil]
        omega
      rw [List.getD_eq_getElem?_getD, List.getElem?_eq_none hend]
      rfl

theorem layout_of_lt (program : List UInt8) (h : k < 0x200) : layout program k = layout [] k := by
  simp [layout, h]

theorem getElem_store_boot (program : List UInt8) (hk : k < 4096) :
    (boot.store programStart program)[k] = layout program k := by
  rw [getElem_store _ _ _ hk, getElem_boot hk, programStart]
  by_cases h : 0x200 ≤ k
  · have hlo : ¬k < 0x050 := by omega
    have hhi : ¬k < 0x200 := by omega
    rw [if_pos h, layout, layout, if_neg hlo, if_neg hlo, if_neg hhi, if_neg hhi]
    rfl
  · rw [if_neg h, layout_of_lt program (by omega)]

theorem getElem_reloaded (m : Memory) (hk : k < 4096) :
    m.reloaded[k] = if k < 0x200 then layout [] k else m[k] := by
  rw [← getElem_boot hk]
  exact Vector.getElem_ofFn hk

end Memory

namespace Machine
variable {m m' : Machine} {program : List UInt8}

theorem load_eq_store (m : Machine) (h : program.length ≤ 3584) :
    m.load program = .ok { m with memory := m.memory.store Memory.programStart program } :=
  if_neg (Nat.not_lt_of_le h)

theorem load_of_gt (m : Machine) (h : 3584 < program.length) :
    m.load program = .error (.halt (.romTooLarge program.length)) :=
  if_pos h

theorem memory_of_load {key : RandomKey} (h : (create key).load program = .ok m) (a : Fin 4096) :
    m.memory.get a = Memory.layout program a := by
  by_cases hlen : program.length ≤ 3584
  · rw [load_eq_store _ hlen] at h
    cases h
    exact Memory.getElem_store_boot program a.isLt
  · rw [load_of_gt _ (by omega)] at h
    cases h

end Machine
end Chip8
