import Chip8.Proofs.Fault

/-! The variant that a tick executes: the one whose pattern fits the digits of the word at the
program counter. -/
namespace Chip8
open Opcode

instance Place.decidableFits : (p : Place) → (e : Fin 16) → Decidable (p.Fits e)
  | digit d, e => inferInstanceAs (Decidable (e = d))
  | x, _ | y, _ | n, _ => isTrue trivial

instance Opcode.decidableFits (o : Opcode) (w : Nat) : Decidable (o.Fits w) :=
  inferInstanceAs (Decidable (List.Forall₂ _ _ _))

namespace Machine

/-- A tick that hands a word of a variant to execution, whether or not the word then faults. -/
def Executes (m : Machine) (o : Opcode) : Prop := ∃ w ∈ m.word?, o.Fits w

instance (m : Machine) (o : Opcode) : Decidable (m.Executes o) :=
  inferInstanceAs (Decidable (∃ w ∈ m.word?, _))

variable {m : Machine} {o : Opcode}

theorem executes_iff (hs : m.status = .running) (hp : m.pc.toNat < 4094) (ho : o ≠ .unknown) :
    m.Executes o ↔ m.opcode = o := by
  have hw : m.word? = some m.bigEndian := word?_eq_some.2 ⟨hs, hp, rfl⟩
  rw [opcode, classify_eq_iff m.wordAt ho, wordAt_toNat hp]
  simp [Executes, hw]

theorem Executes.ready (h : m.Executes o) : m.status = .running ∧ m.pc.toNat < 4094 := by
  obtain ⟨w, hw, -⟩ := h
  obtain ⟨hs, hp, -⟩ := word?_eq_some.1 hw
  exact ⟨hs, hp⟩

theorem Executes.opcode_eq (h : m.Executes o) : m.opcode = o := by
  obtain ⟨hs, hp⟩ := h.ready
  refine (executes_iff hs hp ?_).1 h
  rintro rfl
  obtain ⟨w, -, hf⟩ := h
  cases hf

end Machine
end Chip8
