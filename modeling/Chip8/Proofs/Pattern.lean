import Chip8.Proofs.Dispatch
import Mathlib.Algebra.Group.Nat.Defs
import Mathlib.Data.List.Forall2

/-! Words and patterns: the fields of a word are its digits in base sixteen, and the variant of a
word is the one whose four-place pattern those digits fit. -/
namespace Chip8

theorem mem_of_lookup {α β : Type} [DecidableEq α] {k : α} {v : β} {l : List (α × β)}
    (h : l.lookup k = some v) : (k, v) ∈ l := by
  induction l with
  | nil => simp at h
  | cons p l ih =>
    obtain ⟨a, b⟩ := p
    by_cases ha : k = a
    · subst ha
      have hb : b = v := by simpa using h
      simp [hb]
    · rw [lookup_cons_of_ne ha] at h
      exact List.mem_cons_of_mem _ (ih h)

namespace Instruction
variable {w : Nat}

theorem nibble_val (w k : Nat) : (nibble w k).val = w / 16 ^ k % 16 := by
  simp [nibble, Nat.shiftRight_eq_div_pow, Nat.pow_mul]

theorem nibble_eq_iff (w k : Nat) (e : Fin 16) : nibble w k = e ↔ w / 16 ^ k % 16 = e.val := by
  rw [← nibble_val, Fin.ext_iff]

/-- The four hex digits of a word, the first one first. -/
def digits (w : Nat) : List (Fin 16) := [nibble w 3, nibble w 2, nibble w 1, nibble w 0]

theorem decode_opcode (h : w < 65536) : (decode w).opcode = nibble w 3 := by
  rw [decode, low_natCast h]

theorem decode_x (h : w < 65536) : (decode w).x = nibble w 2 := by
  rw [decode, low_natCast h]

theorem decode_y (h : w < 65536) : (decode w).y = nibble w 1 := by
  rw [decode, low_natCast h]

theorem decode_n (h : w < 65536) : (decode w).n = nibble w 0 := by
  rw [decode, low_natCast h]

theorem decode_x_val (h : w < 65536) : (decode w).x.val = w / 0x100 % 0x10 := by
  simp only [decode_x h, nibble_val, Nat.reducePow]

theorem decode_n_val (h : w < 65536) : (decode w).n.val = w % 0x10 := by
  simp [decode_n h, nibble_val]

theorem decode_nnn (h : w < 65536) : (decode w).nnn.val = w % 4096 := by
  rw [decode, low_natCast h]
  rfl

theorem decode_nn_toNat (h : w < 65536) : (decode w).nn.toNat = w % 256 := by
  rw [decode, low_natCast h]
  exact UInt8.toNat_ofNat'

theorem decode_nn (h : w < 65536) :
    (decode w).nn = UInt8.ofNat (16 * (nibble w 1).val + (nibble w 0).val) := by
  apply UInt8.toNat_inj.1
  rw [decode_nn_toNat h, UInt8.toNat_ofNat', nibble_val, nibble_val]
  omega

theorem decode_raw (h : w < 65536) :
    (decode w).raw = (4096 * (nibble w 3).val + 256 * (nibble w 2).val +
      16 * (nibble w 1).val + (nibble w 0).val : Nat) := by
  have hd : w = 4096 * (nibble w 3).val + 256 * (nibble w 2).val +
      16 * (nibble w 1).val + (nibble w 0).val := by
    simp only [nibble_val]
    omega
  exact congrArg Int.ofNat hd

theorem nibble_nn (h : w < 65536) {k : Nat} (hk : k < 2) :
    nibble (decode w).nn.toNat k = nibble w k := by
  rw [nibble_eq_iff, decode_nn_toNat h, nibble_val]
  have hc : k = 0 ∨ k = 1 := by omega
  rcases hc with rfl | rfl <;> omega

/-! ### Words from their digits -/
section Word
variable (a x y n : Fin 16)

def word : Nat := 0x1000 * a.val + 0x100 * x.val + 0x10 * y.val + n.val

theorem word_lt : word a x y n < 65536 := by
  simp only [word]
  omega

theorem digits_word : digits (word a x y n) = [a, x, y, n] := by
  simp only [digits, List.cons.injEq, nibble_eq_iff, word, Nat.reducePow, and_true]
  omega

theorem decode_word : (decode (word a x y n)).opcode = a ∧ (decode (word a x y n)).x = x ∧
    (decode (word a x y n)).y = y ∧ (decode (word a x y n)).n = n := by
  have h := word_lt a x y n
  rw [decode_opcode h, decode_x h, decode_y h, decode_n h]
  simpa [digits] using digits_word a x y n

end Word

end Instruction

/-- A fixed digit fits itself alone, an operand every digit. -/
def Place.Fits : Place → Fin 16 → Prop
  | digit d, e => e = d
  | _, _ => True

namespace Opcode
open Instruction
variable {w : Nat} {o : Opcode}

/-- The digits of the word fit the places of the pattern one by one. -/
def Fits (o : Opcode) (w : Nat) : Prop := List.Forall₂ Place.Fits o.places (digits w)

theorem ofFields_of_fits (hw : w < 65536) (h : o.Fits w) : ofFields (decode w) = o := by
  cases o with
  | unknown => simp [Fits, places, digits] at h
  | _ =>
    simp only [Fits, places, digits, List.forall₂_cons, Place.Fits] at h
    simp only [ofFields, decode_opcode hw, decode_nn hw, decode_n hw, decode_raw hw, h]
    rfl

@[simp] theorem fits_word {a x y n : Fin 16} :
    o.Fits (word a x y n) ↔ List.Forall₂ Place.Fits o.places [a, x, y, n] := by
  rw [Fits, digits_word]

theorem execute_of_fits [Randomness] (hw : w < 65536) (h : o.Fits w) (m : Machine) :
    m.execute w = o.perform (decode w) m := by
  rw [Machine.execute, Machine.dispatch_eq_perform, ofFields_of_fits hw h]

/-- An instruction of class F has only the operand X. -/
theorem execute_misc [Randomness] {effect : Fin 16 → Machine → Machine} {p q : Fin 16}
    (hp : o.places = [.digit 0xF, .x, .digit p, .digit q])
    (he : ∀ d m, o.perform d m = effect d.x m) (m : Machine) (x : Fin 16) :
    m.execute (word 0xF x p q) = effect x m := by
  have hf : o.Fits (word 0xF x p q) := by
    simp [hp, Place.Fits]
  rw [execute_of_fits (word_lt 0xF x p q) hf, he, (decode_word 0xF x p q).2.1]

/-! ### Every table lists a key with the variant whose pattern has its digits -/

theorem places_of_byClass : ∀ p ∈ byClass,
    p.2.places = [.digit p.1, .n, .n, .n] ∨ p.2.places = [.digit p.1, .x, .n, .n] ∨
      p.2.places = [.digit p.1, .x, .y, .n] := by
  decide

theorem places_of_bySystemWord : ∀ p ∈ bySystemWord,
    p.2.places = (digits p.1.toNat).map .digit := by
  decide

theorem places_of_byArithmeticDigit : ∀ p ∈ byArithmeticDigit,
    p.2.places = [.digit 0x8, .x, .y, .digit p.1] := by
  decide

theorem places_of_byKeyByte : ∀ p ∈ byKeyByte,
    p.2.places = [.digit 0xE, .x, .digit (nibble p.1.toNat 1), .digit (nibble p.1.toNat 0)] := by
  decide

theorem places_of_byMiscByte : ∀ p ∈ byMiscByte,
    p.2.places = [.digit 0xF, .x, .digit (nibble p.1.toNat 1), .digit (nibble p.1.toNat 0)] := by
  decide

theorem fits_of_class (h : (nibble w 3, o) ∈ byClass) : o.Fits w := by
  obtain hp | hp | hp := places_of_byClass _ h <;> simp [Fits, hp, digits, Place.Fits]

theorem fits_of_systemWord (h : ((decode w).raw, o) ∈ bySystemWord) : o.Fits w := by
  have hp := places_of_bySystemWord _ h
  have hd : (decode w).raw.toNat = w := rfl
  simp [Fits, hp, hd, digits, Place.Fits]

theorem fits_of_arithmeticDigit (h3 : nibble w 3 = 0x8) (h : (nibble w 0, o) ∈ byArithmeticDigit) :
    o.Fits w := by
  have hp := places_of_byArithmeticDigit _ h
  simp [Fits, hp, h3, digits, Place.Fits]

/-- A variant of a class whose low byte selects it. -/
theorem fits_of_byte {c : Fin 16} (hw : w < 65536) (hc : nibble w 3 = c)
    (hp : o.places = [.digit c, .x, .digit (nibble (decode w).nn.toNat 1),
      .digit (nibble (decode w).nn.toNat 0)]) : o.Fits w := by
  simp [Fits, hp, hc, digits, Place.Fits, nibble_nn hw]

theorem mem_of_getD {α : Type} [DecidableEq α] {k : α} {l : List (α × Opcode)}
    (h : (l.lookup k).getD unknown = o) (ho : o ≠ unknown) : (k, o) ∈ l := by
  cases hl : l.lookup k with
  | none => simp [hl, ho.symm] at h
  | some o' =>
    have he : o' = o := by simpa [hl] using h
    exact he ▸ mem_of_lookup hl

theorem last_class : ∀ a : Fin 16, byClass.lookup a = none → a ≠ 0x0 → ¬(a = 0x5 ∨ a = 0x9) →
    a ≠ 0x8 → a ≠ 0xE → a = 0xF := by
  decide

theorem fits_of_ofFields (hw : w < 65536) (h : ofFields (decode w) = o) (ho : o ≠ unknown) :
    o.Fits w := by
  rw [ofFields, decode_opcode hw, decode_n hw] at h
  cases hc : byClass.lookup (nibble w 3) with
  | some o' =>
    have he : o' = o := by simpa [hc] using h
    exact fits_of_class (he ▸ mem_of_lookup hc)
  | none =>
    rw [hc] at h
    by_cases h0 : nibble w 3 = 0x0
    · exact fits_of_systemWord (mem_of_getD (by simpa [h0] using h) ho)
    by_cases h59 : nibble w 3 = 0x5 ∨ nibble w 3 = 0x9
    · have hn : nibble w 0 = 0 := by
        by_contra hn
        have hu : unknown = o := by rcases h59 with h5 | h9 <;> simpa [*] using h
        exact ho hu.symm
      rcases h59 with h5 | h9
      · have he : seReg = o := by simpa [h5, hn] using h
        simp [← he, Fits, places, digits, Place.Fits, h5, hn]
      · have he : sneReg = o := by simpa [h9, hn] using h
        simp [← he, Fits, places, digits, Place.Fits, h9, hn]
    by_cases h8 : nibble w 3 = 0x8
    · exact fits_of_arithmeticDigit h8 (mem_of_getD (by simpa [h8] using h) ho)
    by_cases hE : nibble w 3 = 0xE
    · have hm := mem_of_getD (by simpa [hE] using h) ho
      exact fits_of_byte hw hE (places_of_byKeyByte _ hm)
    · have hF := last_class (nibble w 3) hc h0 h59 h8 hE
      have hm := mem_of_getD (by simpa [hF] using h) ho
      exact fits_of_byte hw hF (places_of_byMiscByte _ hm)

/-- Sixteen bits have a variant exactly if their digits fit its pattern. -/
theorem classify_eq_iff (w : UInt16) (ho : o ≠ unknown) :
    classify w.toNat = o ↔ o.Fits w.toNat := by
  have hw : w.toNat < 65536 := w.toNat_lt
  rw [classify_natCast hw]
  exact ⟨fun h => fits_of_ofFields hw h ho, ofFields_of_fits hw⟩

/-! ### The variants of a table by their key -/

theorem ne_unknown_of_places (h : o.places ≠ []) : o ≠ unknown := by
  intro hu
  exact h (hu ▸ rfl)

theorem classify_eq_iff_class {a : Fin 16} (h : (a, o) ∈ byClass) (w : UInt16) :
    classify w.toNat = o ↔ w.toNat / 0x1000 = a.val := by
  have hw : w.toNat < 65536 := w.toNat_lt
  obtain hp | hp | hp := places_of_byClass _ h <;>
  · rw [classify_eq_iff w (ne_unknown_of_places (by simp [hp]))]
    simp [Fits, hp, digits, Place.Fits, nibble_eq_iff]
    omega

theorem classify_eq_iff_system {r : Int} (h : (r, o) ∈ bySystemWord) (w : UInt16) :
    classify w.toNat = o ↔ (w.toNat : Int) = r := by
  have hw : w.toNat < 65536 := w.toNat_lt
  have hr : 0 ≤ r ∧ r < 65536 :=
    (by decide : ∀ p ∈ bySystemWord, 0 ≤ p.1 ∧ p.1 < 65536) _ h
  have hp := places_of_bySystemWord _ h
  rw [classify_eq_iff w (ne_unknown_of_places (by simp [hp, digits]))]
  simp [Fits, hp, digits, Place.Fits, nibble_eq_iff, nibble_val]
  omega

theorem classify_eq_iff_misc {b : UInt8} (h : (b, o) ∈ byMiscByte) (w : UInt16) :
    classify w.toNat = o ↔ w.toNat / 0x1000 = 0xF ∧ w.toNat % 0x100 = b.toNat := by
  have hw : w.toNat < 65536 := w.toNat_lt
  have hb : b.toNat < 256 := b.toNat_lt
  have hp := places_of_byMiscByte _ h
  rw [classify_eq_iff w (ne_unknown_of_places (by simp [hp]))]
  simp [Fits, hp, digits, Place.Fits, nibble_eq_iff, nibble_val]
  omega

end Opcode
end Chip8
