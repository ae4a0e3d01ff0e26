import Chip8.Opcode.Disassembly
import Chip8.Proofs.Pattern

/-! Patterns and lines of disassembly as texts. The variant of a word is the one whose pattern
accepts its four hex digits, and the mnemonic and operands of a line, put together again, are these
digits. -/
namespace Chip8
open Instruction

/-! ### Fields of a line -/
section Fields
variable {c : Char} {cs xs : List Char} {ls : List (List Char)}

def separates (c : Char) : Bool := c = ' ' || c = ','

/-- What stands between blanks and commas. -/
def fields (cs : List Char) : List (List Char) := (cs.splitOnP separates).filter (· ≠ [])

def IsField (xs : List Char) : Prop := xs ≠ [] ∧ ∀ c ∈ xs, separates c = false

-- Written out, since there is also an instance that goes through all characters.
instance (xs : List Char) : Decidable (IsField xs) :=
  @instDecidableAnd _ _ inferInstance (List.decidableBAll _ xs)

theorem fields_cons (hc : separates c = true) (cs : List Char) : fields (c :: cs) = fields cs := by
  have hs : ([] ++ c :: cs).splitOnP separates = _ :=
    List.splitOnP_append_cons_of_forall_mem (by simp) c hc cs
  rw [List.nil_append] at hs
  rw [fields, hs]
  rfl

theorem fields_append (hx : IsField xs) (hc : separates c = true) (cs : List Char) :
    fields (xs ++ c :: cs) = xs :: fields cs := by
  rw [fields, List.splitOnP_append_cons_of_forall_mem hx.2 c hc, List.filter_cons_of_pos]
  · rfl
  · simpa using hx.1

theorem fields_self (hx : IsField xs) : fields xs = [xs] := by
  rw [fields, List.splitOnP_eq_singleton hx.2]
  simp [hx.1]

theorem fields_intercalate (h : ∀ xs ∈ ls, IsField xs) : fields ([',', ' '].intercalate ls) = ls := by
  induction ls with
  | nil => rfl
  | cons xs ls ih =>
    obtain ⟨hx, hls⟩ := List.forall_mem_cons.1 h
    cases ls with
    | nil => simpa using fields_self hx
    | cons ys ls =>
      rw [List.intercalate_cons_cons, List.append_assoc, List.cons_append, fields_append hx rfl,
        List.cons_append, List.nil_append, fields_cons rfl, ih hls]

end Fields

/-- The four hex digits of a word, as they are shown. -/
def Instruction.hexText (w : Nat) : List Char := (digits w).map Hex.digit

namespace Opcode
variable {o : Opcode} {w : Nat} {ps : List Place} {ds : List (Fin 16)}

/-! ### Patterns -/

/-- Three letters of a pattern accept every digit, every other character itself alone. -/
def Accepts (p c : Char) : Prop := p = 'X' ∨ p = 'Y' ∨ p = 'N' ∨ p = c

def Matches (o : Opcode) (w : Nat) : Prop := List.Forall₂ Accepts o.pattern.toList (hexText w)

theorem toList_pattern (ho : o ≠ unknown) : o.pattern.toList = o.places.map Place.mark := by
  rw [pattern, if_neg ho, String.toList_ofList]

theorem digit_ne_operand : ∀ d : Fin 16,
    Hex.digit d ≠ 'X' ∧ Hex.digit d ≠ 'Y' ∧ Hex.digit d ≠ 'N' := by
  decide

theorem digit_injective : Function.Injective Hex.digit := by
  decide

theorem accepts_mark_iff (p : Place) (e : Fin 16) :
    Accepts p.mark (Hex.digit e) ↔ p.Fits e := by
  cases p with
  | digit d =>
    obtain ⟨hx, hy, hn⟩ := digit_ne_operand d
    simp [Accepts, Place.mark, Place.Fits, hx, hy, hn, digit_injective.eq_iff, eq_comm]
  | x | y | n => simp [Accepts, Place.mark, Place.Fits]

theorem matches_iff_fits (ho : o ≠ unknown) : o.Matches w ↔ o.Fits w := by
  rw [Matches, toList_pattern ho, hexText, List.forall₂_map_left_iff, List.forall₂_map_right_iff]
  simp only [accepts_mark_iff]
  rfl

theorem classify_eq_iff_matches (i : Int) (ho : o ≠ unknown) :
    classify i = o ↔ o.Matches (low i) := by
  rw [matches_iff_fits ho]
  exact ⟨fun h => fits_of_ofFields (low_lt i) h ho, ofFields_of_fits (low_lt i)⟩

/-! ### Lines -/

/-- A digit that an operand shows: that of a register, or one of an immediate. -/
inductive Mark where
  | register (c : Char)
  | immediate (c : Char)

def marks? : List Char → Option (List Mark)
  | [c] => some [.immediate c]
  | ['V', c] => some [.register c]
  | '0' :: 'x' :: cs => some (cs.map .immediate)
  | _ => none

theorem marks?_digit (c : Char) : marks? [c] = some [.immediate c] := rfl

theorem marks?_register (c : Char) : marks? ['V', c] = some [.register c] := rfl

theorem marks?_immediate (cs : List Char) :
    marks? ('0' :: 'x' :: cs) = some (cs.map .immediate) := by
  cases cs <;> rfl

/-- Puts shown digits into a pattern, from the left to the right: a register in the place of `X` or
`Y`, and a digit of an immediate in that of `N`. None of them may be left over. -/
def substitute? : List Char → List Mark → Option (List Char)
  | [], [] => some []
  | [], _ :: _ => none
  | 'X' :: ps, .register c :: ms | 'Y' :: ps, .register c :: ms
  | 'N' :: ps, .immediate c :: ms => (substitute? ps ms).map (c :: ·)
  | 'X' :: _, _ | 'Y' :: _, _ | 'N' :: _, _ => none
  | p :: ps, ms => (substitute? ps ms).map (p :: ·)

/-- The pattern of the mnemonic with the operands in it. -/
def assemble? : List (List Char) → Option (List Char)
  | [] => none
  | name :: operands => do
    let o ← all.find? fun o => o.mnemonic.toList = name
    let ms ← operands.mapM marks?
    substitute? o.pattern.toList ms.flatten

/-- The digits that the operands of a pattern show. -/
def marks : List Place → List (Fin 16) → List Mark
  | .x :: ps, d :: ds | .y :: ps, d :: ds => .register (Hex.digit d) :: marks ps ds
  | .n :: ps, d :: ds => .immediate (Hex.digit d) :: marks ps ds
  | .digit _ :: ps, _ :: ds => marks ps ds
  | _, _ => []

theorem substitute?_digit (d : Fin 16) (ps : List Char) (ms : List Mark) :
    substitute? (Hex.digit d :: ps) ms = (substitute? ps ms).map (Hex.digit d :: ·) := by
  obtain ⟨hx, hy, hn⟩ := digit_ne_operand d
  simp [substitute?, hx, hy, hn]

theorem substitute?_marks (h : List.Forall₂ Place.Fits ps ds) :
    substitute? (ps.map Place.mark) (marks ps ds) = some (ds.map Hex.digit) := by
  induction h with
  | nil => rfl
  | @cons p d ps ds hp h ih =>
    cases p with
    | digit e =>
      rw [Place.Fits] at hp
      rw [List.map_cons, Place.mark, marks, substitute?_digit, ih, hp]
      rfl
    | x | y | n =>
      rw [List.map_cons, Place.mark, marks, substitute?, ih]
      rfl

/-- The operands of a line show the digits that the pattern leaves open, in its order. -/
theorem mapM_marks?_operands (o : Opcode) (i : Int) :
    ∃ ms, ((o.operands (decode i)).map String.toList).mapM marks? = some ms ∧
      ms.flatten = marks o.places (digits (low i)) := by
  cases o <;> simp [operands, places, immediateWidth, immediateText, registerText, marks?_digit,
    marks?_register, marks?_immediate, marks, digits, decode]

theorem find?_mnemonic (o : Opcode) :
    all.find? (fun p => p.mnemonic.toList = o.mnemonic.toList) = some o := by
  cases o <;> rfl

/-- The digits of a word are put together from its mnemonic and its operands. -/
theorem assemble?_operands (i : Int) (h : classify i = o) (ho : o ≠ unknown) :
    assemble? (o.mnemonic.toList :: (o.operands (decode i)).map String.toList) =
      some (hexText (low i)) := by
  have hf := (matches_iff_fits ho).1 ((classify_eq_iff_matches i ho).1 h)
  obtain ⟨ms, hms, hflat⟩ := mapM_marks?_operands o i
  rw [assemble?, find?_mnemonic, Option.bind_eq_bind, Option.bind_some, hms, Option.bind_eq_bind,
    Option.bind_some, hflat, toList_pattern ho, substitute?_marks hf]
  rfl

theorem isField_mnemonic (o : Opcode) : IsField o.mnemonic.toList := by
  cases o <;> decide

theorem digit_ne_separator : ∀ d : Fin 16, Hex.digit d ≠ ' ' ∧ Hex.digit d ≠ ',' := by
  decide

theorem isField_operands (o : Opcode) (d : Instruction) :
    ∀ s ∈ o.operands d, IsField s.toList := by
  have hr (r : Fin 16) : IsField (registerText r).toList := by
    simp [registerText, IsField, separates, digit_ne_separator]
  have hi (n : Nat) : ∀ s ∈ d.immediateText n, IsField s.toList := by
    rcases n with _ | _ | _ | _ | n <;>
      simp [immediateText, IsField, separates, digit_ne_separator]
  intro s hs
  simp only [operands, List.mem_append, List.mem_ite_nil_right, List.mem_singleton] at hs
  rcases hs with (⟨-, rfl⟩ | ⟨-, rfl⟩) | hs
  · exact hr d.x
  · exact hr d.y
  · exact hi o.immediateWidth s hs

/-- Behind the digits of its word a line has the mnemonic and the operands as its fields. -/
theorem fields_disassemble (i : Int) (h : classify i = o) (ho : o ≠ unknown) :
    ∃ tail, (disassemble i).toList = hexText (low i) ++ tail ∧
      fields tail = o.mnemonic.toList :: (o.operands (decode i)).map String.toList := by
  have hops : ∀ xs ∈ (o.operands (decode i)).map String.toList, IsField xs :=
    List.forall_mem_map.2 (isField_operands o (decode i))
  have hline : disassemble i = " ".intercalate ([(decode i).wordText, o.mnemonic] ++
      if (o.operands (decode i)).isEmpty then []
      else [", ".intercalate (o.operands (decode i))]) := by
    rw [disassemble]
    split
    · next hu => exact absurd (h.symm.trans hu) ho
    · rw [h]
  rw [hline, String.toList_intercalate]
  cases hs : o.operands (decode i) with
  | nil =>
    refine ⟨' ' :: o.mnemonic.toList, ?_, ?_⟩
    · simp [wordText, hexText, digits, decode, List.intercalate_cons_cons]
    · rw [fields_cons rfl, fields_self (isField_mnemonic o)]
      rfl
  | cons s ss =>
    let shown := [',', ' '].intercalate ((s :: ss).map String.toList)
    refine ⟨' ' :: (o.mnemonic.toList ++ ' ' :: shown), ?_, ?_⟩
    · simp [shown, wordText, hexText, digits, decode, List.intercalate_cons_cons]
    · rw [fields_cons rfl, fields_append (isField_mnemonic o) rfl, fields_intercalate (hs ▸ hops)]

theorem length_hexText (w : Nat) : (hexText w).length = 4 := rfl

theorem hexText_prefix (i : Int) : hexText (low i) <+: (disassemble i).toList := by
  by_cases ho : classify i = unknown
  · refine ⟨" ???".toList, ?_⟩
    simp [disassemble, ho, wordText, hexText, digits, decode]
  · obtain ⟨tail, htext, -⟩ := fields_disassemble i rfl ho
    exact ⟨tail, htext.symm⟩

theorem low_of_hexText {i j : Int} (h : hexText (low i) = hexText (low j)) : low i = low j := by
  have hi := low_lt i
  have hj := low_lt j
  have hd := List.map_injective_iff.2 digit_injective h
  simp only [digits, List.cons.injEq, nibble_eq_iff, nibble_val, Nat.reducePow] at hd
  omega

theorem assemble?_disassemble (i : Int) (ho : classify i ≠ unknown) :
    assemble? (fields ((disassemble i).toList.drop 4)) = some (hexText (low i)) := by
  obtain ⟨tail, htext, htail⟩ := fields_disassemble i rfl ho
  rw [htext, List.drop_left' (length_hexText (low i)), htail, assemble?_operands i rfl ho]

/-- At most one pattern matches the digits of a word; the variant is the one whose pattern does, and
words that match none have no variant. A line of disassembly begins with these digits, and whenever
there is a variant, the rest of the line put into its pattern gives them again. -/
theorem classify_disassemble_exact {i : Int} {w : Nat} (hw : (w : Int) = i % 65536) :
    (∀ o o', o ≠ unknown → o' ≠ unknown → o.Matches w → o'.Matches w → o = o') ∧
    (∀ o, o ≠ unknown → (classify i = o ↔ o.Matches w)) ∧
    (classify i = unknown ↔ ∀ o, o ≠ unknown → ¬o.Matches w) ∧
    hexText w <+: (disassemble i).toList ∧
    (classify i ≠ unknown →
      let rest := fields ((disassemble i).toList.drop 4)
      assemble? rest = some (hexText w) ∧
      ∀ j, classify j ≠ unknown → fields ((disassemble j).toList.drop 4) = rest →
        j % 65536 = w) := by
  obtain rfl : w = (i % 65536).toNat := by omega
  have hiff (o : Opcode) (ho : o ≠ unknown) : classify i = o ↔ o.Matches (low i) :=
    classify_eq_iff_matches i ho
  refine ⟨?_, hiff, ⟨?_, ?_⟩, hexText_prefix i, ?_⟩
  · intro o o' ho ho' hm hm'
    exact ((hiff o ho).2 hm).symm.trans ((hiff o' ho').2 hm')
  · intro hu o ho hm
    exact ho (((hiff o ho).2 hm).symm.trans hu)
  · intro hn
    by_contra hu
    exact hn _ hu ((hiff _ hu).1 rfl)
  · intro ho rest
    have hrest := assemble?_disassemble i ho
    refine ⟨hrest, fun j hj he => ?_⟩
    have htext := assemble?_disassemble j hj
    rw [he, hrest, Option.some.injEq] at htext
    have hlow := low_of_hexText htext
    simp only [low] at hlow
    omega

/-- A negative word: its line without the digits stands for them. -/
theorem classify_disassemble_exact_draw :
    disassemble (-11995) = "D125 DRW V1, V2, 5" ∧ classify (-11995) ≠ unknown ∧
      assemble? ["DRW".toList, "V1".toList, "V2".toList, "5".toList] = some "D125".toList := by
  have ho : classify (-11995) ≠ unknown := by decide
  exact ⟨by decide, ho, ((classify_disassemble_exact (w := 53541) (by decide)).2.2.2.2 ho).1⟩

end Opcode
end Chip8
