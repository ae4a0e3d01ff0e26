import Chip8.Proofs.Devices
import Chip8.Proofs.Run
import Mathlib.Logic.Function.Iterate

/-! The random stream: nothing but a random word takes a key from it, so what the words of a run
draw depends on the key that the machine was booted with and on their number alone, whatever
functions split the keys and draw from them. -/
namespace Chip8

/-- A random word that was executed: its mask, and what its register held behind it. -/
structure Roll where
  mask : UInt8
  value : UInt8

namespace Machine

-- for any bytes: against the machine itself, the two memories would be unfolded
theorem rng_of_booted (key : RandomKey) (bytes : Memory) :
    ({ create key with memory := bytes }).rng = key := rfl

theorem reset_rng (m : Machine) : m.reset.rng = m.rng := rng_of_booted m.rng m.memory.reloaded

end Machine

section AnyStream
variable [Randomness]

namespace RandomKey

def next (k : RandomKey) : RandomKey := (Randomness.split k).1

/-- The byte behind `j` others. -/
def drawn (k : RandomKey) (j : Nat) : UInt8 := Randomness.byte (Randomness.split (next^[j] k)).2

theorem drawn_succ (k : RandomKey) (j : Nat) : k.drawn (j + 1) = k.next.drawn j := rfl

/-- From the first key these rolls are drawn, one behind the other, and the second key is left. -/
inductive Deals : RandomKey → List Roll → RandomKey → Prop
  | nil (k : RandomKey) : Deals k [] k
  | cons {k k' : RandomKey} {r : Roll} {rs : List Roll} (hv : r.value = k.drawn 0 &&& r.mask)
      (h : Deals k.next rs k') : Deals k (r :: rs) k'

namespace Deals
variable {k k' k'' : RandomKey} {rs qs : List Roll}

theorem append (h : Deals k rs k') (h' : Deals k' qs k'') : Deals k (rs ++ qs) k'' := by
  induction h with
  | nil => exact h'
  | cons hv _ ih => exact .cons hv (ih h')

theorem rest (h : Deals k rs k') : k' = next^[rs.length] k := by
  induction h with
  | nil => rfl
  | cons _ _ ih => rw [ih, List.length_cons, Function.iterate_succ_apply]

theorem value (h : Deals k rs k') (j : Nat) (hj : j < rs.length) :
    rs[j].value = k.drawn j &&& rs[j].mask := by
  induction h generalizing j with
  | nil => simp at hj
  | cons hv _ ih =>
    cases j with
    | zero => exact hv
    | succ j =>
      rw [drawn_succ]
      exact ih j (Nat.lt_of_succ_lt_succ hj)

end Deals
end RandomKey

namespace Machine
variable {m m' : Machine}

def roll? (m : Machine) : Option Roll :=
  if m.Executes .rnd then some ⟨m.operands.nn, m.step.reg m.operands.x⟩ else none

def rollsIn : Nat → Machine → List Roll
  | 0, _ => []
  | n + 1, m => m.roll?.toList ++ rollsIn n m.step

end Machine

/-- What is rolled while a machine answers a request. -/
def Request.rolls (m : Machine) : Request → List Roll
  | action .step => m.rollsIn 1
  | cycles n | frame n => m.rollsIn n.toNat
  | _ => []

/-- What is rolled while a host is served; a request that is refused rolls nothing. -/
def Machine.rolls : List Request → Machine → List Roll
  | [], _ => []
  | r :: rs, m =>
    match r.answer m with
    | .ok m' => r.rolls m ++ rolls rs m'
    | .error _ => rolls rs m

namespace Machine
variable {m m' : Machine}

theorem step_of_rnd (h : m.Executes .rnd) :
    m.step = m.fetched.random m.operands.x m.operands.nn := by
  obtain ⟨hs, hp⟩ := h.ready
  rw [step_of_running hs hp, h.opcode_eq]
  rfl

theorem step_status_of_rnd (h : m.Executes .rnd) : m.step.status = .running := by
  rw [step_of_rnd h]
  exact h.ready.1

theorem reg_step_of_rnd (h : m.Executes .rnd) :
    m.step.reg m.operands.x = m.rng.drawn 0 &&& m.operands.nn := by
  rw [step_of_rnd h]
  exact reg_setRegister_self _ m.operands.x _

theorem step_rng (m : Machine) : m.step.rng = if m.Executes .rnd then m.rng.next else m.rng :=
  congrArg Devices.rng (step_devices m)

theorem deals_step (m : Machine) : m.rng.Deals m.roll?.toList m.step.rng := by
  rw [step_rng, roll?]
  split
  · next h => exact .cons (reg_step_of_rnd h) (.nil _)
  · exact .nil _

theorem deals_cycles (n : Nat) (m : Machine) : m.rng.Deals (m.rollsIn n) (m.cycles n).rng := by
  induction n generalizing m with
  | zero => exact .nil _
  | succ n ih => exact (deals_step m).append (ih m.step)

theorem deals_answer {r : Request} (h : r.answer m = .ok m') :
    m.rng.Deals (r.rolls m) m'.rng := by
  cases r with
  | action a =>
    cases h
    cases a with
    | step => exact deals_cycles 1 m
    | tick | keys => exact .nil _
  | load image =>
    rw [load_eq h]
    exact .nil _
  | cycles n =>
    rw [cycles?_eq_ok h]
    exact deals_cycles n.toNat m
  | frame n =>
    rw [frame?_eq_ok h]
    exact deals_cycles n.toNat m
  | reset =>
    cases h
    rw [reset_rng]
    exact .nil _
  | read a =>
    cases h
    rw [readByte]
    split <;> exact .nil _
  | write a b =>
    cases h
    rw [writeByte]
    split <;> exact .nil _

theorem deals_serve (rs : List Request) (m : Machine) :
    m.rng.Deals (m.rolls rs) (m.serve rs).rng := by
  induction rs generalizing m with
  | nil => exact .nil _
  | cons r rs ih =>
    rw [rolls, serve]
    cases ha : r.answer m with
    | ok m' => exact (deals_answer ha).append (ih m')
    | error e => exact ih m

/-- For every stream, program, input, memory and timing: a machine has taken as many keys from its stream
as it has executed random words, and the one that comes behind `j` others writes the byte behind
`j` others, cut to its mask. So runs from one key draw the same bytes, and a tick that halts, or of
a machine that does not run, draws none. -/
theorem rolls_of_key (key : RandomKey) (rs : List Request) :
    let m := (create key).serve rs
    let rolls := (create key).rolls rs
    m.rng = RandomKey.next^[rolls.length] key ∧
    (∀ (j : Nat) (h : j < rolls.length),
      rolls[j].value = key.drawn j &&& rolls[j].mask ∧
      rolls[j].value &&& ~~~rolls[j].mask = 0) ∧
    (∀ (qs : List Request) (j : Nat) (h : j < rolls.length)
      (h' : j < ((create key).rolls qs).length),
      rolls[j].value &&& ((create key).rolls qs)[j].mask =
        ((create key).rolls qs)[j].value &&& rolls[j].mask) ∧
    (m.status ≠ .running ∨ m.step.isFaulted = true → m.roll? = none ∧ m.step.rng = m.rng) := by
  intro m rolls
  have hkey : key.Deals rolls m.rng := deals_serve rs (create key)
  refine ⟨hkey.rest, ?_, ?_, ?_⟩
  · intro j h
    have hv := hkey.value j h
    refine ⟨hv, ?_⟩
    rw [hv, UInt8.and_assoc, UInt8.and_not_self, UInt8.and_zero]
  · intro qs j h h'
    have hother : key.Deals ((create key).rolls qs) _ := deals_serve qs (create key)
    rw [hkey.value j h, hother.value j h', UInt8.and_assoc, UInt8.and_assoc,
      UInt8.and_comm rolls[j].mask]
  · intro hidle
    have hnone : ¬m.Executes .rnd := by
      intro he
      obtain ⟨hs, -⟩ := he.ready
      rcases hidle with hidle | hidle
      · exact hidle hs
      · rw [isFaulted_of_running (step_status_of_rnd he)] at hidle
        cases hidle
    rw [step_rng, roll?, if_neg hnone, if_neg hnone]
    exact ⟨rfl, rfl⟩

end Machine
end AnyStream

namespace Machine

/-- Draws with its first word and halts with its second, a return with nothing called. -/
def drawsAndHalts : List Request :=
  [.load [0xC0, 0xFF, 0x00, 0xEE], .action .step, .action .step]

/-- Another program, which draws its first byte with its second word. -/
def drawsLater : List Request := [.load [0x60, 0x01, 0xC3, 0x0F], .cycles 2]

theorem masks_drawsAndHalts :
    ((create ⟨0, 0⟩).rolls drawsAndHalts).map Roll.mask = [0xFF] ∧
      ((create ⟨0, 0⟩).rolls drawsLater).map Roll.mask = [0x0F] ∧
      ((create ⟨0, 0⟩).serve drawsAndHalts).status ≠ .running := by
  decide +kernel

theorem rolls_of_key_drawsAndHalts :
    let m := (create ⟨0, 0⟩).serve drawsAndHalts
    (∃ a b : Roll, (create ⟨0, 0⟩).rolls drawsAndHalts = [a] ∧
      (create ⟨0, 0⟩).rolls drawsLater = [b] ∧ a.value &&& 0x0F = b.value &&& 0xFF ∧
      a.value = RandomKey.drawn ⟨0, 0⟩ 0 &&& 0xFF) ∧ m.step.rng = m.rng := by
  intro m
  obtain ⟨ha, hb, hhalted⟩ := masks_drawsAndHalts
  obtain ⟨-, hvalue, hruns, hidle⟩ := rolls_of_key ⟨0, 0⟩ drawsAndHalts
  obtain ⟨a, hra, hma⟩ := List.map_eq_singleton_iff.1 ha
  obtain ⟨b, hrb, hmb⟩ := List.map_eq_singleton_iff.1 hb
  have hv := (hvalue 0 (by simp [hra])).1
  have htwo := hruns drawsLater 0 (by simp [hra]) (by simp [hrb])
  simp only [hra, hrb, List.getElem_cons_zero, hma, hmb] at hv htwo
  exact ⟨⟨a, b, hra, hrb, htwo, hv⟩, (hidle (.inl hhalted)).2⟩

end Machine
end Chip8
