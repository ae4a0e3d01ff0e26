import Chip8.Proofs.Devices
import Chip8.Proofs.Run

/-! What a program cannot observe: machines that differ in the sound timer alone never differ in
anything else, and those that differ in the keypad alone not before a tick looks at the keys. -/
namespace Chip8.Machine
variable {m n : Machine}

theorem step_soundTimer (m : Machine) (t : UInt8) :
    ({ m with soundTimer := t }).step =
      { m.step with soundTimer := if m.Executes .ldSt then m.reg m.operands.x else t } := by
  have hsees : m.SeesSame { m.devices with soundTimer := t } :=
    ⟨fun _ => rfl, fun _ => rfl, fun _ => rfl⟩
  exact step_attach_map (fun q => { q with
    soundTimer := if m.Executes .ldSt then m.reg m.operands.x else t }) hsees rfl

/-- The second machine differs at most in its sound timer. -/
def SameUpToSound (m n : Machine) : Prop := n = { m with soundTimer := n.soundTimer }

theorem SameUpToSound.apply (h : m.SameUpToSound n) (a : Action) :
    (a.apply m).SameUpToSound (a.apply n) := by
  rw [SameUpToSound] at h
  generalize n.soundTimer = t at h
  subst h
  cases a with
  | step =>
    rw [SameUpToSound, Action.apply, Action.apply, step_soundTimer m t]
  | tick | keys => rfl

theorem SameUpToSound.run (h : m.SameUpToSound n) (as : List Action) :
    (m.run as).SameUpToSound (n.run as) := by
  induction as generalizing m n with
  | nil => exact h
  | cons a as ih => exact ih (h.apply a)

/-- A tick that looks at the keys, to skip a word or to end a wait. -/
def ReadsKeypad (m : Machine) : Prop :=
  m.Executes .skp ∨ m.Executes .sknp ∨ m.status = .awaitingKey

instance (m : Machine) : Decidable m.ReadsKeypad :=
  inferInstanceAs (Decidable (_ ∨ _ ∨ _))

theorem step_keypad (h : ¬m.ReadsKeypad) (k : Keypad) :
    ({ m with keypad := k }).step = { m.step with keypad := k } := by
  have hsees : m.SeesSame { m.devices with keypad := k } :=
    ⟨fun _ => rfl, fun _ => rfl, fun hr => absurd hr h⟩
  exact step_attach_map (fun q => { q with keypad := k }) hsees rfl

theorem cycles_keypad {c : Nat} (h : ∀ j < c, ¬(m.cycles j).ReadsKeypad) (k : Keypad) :
    ({ m with keypad := k }).cycles c = { m.cycles c with keypad := k } := by
  induction c generalizing m with
  | zero => rfl
  | succ c ih =>
    obtain ⟨hfirst, hrest⟩ := Nat.forall_lt_succ_left.1 h
    have hm : ({ m with keypad := k }).step = { m.step with keypad := k } := step_keypad hfirst k
    rw [cycles, hm]
    exact ih hrest

/-- Machines that agree but for the sound timer still do after whatever is done to both. Machines
that agree but for the keypad still do as long as no tick of the first one looks at the keys. -/
theorem host_fields_unread (m n : Machine) :
    (n = { m with soundTimer := n.soundTimer } → ∀ as : List Action,
      n.run as = { m.run as with soundTimer := (n.run as).soundTimer }) ∧
    (n = { m with keypad := n.keypad } → ∀ c : Nat,
      (∀ j < c, ¬(m.cycles j).ReadsKeypad) →
      n.cycles c = { m.cycles c with keypad := n.keypad }) := by
  refine ⟨SameUpToSound.run, ?_⟩
  intro h c hc
  have hm := cycles_keypad hc n.keypad
  rwa [← h] at hm

/-- Sets the sound timer to 3C and then waits for a key. -/
def soundsThenWaits : Machine :=
  { create ⟨0, 0⟩ with
    memory := Memory.zeros.store 0x200 [0x60, 0x3C, 0xF0, 0x18, 0xF0, 0x0A] }

theorem host_fields_unread_soundsThenWaits :
    let m := soundsThenWaits
    let k := Keypad.released.set 7 true
    (∃ t, ({ m with soundTimer := 5 }).run [.step, .tick, .step, .keys k] =
      { m.run [.step, .tick, .step, .keys k] with soundTimer := t }) ∧
    ({ m with keypad := k }).cycles 3 = { m.cycles 3 with keypad := k } := by
  intro m k
  refine ⟨⟨_, (host_fields_unread m { m with soundTimer := 5 }).1 rfl _⟩, ?_⟩
  exact (host_fields_unread m { m with keypad := k }).2 rfl 3 (by decide +kernel)

end Chip8.Machine
