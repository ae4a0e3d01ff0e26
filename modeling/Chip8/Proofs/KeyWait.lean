import Chip8.Proofs.WellFormed

/-! Waiting for a key. A machine that waits is suspended behind its word: idle ticks change nothing,
the host only its keypad and timers, and the first tick that finds a key pressed goes on. -/
namespace Chip8
open Opcode Instruction

namespace Keypad
variable {k : Keypad}

theorem get_of_lowest?_none (h : k.lowest? = none) (i : Fin 16) : k.get i = false := by
  have hall := Vector.findFinIdx?_eq_none_iff.1 h
  exact Bool.eq_false_of_not_eq_true (hall _ (Vector.getElem_mem i.isLt))

theorem get_of_lowest?_some {i : Fin 16} (h : k.lowest? = some i) :
    k.get i = true ∧ ∀ j < i, k.get j = false := by
  obtain ⟨xs, hx⟩ := k
  rw [lowest?, Vector.findFinIdx?_mk, Option.map_eq_some_iff] at h
  obtain ⟨i, hi, rfl⟩ := h
  obtain ⟨hpressed, hlow⟩ := Array.findFinIdx?_eq_some_iff.1 hi
  refine ⟨hpressed, fun j hj => ?_⟩
  exact Bool.eq_false_of_not_eq_true (hlow (j.cast hx.symm) hj)

theorem lowest?_released : released.lowest? = none := by decide +kernel

end Keypad

namespace Machine
variable {m n : Machine} {as : List Action} {x : Fin 16}

theorem step_of_waitForKey (hw : m.word? = some (0xF00A + 0x100 * x.val)) :
    m.step = { m with
      pc := m.pc + 2, status := .awaitingKey, waitRegister := UInt8.ofNat x.val } := by
  obtain ⟨hs, hp, he⟩ := word?_eq_some.1 hw
  have hx := x.isLt
  have ho : m.opcode = .ldKey := by
    rw [opcode, classify_eq_iff_misc (b := 0x0A) (by decide), wordAt_toNat hp, he]
    simp only [UInt8.reduceToNat]
    omega
  have hd : m.operands.x = x := by
    apply Fin.ext
    rw [operands, decode_x_val m.wordAt.toNat_lt, wordAt_toNat hp, he]
    omega
  rw [step_of_running hs hp, ho, Opcode.perform, hd]
  rfl

/-- At every tick of the run the keypad is empty. -/
def Unattended (m : Machine) (as : List Action) : Prop :=
  ∀ before after, as = before ++ .step :: after → (m.run before).keypad = .released

theorem Unattended.tail {a : Action} (h : m.Unattended (a :: as)) : (a.apply m).Unattended as := by
  intro before after he
  exact h (a :: before) after (by rw [he, List.cons_append])

/-- The second machine differs at most in what a host changes: the keypad and the timers. -/
def SameUpToHost (m n : Machine) : Prop :=
  n = { m with keypad := n.keypad, delayTimer := n.delayTimer, soundTimer := n.soundTimer }

theorem run_unattended (hs : m.status = .awaitingKey) (h : m.Unattended as) :
    m.SameUpToHost (m.run as) := by
  induction as generalizing m with
  | nil => rfl
  | cons a as ih =>
    cases a with
    | step =>
      have hk : m.keypad.lowest? = none := by
        rw [show m.keypad = .released from h [] as rfl, Keypad.lowest?_released]
      have hm : Action.step.apply m = m := step_of_no_key hs hk
      have hrest := h.tail
      rw [hm] at hrest
      rw [run, hm]
      exact ih hs hrest
    | tick => exact ih (m := m.tickTimers) hs h.tail
    | keys k => exact ih (m := { m with keypad := k }) hs h.tail

/-- Without ticks of its own a machine only has its host's fields changed. -/
theorem run_of_no_step (h : .step ∉ as) : m.SameUpToHost (m.run as) := by
  induction as generalizing m with
  | nil => rfl
  | cons a as ih =>
    obtain ⟨ha, has⟩ := not_or.1 (mt List.mem_cons.2 h)
    cases a with
    | step => exact absurd rfl ha
    | tick => exact ih (m := m.tickTimers) has
    | keys k => exact ih (m := { m with keypad := k }) has

theorem SameUpToHost.waitsOn (h : m.SameUpToHost n) :
    n.status = m.status ∧ n.pc = m.pc ∧ n.memory = m.memory ∧ n.waitRegister = m.waitRegister := by
  rw [h]
  exact ⟨rfl, rfl, rfl, rfl⟩

/-- The tick that finds a key pressed writes the lowest one and goes on. -/
theorem step_of_pressed (hs : m.status = .awaitingKey) (hr : m.waitRegister = UInt8.ofNat x.val)
    (hk : ∃ k, m.keypad.get k = true) :
    ∃ k, m.keypad.get k = true ∧ (∀ j < k, m.keypad.get j = false) ∧
      m.step = { m with status := .running, v := m.v.set x.val (UInt8.ofNat k.val) } := by
  cases hl : m.keypad.lowest? with
  | none =>
    obtain ⟨k, hk⟩ := hk
    rw [Keypad.get_of_lowest?_none hl] at hk
    cases hk
  | some k =>
    obtain ⟨hpressed, hlow⟩ := Keypad.get_of_lowest?_some hl
    have hx : m.waitRegister.toNat = x.val := by
      have hlt := x.isLt
      rw [hr, UInt8.toNat_ofNat']
      omega
    refine ⟨k, hpressed, hlow, ?_⟩
    rw [step_of_key hs hl, hx, setIfInBounds_eq_set _ _ x.isLt]

/-- From the tick that executes the word of a key wait, for every run behind it: the word itself
takes no key; while the keypad is empty at every tick the machine waits, and nothing but keypad
and timers changes; the first tick with a key pressed changes only the status and the register of
that word, to the lowest key; and the next tick executes the word behind it. -/
theorem key_wait (m : Machine) (x : Fin 16) (hw : m.word? = some (0xF00A + 0x100 * x.val)) :
    m.step = { m with
      pc := m.pc + 2, status := .awaitingKey, waitRegister := UInt8.ofNat x.val } ∧
    ∀ as, m.step.Unattended as →
      let n := m.step.run as
      n = { m.step with
        keypad := n.keypad, delayTimer := n.delayTimer, soundTimer := n.soundTimer } ∧
      n.status = .awaitingKey ∧ n.pc.toNat = m.pc.toNat + 2 ∧
      ((∃ k, n.keypad.get k = true) →
        ∃ k, n.keypad.get k = true ∧ (∀ j < k, n.keypad.get j = false) ∧
          n.step = { n with status := .running, v := n.v.set x.val (UInt8.ofNat k.val) } ∧
          ∀ bs, .step ∉ bs →
            let r := n.step.run bs
            r.status = .running ∧ r.pc.toNat = m.pc.toNat + 2 ∧ r.step = r.advance ∧
              r.word? = if m.pc.toNat + 2 < 4094 then
                some (256 * (m.memory.peek (m.pc.toNat + 2)).toNat +
                  (m.memory.peek (m.pc.toNat + 3)).toNat)
              else none) := by
  have hstep := step_of_waitForKey hw
  obtain ⟨-, hp, -⟩ := word?_eq_some.1 hw
  have hpc : m.step.pc.toNat = m.pc.toNat + 2 := by
    rw [hstep]
    exact fetched_pc hp
  have hs : m.step.status = .awaitingKey := by rw [hstep]
  have hr : m.step.waitRegister = UInt8.ofNat x.val := by rw [hstep]
  have hm : m.step.memory = m.memory := by rw [hstep]
  refine ⟨hstep, ?_⟩
  intro as h n
  have hn : m.step.SameUpToHost n := run_unattended hs h
  obtain ⟨hns, hnpc, hnm, hnr⟩ := hn.waitsOn
  refine ⟨hn, hns.trans hs, by rw [hnpc, hpc], fun hk => ?_⟩
  obtain ⟨k, hpressed, hlow, hgo⟩ := step_of_pressed (hns.trans hs) (hnr.trans hr) hk
  refine ⟨k, hpressed, hlow, hgo, ?_⟩
  intro bs hb r
  have hrest : n.step.SameUpToHost r := run_of_no_step hb
  obtain ⟨hrs, hrpc, hrm, -⟩ := hrest.waitsOn
  have hstatus : r.status = .running := by rw [hrs, hgo]
  have hnext : r.pc.toNat = m.pc.toNat + 2 := by
    rw [hrpc, hgo, ← hpc, ← hnpc]
  have hmem : r.memory = m.memory := by
    rw [hrm, hgo, ← hm, ← hnm]
  refine ⟨hstatus, hnext, by rw [step, hstatus], ?_⟩
  simp only [word?, bigEndian, hstatus, hnext, hmem, true_and]

/-- Waits for a key into V3 while 5 and 9 are already held. -/
def heldAtWait : Machine :=
  { create ⟨0, 0⟩ with
    memory := Memory.zeros.store 0x200 [0xF3, 0x0A]
    keypad := Keypad.released.set 5 true |>.set 9 true }

theorem key_wait_heldAtWait :
    heldAtWait.step.status = .awaitingKey ∧ heldAtWait.step.v = heldAtWait.v ∧
      heldAtWait.step.step = { heldAtWait.step with
        status := .running, v := heldAtWait.step.v.set 3 5 } := by
  have hw : heldAtWait.word? = some (0xF00A + 0x100 * (3 : Fin 16).val) := by decide +kernel
  obtain ⟨hstep, hrun⟩ := key_wait heldAtWait 3 hw
  obtain ⟨-, hs, -, hgo⟩ := hrun [] (by simp [Unattended])
  have hkeys : heldAtWait.step.keypad = heldAtWait.keypad := by rw [hstep]
  obtain ⟨k, hk, hlow, he, -⟩ := hgo ⟨5, by rw [run, hkeys]; decide +kernel⟩
  have hfive : ∀ k : Fin 16, heldAtWait.keypad.get k = true →
      (∀ j < k, heldAtWait.keypad.get j = false) → k = 5 := by
    decide +kernel
  rw [run, hkeys] at hk hlow
  rw [run, hfive k hk hlow] at he
  exact ⟨hs, by rw [hstep], he⟩

end Machine
end Chip8
