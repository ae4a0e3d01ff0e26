import Chip8.Proofs.Executed

/-! The devices around a program: random stream, timers and keypad. A tick commutes with a change
of devices that it does not read, so a program sees them only through the words that name them. -/
namespace Chip8
open Opcode

structure Devices where
  rng : RandomKey
  delayTimer : UInt8
  soundTimer : UInt8
  keypad : Keypad

namespace Machine

def devices (m : Machine) : Devices := ⟨m.rng, m.delayTimer, m.soundTimer, m.keypad⟩

def attach (p : Devices) (m : Machine) : Machine :=
  { m with
    rng := p.rng, delayTimer := p.delayTimer, soundTimer := p.soundTimer, keypad := p.keypad }

end Machine

variable {o : Opcode} {d : Instruction} {m : Machine} {p : Devices}

/-- The devices `p` behind a variant that the machine `m` performs. -/
def Opcode.devicesAfter [Randomness] (o : Opcode) (d : Instruction) (m : Machine) (p : Devices) :
    Devices where
  rng := if o = rnd then (Randomness.split p.rng).1 else p.rng
  delayTimer := if o = ldDt then m.reg d.x else p.delayTimer
  soundTimer := if o = ldSt then m.reg d.x else p.soundTimer
  keypad := p.keypad

/-- One variant draws, one reads the delay timer and two read the keypad; no variant reads the
sound timer. -/
theorem Opcode.perform_attach [Randomness] (hr : o = rnd → p.rng = m.rng)
    (hd : o = ldVxDt → p.delayTimer = m.delayTimer)
    (hk : o = skp ∨ o = sknp → p.keypad = m.keypad) :
    o.perform d (m.attach p) = (o.perform d m).attach (o.devicesAfter d m p) := by
  cases o with
  | ret | call | jpV0 | drw | bcd | load =>
    simp only [perform, Machine.returnFrom, Machine.call, Machine.jumpOffset, Machine.draw,
      Machine.storeDecimal, Machine.loadRegisters, apply_ite (Machine.attach _)]
    rfl
  | store =>
    have hv (k : Fin 16) : (m.attach p).reg k = m.reg k := rfl
    have hw : (m.attach p).window = m.window := rfl
    simp only [perform, Machine.storeRegisters, hv, hw, apply_ite (Machine.attach _)]
    -- the stored bytes are the same term on both sides and need not be unfolded
    generalize (Vector.ofFn _ : Vector UInt8 16).toList = bytes
    rfl
  | seImm | sneImm | seReg | sneReg =>
    simp only [perform, Machine.skipEqImm, Machine.skipNeImm, Machine.skipEqReg,
      Machine.skipNeReg, Machine.skipIf_eq]
    rfl
  | skp | sknp =>
    have hs : (m.attach p).keyHeld d.x = m.keyHeld d.x :=
      congrArg (fun k : Keypad => k.get _) (hk (by simp))
    simp only [perform, Machine.skipIfKey, Machine.skipUnlessKey, Machine.skipIf_eq, hs]
    rfl
  | rnd =>
    have hs : (m.attach p).rng = m.rng := hr rfl
    simp only [perform, Machine.random, hs, devicesAfter, if_pos, hr]
    rfl
  | ldVxDt =>
    have hs : (m.attach p).delayTimer = m.delayTimer := hd rfl
    simp only [perform, Machine.getDelay, hs]
    rfl
  | _ => rfl

namespace Machine

/-- What a tick of the machine reads of its devices is the same in `p`. -/
structure SeesSame (m : Machine) (p : Devices) : Prop where
  rng : m.Executes .rnd → p.rng = m.rng
  delayTimer : m.Executes .ldVxDt → p.delayTimer = m.delayTimer
  keypad : m.Executes .skp ∨ m.Executes .sknp ∨ m.status = .awaitingKey → p.keypad = m.keypad

theorem SeesSame.refl (m : Machine) : m.SeesSame m.devices :=
  ⟨fun _ => rfl, fun _ => rfl, fun _ => rfl⟩

variable [Randomness]

/-- The devices `p` behind a tick of the machine. -/
def devicesAfter (m : Machine) (p : Devices) : Devices where
  rng := if m.Executes .rnd then (Randomness.split p.rng).1 else p.rng
  delayTimer := if m.Executes .ldDt then m.reg m.operands.x else p.delayTimer
  soundTimer := if m.Executes .ldSt then m.reg m.operands.x else p.soundTimer
  keypad := p.keypad

theorem devicesAfter_of_not_ready (h : ¬(m.status = .running ∧ m.pc.toNat < 4094)) :
    m.devicesAfter p = p := by
  have he (o : Opcode) : ¬m.Executes o := fun ho => h ho.ready
  simp [devicesAfter, he]

theorem devicesAfter_of_ready (hs : m.status = .running) (hp : m.pc.toNat < 4094) :
    m.devicesAfter p = m.opcode.devicesAfter m.operands m.fetched p := by
  simp only [devicesAfter, Opcode.devicesAfter, executes_iff hs hp, ne_eq, reduceCtorEq,
    not_false_eq_true]
  rfl

theorem step_attach (h : m.SeesSame p) :
    (m.attach p).step = m.step.attach (m.devicesAfter p) := by
  cases hs : m.status with
  | halted f =>
    rw [devicesAfter_of_not_ready (by simp [hs]), step_of_halted hs]
    exact step_of_halted hs
  | awaitingKey =>
    have hk : (m.attach p).keypad = m.keypad := h.keypad (.inr (.inr hs))
    rw [devicesAfter_of_not_ready (by simp [hs])]
    cases hl : m.keypad.lowest? with
    | none =>
      rw [step_of_no_key hs hl]
      exact step_of_no_key hs (by rw [hk, hl])
    | some k =>
      rw [step_of_key hs hl]
      exact step_of_key hs (by rw [hk, hl])
  | running =>
    by_cases hp : m.pc.toNat < 4094
    · have he (o : Opcode) (ho : o ≠ .unknown) : m.opcode = o → m.Executes o :=
        (executes_iff hs hp ho).2
      rw [devicesAfter_of_ready hs hp, step_of_running hs hp, ← Opcode.perform_attach]
      · exact step_of_running hs hp
      · intro ho
        exact h.rng (he _ nofun ho)
      · intro ho
        exact h.delayTimer (he _ nofun ho)
      · rintro (ho | ho)
        · exact h.keypad (.inl (he _ nofun ho))
        · exact h.keypad (.inr (.inl (he _ nofun ho)))
    · rw [devicesAfter_of_not_ready fun hr => hp hr.2, step_at_end hs (by omega)]
      exact step_at_end hs (Nat.le_of_not_lt hp)

theorem step_devices (m : Machine) : m.step.devices = m.devicesAfter m.devices :=
  congrArg devices (step_attach (.refl m))

/-- A change that the tick hands on as the change `f` can be made before or behind it. -/
theorem step_attach_map (f : Devices → Devices) (h : m.SeesSame p)
    (hf : m.devicesAfter p = f (m.devicesAfter m.devices)) :
    (m.attach p).step = m.step.attach (f m.step.devices) := by
  rw [step_attach h, hf, step_devices]

end Machine
end Chip8
