import Chip8.Proofs.Devices
import Chip8.Proofs.Layout
import Chip8.Proofs.Ownership
import Chip8.Proofs.Run

/-! A reset loads the program area again. So a program that has not stored into it starts from its
boot, and goes the same way until it draws a random byte. -/
namespace Chip8

/-! ### Ticks of a run -/
section Ticks
variable {P : Machine → Prop} {m : Machine} {a : Action} {as : List Action}

theorem forall_ticks_cons :
    (∀ before after, a :: as = before ++ .step :: after → P (m.run before)) ↔
      (a = .step → P m) ∧
        ∀ before after, as = before ++ .step :: after → P ((a.apply m).run before) := by
  constructor
  · intro h
    refine ⟨fun ha => h [] as (by rw [ha]; rfl), fun before after he => h (a :: before) after ?_⟩
    rw [he]
    rfl
  · rintro ⟨hfirst, hrest⟩ before after he
    cases before with
    | nil => exact hfirst (List.cons.inj he).1
    | cons b before =>
      obtain ⟨rfl, hr⟩ := List.cons.inj he
      exact hrest before after hr

end Ticks

namespace Machine
variable {m : Machine} {as : List Action}

/-! ### What a reset leaves -/

theorem reloaded_reloaded (bytes : Memory) : bytes.reloaded.reloaded = bytes.reloaded := by
  apply Vector.ext
  intro k hk
  rw [Memory.getElem_reloaded _ hk, Memory.getElem_reloaded _ hk]
  split <;> rfl

theorem reloaded_eq_store (bytes : Memory) :
    bytes.reloaded = Memory.boot.store Memory.programStart (bytes.toList.drop 0x200) := by
  apply Vector.ext
  intro k hk
  rw [Memory.getElem_reloaded _ hk, Memory.getElem_store_boot _ hk]
  split
  · next hlt => exact (Memory.layout_of_lt _ hlt).symm
  · next hge =>
    have hlo : ¬k < 0x050 := by omega
    have hk' : 0x200 + (k - 0x200) = k := by omega
    rw [Memory.layout, if_neg hlo, if_neg hge, getD_drop, hk', getD_toList _ _ hk]

theorem load_reset (m : Machine) :
    (create m.rng).load (m.memory.toList.drop 0x200) = .ok m.reset := by
  have hlen : (m.memory.toList.drop 0x200).length ≤ 3584 := by simp
  rw [load_eq_store _ hlen, reset, reloaded_eq_store]
  rfl

-- for any bytes, as in `rng_of_booted`: the memories are not to be unfolded
theorem reset_of_bytes (key : RandomKey) (bytes : Memory) :
    ({ create key with memory := bytes }).reset =
      { create key with memory := bytes.reloaded } := rfl

theorem create_of_bytes (key : RandomKey) (bytes : Memory) :
    { create key with memory := bytes } = ({
      rng := key, memory := bytes, pc := 0x200, display := Bitmap.blank,
      stack := ⟨Vector.replicate 16 0, 0⟩, delayTimer := 0, soundTimer := 0,
      keypad := Vector.replicate 16 false, v := Vector.replicate 16 0, i := 0,
      status := .running, waitRegister := 0 } : Machine) := rfl

theorem reset_reset (m : Machine) : m.reset.reset = m.reset := by
  have h := reset_of_bytes m.rng m.memory.reloaded
  rwa [reloaded_reloaded] at h

/-! ### Runs that keep the program area -/

/-- A tick that stores a byte in the program area. -/
def StoresInProgram (m : Machine) : Prop :=
  m.step.isFaulted = false ∧
    (m.Executes .bcd ∧ 0x200 ≤ m.i.toNat + 2 ∨
      m.Executes .store ∧ 0x200 ≤ m.i.toNat + m.operands.x.val)

instance (m : Machine) : Decidable m.StoresInProgram := inferInstanceAs (Decidable (_ ∧ _))

theorem storesInProgram_of_writes {b : Fin 4096} (hb : 0x200 ≤ b.val) (h : m.Writes (.byte b)) :
    m.StoresInProgram := by
  obtain ⟨⟨he, -, hle⟩ | ⟨he, -, hle⟩, hgo⟩ := h
  · exact ⟨hgo, .inl ⟨he, by omega⟩⟩
  · exact ⟨hgo, .inr ⟨he, by omega⟩⟩

theorem run_program
    (h : ∀ before after, as = before ++ .step :: after → ¬(m.run before).StoresInProgram)
    (b : Fin 4096) (hb : 0x200 ≤ b.val) : (m.run as).memory.get b = m.memory.get b := by
  induction as generalizing m with
  | nil => rfl
  | cons a as ih =>
    obtain ⟨hfirst, hrest⟩ := (forall_ticks_cons (P := fun m => ¬m.StoresInProgram)).1 h
    have ha : (a.apply m).memory.get b = m.memory.get b := by
      cases a with
      | step =>
        exact same_step (c := .byte b) fun hw => hfirst rfl (storesInProgram_of_writes hb hw)
      | tick | keys => rfl
    exact (ih hrest).trans ha

/-! ### Runs that draw nothing -/

theorem step_key (h : ¬m.Executes .rnd) (key : RandomKey) :
    ({ m with rng := key }).step = { m.step with rng := key } := by
  have hsees : m.SeesSame { m.devices with rng := key } :=
    ⟨fun he => absurd he h, fun _ => rfl, fun _ => rfl⟩
  refine step_attach_map (fun q => { q with rng := key }) hsees ?_
  rw [devicesAfter, devicesAfter, if_neg h]

theorem run_key
    (h : ∀ before after, as = before ++ .step :: after → ¬(m.run before).Executes .rnd)
    (key : RandomKey) : ({ m with rng := key }).run as = { m.run as with rng := key } := by
  induction as generalizing m with
  | nil => rfl
  | cons a as ih =>
    obtain ⟨hfirst, hrest⟩ := (forall_ticks_cons (P := fun m => ¬m.Executes .rnd)).1 h
    have ha : a.apply { m with rng := key } = { a.apply m with rng := key } := by
      cases a with
      | step => exact step_key (hfirst rfl) key
      | tick | keys => rfl
    rw [run, run, ha]
    exact ih hrest

/-! ### Runs from the boot -/

theorem reset_of_booted {key : RandomKey} {program : List UInt8} {m₀ : Machine}
    (h : (create key).load program = .ok m₀)
    (hm : ∀ b : Fin 4096, 0x200 ≤ b.val → m.memory.get b = m₀.memory.get b) :
    m.reset = { m₀ with rng := m.rng } := by
  have hmemory : m.memory.reloaded = m₀.memory := by
    apply Vector.ext
    intro k hk
    have hlayout : m₀.memory[k] = Memory.layout program k := memory_of_load h ⟨k, hk⟩
    rw [Memory.getElem_reloaded _ hk, hlayout]
    split
    · next hlt => exact (Memory.layout_of_lt _ hlt).symm
    · next hge => exact (hm ⟨k, hk⟩ (Nat.le_of_not_lt hge)).trans hlayout
  obtain ⟨bytes, rfl⟩ : ∃ bytes, m₀ = { create key with memory := bytes } := ⟨_, load_eq h⟩
  rw [reset, hmemory]
  exact create_of_bytes m.rng bytes

/-- Whatever has happened to a machine: a reset loads its program area into a machine that boots
with its random key, so a second one changes nothing, and nothing but that key and the program area
is left. From the boot of a program on, a run that stores nothing in the program area can be reset
at any point to that boot, but for the key, and what is done to it then goes as it did from the
boot, as long as no random byte is drawn. -/
theorem reset_reloads (m : Machine) :
    (create m.rng).load (m.memory.toList.drop 0x200) = .ok m.reset ∧
    m.reset.reset = m.reset ∧
    m.reset = {
      rng := m.rng, memory := m.reset.memory, pc := 0x200, display := Bitmap.blank,
      stack := ⟨Vector.replicate 16 0, 0⟩, delayTimer := 0, soundTimer := 0,
      keypad := Vector.replicate 16 false, v := Vector.replicate 16 0, i := 0,
      status := .running, waitRegister := 0 } ∧
    (∀ b : Fin 4096, m.reset.memory.get b =
      if b.val < 0x200 then Memory.layout [] b else m.memory.get b) ∧
    ∀ (key : RandomKey) (program : List UInt8), program.length ≤ 3584 →
      ∃ m₀, (create key).load program = .ok m₀ ∧ ∀ as : List Action,
        (∀ before after, as = before ++ .step :: after → ¬(m₀.run before).StoresInProgram) →
        (m₀.run as).reset = { m₀ with rng := (m₀.run as).rng } ∧
        ∀ bs : List Action,
          (∀ before after, bs = before ++ .step :: after → ¬(m₀.run before).Executes .rnd) →
          (m₀.run as).reset.run bs = { m₀.run bs with rng := (m₀.run as).rng } := by
  refine ⟨m.load_reset, m.reset_reset, create_of_bytes m.rng m.memory.reloaded,
    fun b => Memory.getElem_reloaded m.memory b.isLt, ?_⟩
  intro key program hlen
  obtain ⟨m₀, hm₀⟩ := load_of_length (create key) program hlen
  refine ⟨m₀, hm₀, fun as has => ?_⟩
  have hreset : (m₀.run as).reset = { m₀ with rng := (m₀.run as).rng } :=
    reset_of_booted hm₀ (run_program has)
  refine ⟨hreset, fun bs hbs => ?_⟩
  rw [hreset]
  exact run_key hbs _

/-- Stores two bytes below the program area, then draws a random one. -/
def storesBelow : List UInt8 := [0xA0, 0x00, 0xF1, 0x55, 0xC0, 0xFF]

theorem reset_reloads_storesBelow : ∃ m₀, (create ⟨0, 0⟩).load storesBelow = .ok m₀ ∧
    (m₀.run [.step, .step, .step]).reset.run [.step, .tick, .step] =
      { m₀.run [.step, .tick, .step] with rng := (m₀.run [.step, .step, .step]).rng } := by
  obtain ⟨m₀, hb, hruns⟩ := (reset_reloads (create ⟨0, 0⟩)).2.2.2.2 ⟨0, 0⟩ storesBelow (by decide)
  have hstores : ¬m₀.StoresInProgram ∧ ¬m₀.step.StoresInProgram ∧
      ¬m₀.step.step.StoresInProgram := by
    cases hb
    decide +kernel
  have hdraws : ¬m₀.Executes .rnd ∧ ¬m₀.step.tickTimers.Executes .rnd := by
    cases hb
    decide +kernel
  refine ⟨m₀, hb, (hruns [.step, .step, .step] ?_).2 [.step, .tick, .step] ?_⟩
  · rintro (_ | ⟨a, _ | ⟨b, _ | ⟨c, before⟩⟩⟩) after h
    all_goals simp at h
    · exact hstores.1
    · obtain ⟨rfl, -⟩ := h
      exact hstores.2.1
    · obtain ⟨rfl, rfl, -⟩ := h
      exact hstores.2.2
  · rintro (_ | ⟨a, _ | ⟨b, _ | ⟨c, before⟩⟩⟩) after h
    all_goals simp at h
    · exact hdraws.1
    · obtain ⟨rfl, rfl, -⟩ := h
      exact hdraws.2

end Machine
end Chip8
