import Chip8.CallStack
import Chip8.Display
import Chip8.Failure
import Chip8.Memory
import Chip8.RandomKey
import Chip8.Status

/-! The complete machine state, how it starts, and checked access to its memory. -/
namespace Chip8

abbrev Registers := Vector UInt8 16

/-- The sixteen keys, each pressed or released. -/
abbrev Keypad := Vector Bool 16

namespace Keypad

def released : Keypad := Vector.replicate 16 false

def lowest? (k : Keypad) : Option (Fin 16) := k.findFinIdx? id

/-- Sixteen flags in order; any other number of them is no keypad. -/
def ofFlags? (flags : List Bool) : Option Keypad :=
  if h : flags.length = 16 then some ⟨flags.toArray, by simpa using h⟩ else none

end Keypad

structure Machine where
  rng : RandomKey
  memory : Memory := .zeros
  pc : UInt16 := 0x200
  display : Display := Bitmap.blank
  stack : CallStack := .empty
  delayTimer : UInt8 := 0
  soundTimer : UInt8 := 0
  keypad : Keypad := .released
  v : Registers := Vector.replicate 16 0
  i : UInt16 := 0
  status : Status := .running
  waitRegister : UInt8 := 0
  deriving DecidableEq

namespace Machine

/-- The machine at boot: the font is in place and everything else is zero. -/
def create (key : RandomKey) : Machine := { rng := key, memory := .boot }

/-- Boot again without reloading the program; the random stream goes on. -/
def reset (m : Machine) : Machine := { create m.rng with memory := m.memory.reloaded }

def reg (m : Machine) (x : Fin 16) : UInt8 := m.v.get x

def setRegister (x : Fin 16) (b : UInt8) (m : Machine) : Machine :=
  { m with v := m.v.set x.val b x.isLt }

@[simp] theorem reg_setRegister_self (m : Machine) (x : Fin 16) (b : UInt8) :
    (m.setRegister x b).reg x = b :=
  Vector.getElem_set_self x.isLt

theorem reg_setRegister_of_ne (m : Machine) {x k : Fin 16} (b : UInt8) (h : k ≠ x) :
    (m.setRegister x b).reg k = m.reg k :=
  Vector.getElem_set_ne x.isLt k.isLt fun he => h (Fin.ext he.symm)

theorem reg_setRegister (m : Machine) (x k : Fin 16) (b : UInt8) :
    (m.setRegister x b).reg k = if k = x then b else m.reg k := by
  by_cases h : k = x
  · rw [h, if_pos rfl, reg_setRegister_self]
  · rw [if_neg h, reg_setRegister_of_ne m b h]

def fault (f : Fault) (m : Machine) : Machine := { m with status := .halted f }

def isFaulted (m : Machine) : Bool := m.status.isHalted

def load (program : List UInt8) (m : Machine) : Except Failure Machine :=
  if program.length > Memory.maxRomSize then .error (.halt (.romTooLarge program.length))
  else .ok { m with memory := m.memory.store Memory.programStart program }

def failure? (m : Machine) : Option Failure :=
  match m.status with
  | .halted f =>
    match Cause.ofFault? f with
    | some c => some (.halt (.fault c none (some m.pc.toNat)))
    | none => some .unassignedStatus
  | _ => none

/-- An address outside memory halts the machine and reads as zero. -/
def readByte (a : Int32) (m : Machine) : Machine × UInt8 :=
  if Memory.inBounds a 1 then (m, m.memory.peek a.toInt.toNat)
  else (m.fault .memoryOutOfBounds, 0)

/-- An address outside memory halts the machine and stores nothing. -/
def writeByte (a : Int32) (b : UInt8) (m : Machine) : Machine :=
  if Memory.inBounds a 1 then { m with memory := m.memory.poke a.toInt.toNat b }
  else m.fault .memoryOutOfBounds

/-- Of a wider value the low byte is written. -/
def writeValue (a v : Int32) (m : Machine) : Machine := m.writeByte a (UInt8.ofInt v.toInt)

end Chip8.Machine
