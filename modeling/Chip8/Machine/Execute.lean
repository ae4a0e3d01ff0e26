import Chip8.Machine.Transition

/-! Run-time dispatch on the digits of a word, and the tick that fetches and executes. -/
namespace Chip8.Machine

/-- Words of class 0 are compared whole; all but two of them are ignored. -/
def system (d : Instruction) (m : Machine) : Machine :=
  if d.raw = 0x00E0 then m.clearScreen
  else if d.raw = 0x00EE then m.returnFrom
  else m

def arithmeticWord (d : Instruction) (m : Machine) : Machine :=
  match Alu.ofDigit? d.n with
  | some op => m.arithmetic op d.x d.y
  | none => m

def skipOnKey (d : Instruction) (m : Machine) : Machine :=
  m.skipIf ((d.nn = 0x9E && m.keyHeld d.x) || (d.nn = 0xA1 && !m.keyHeld d.x))

/-- The low bytes of the instructions of class F. -/
def miscBytes : List UInt8 := [0x07, 0x0A, 0x15, 0x18, 0x1E, 0x29, 0x33, 0x55, 0x65]

/-- Their effects, in the same order. -/
def miscEffects : List (Fin 16 → Machine → Machine) :=
  [getDelay, waitForKey, setDelay, setSound, addIndex, fontGlyph, storeDecimal, storeRegisters,
   loadRegisters]

/-- The first byte that matches picks the effect; without one the index is past the last. -/
def misc (d : Instruction) (m : Machine) : Machine :=
  match miscEffects[miscBytes.findIdx (· = d.nn)]? with
  | some effect => effect d.x m
  | none => m

variable [Randomness]

def dispatch (d : Instruction) (m : Machine) : Machine :=
  match d.opcode with
  | 0x0 => m.system d
  | 0x1 => m.jump d.nnn
  | 0x2 => m.call d.nnn
  | 0x3 => m.skipEqImm d.x d.nn
  | 0x4 => m.skipNeImm d.x d.nn
  | 0x5 => m.skipIf (m.reg d.x = m.reg d.y && d.n = 0)
  | 0x6 => m.setRegister d.x d.nn
  | 0x7 => m.addImm d.x d.nn
  | 0x8 => m.arithmeticWord d
  | 0x9 => m.skipIf (m.reg d.x ≠ m.reg d.y && d.n = 0)
  | 0xA => m.setIndex d.nnn
  | 0xB => m.jumpOffset d.nnn
  | 0xC => m.random d.x d.nn
  | 0xD => m.draw d.x d.y d.n
  | 0xE => m.skipOnKey d
  | _ => m.misc d

def execute (word : Int) (m : Machine) : Machine := m.dispatch (Instruction.decode word)

/-- The word that a fetch sees; past the end of memory it is the last one. -/
def wordAt (m : Machine) : UInt16 :=
  let a := min m.pc.toNat 4094
  (m.memory.peek a).toUInt16 <<< 8 ||| (m.memory.peek (a + 1)).toUInt16

/-- A program counter with no room left to advance halts the machine. -/
def fetch (m : Machine) : Machine × UInt16 :=
  (if m.pc.toNat + 2 ≥ Memory.size then m.fault .endOfMemory else { m with pc := m.pc + 2 },
    m.wordAt)

def advance (m : Machine) : Machine :=
  let (next, word) := m.fetch
  if next.isFaulted then next else next.execute word.toNat

def awaitKey (m : Machine) : Machine :=
  match m.keypad.lowest? with
  | some k =>
    { m with v := m.v.setIfInBounds m.waitRegister.toNat (UInt8.ofNat k), status := .running }
  | none => m

/-- One tick: an instruction, a look at the keypad, or nothing. -/
def step (m : Machine) : Machine :=
  match m.status with
  | .running => m.advance
  | .awaitingKey => m.awaitKey
  | .halted _ => m

def cycles : Nat → Machine → Machine
  | 0, m => m
  | n + 1, m => cycles n m.step

def tickTimers (m : Machine) : Machine :=
  { m with
    delayTimer := if m.delayTimer > 0 then m.delayTimer - 1 else 0
    soundTimer := if m.soundTimer > 0 then m.soundTimer - 1 else 0 }

def frame (n : Nat) (m : Machine) : Machine := (m.cycles n).tickTimers

/-- Cycles are counted in 32 bits with a sign. Fewer than none are none. -/
def cycles? (n : Int) (m : Machine) : Except Failure Machine :=
  if -0x80000000 ≤ n ∧ n < 0x80000000 then .ok (m.cycles n.toNat) else .error .outOfRange

def frame? (n : Int) (m : Machine) : Except Failure Machine := (m.cycles? n).map tickTimers

end Chip8.Machine
