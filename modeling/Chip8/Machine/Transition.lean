import Chip8.Alu
import Chip8.Instruction
import Chip8.Machine
import Chip8.Opcode

/-! The effect of each instruction on the machine. A guard fires before any field is written,
and the program counter has already passed the instruction. -/
namespace Chip8

namespace Machine

def clearScreen (m : Machine) : Machine := { m with display := Bitmap.blank }

def returnFrom (m : Machine) : Machine :=
  if m.stack.isEmpty then m.fault .stackUnderflow
  else
    let (rest, a) := m.stack.pop
    { m with stack := rest, pc := a }

def jump (nnn : Fin 4096) (m : Machine) : Machine := { m with pc := UInt16.ofNat nnn.val }

def call (nnn : Fin 4096) (m : Machine) : Machine :=
  if m.stack.isFull then m.fault .stackOverflow
  else jump nnn { m with stack := m.stack.push m.pc }

def skipIf (c : Bool) (m : Machine) : Machine := if c then { m with pc := m.pc + 2 } else m

def skipEqImm (x : Fin 16) (nn : UInt8) (m : Machine) : Machine := m.skipIf (m.reg x = nn)

def skipNeImm (x : Fin 16) (nn : UInt8) (m : Machine) : Machine := m.skipIf (m.reg x ≠ nn)

def skipEqReg (x y : Fin 16) (m : Machine) : Machine := m.skipIf (m.reg x = m.reg y)

def skipNeReg (x y : Fin 16) (m : Machine) : Machine := m.skipIf (m.reg x ≠ m.reg y)

def addImm (x : Fin 16) (nn : UInt8) (m : Machine) : Machine := m.setRegister x (m.reg x + nn)

/-- The result is written first and the flag second, so VF as a target ends as the flag. -/
def arithmetic (op : Alu) (x y : Fin 16) (m : Machine) : Machine :=
  let done := m.setRegister x (op.result (m.reg x) (m.reg y))
  match op.flag? (m.reg x) (m.reg y) with
  | some f => done.setRegister 15 f
  | none => done

def setIndex (nnn : Fin 4096) (m : Machine) : Machine := { m with i := UInt16.ofNat nnn.val }

def jumpOffset (nnn : Fin 4096) (m : Machine) : Machine :=
  let target := nnn.val + (m.reg 0).toNat
  if Memory.Holds target 1 then { m with pc := UInt16.ofNat target } else m.fault .memoryOutOfBounds

def random [Randomness] (x : Fin 16) (nn : UInt8) (m : Machine) : Machine :=
  let (next, draw) := Randomness.split m.rng
  ({ m with rng := next }).setRegister x (Randomness.byte draw &&& nn)

def draw (x y n : Fin 16) (m : Machine) : Machine :=
  if Memory.Holds m.i.toNat n.val then
    let sprite := Sprite.mask m.memory m.i.toNat (m.reg x).toNat (m.reg y).toNat n.val
    let (display, collision) := Sprite.blit m.display sprite
    ({ m with display }).setRegister 15 collision.toUInt8
  else m.fault .memoryOutOfBounds

/-- The key that a register selects: its low digit. -/
def keyHeld (x : Fin 16) (m : Machine) : Bool := m.keypad.get (Fin.ofNat 16 (m.reg x).toNat)

def skipIfKey (x : Fin 16) (m : Machine) : Machine := m.skipIf (m.keyHeld x)

def skipUnlessKey (x : Fin 16) (m : Machine) : Machine := m.skipIf (!m.keyHeld x)

def getDelay (x : Fin 16) (m : Machine) : Machine := m.setRegister x m.delayTimer

def waitForKey (x : Fin 16) (m : Machine) : Machine :=
  { m with status := .awaitingKey, waitRegister := UInt8.ofNat x.val }

def setDelay (x : Fin 16) (m : Machine) : Machine := { m with delayTimer := m.reg x }

def setSound (x : Fin 16) (m : Machine) : Machine := { m with soundTimer := m.reg x }

def addIndex (x : Fin 16) (m : Machine) : Machine := { m with i := m.i + (m.reg x).toUInt16 }

def fontGlyph (x : Fin 16) (m : Machine) : Machine :=
  { m with i := UInt16.ofNat (Memory.fontStart + (m.reg x).toNat * Memory.glyphSize) }

def decimalDigits (b : UInt8) : List UInt8 := [b / 100, b / 10 % 10, b % 10]

def storeDecimal (x : Fin 16) (m : Machine) : Machine :=
  if Memory.Holds m.i.toNat 3 then
    { m with memory := m.memory.store m.i.toNat (decimalDigits (m.reg x)) }
  else m.fault .memoryOutOfBounds

/-- The sixteen bytes from `I` on, whether or not all of them lie inside memory. -/
def window (m : Machine) : Vector UInt8 16 :=
  Vector.ofFn fun k => m.memory.filled (m.i.toNat + k.val)

/-- The whole window is written back: registers up to the last one, behind it what was there. -/
def storeRegisters (x : Fin 16) (m : Machine) : Machine :=
  if Memory.Holds m.i.toNat (x.val + 1) then
    let bytes : Vector UInt8 16 := Vector.ofFn fun k => if k ≤ x then m.reg k else m.window.get k
    { m with memory := m.memory.store m.i.toNat bytes.toList }
  else m.fault .memoryOutOfBounds

def loadRegisters (x : Fin 16) (m : Machine) : Machine :=
  if Memory.Holds m.i.toNat (x.val + 1) then
    { m with v := Vector.ofFn fun k => if k ≤ x then m.window.get k else m.reg k }
  else m.fault .memoryOutOfBounds

end Machine

/-- The transition that a variant names, with the operands of a word. -/
def Opcode.perform [Randomness] (o : Opcode) (d : Instruction) (m : Machine) : Machine :=
  match o with
  | .cls => m.clearScreen
  | .ret => m.returnFrom
  | .jp => m.jump d.nnn
  | .call => m.call d.nnn
  | .seImm => m.skipEqImm d.x d.nn
  | .sneImm => m.skipNeImm d.x d.nn
  | .seReg => m.skipEqReg d.x d.y
  | .ldImm => m.setRegister d.x d.nn
  | .addImm => m.addImm d.x d.nn
  | .ldReg => m.arithmetic .set d.x d.y
  | .or => m.arithmetic .or d.x d.y
  | .and => m.arithmetic .and d.x d.y
  | .xor => m.arithmetic .xor d.x d.y
  | .addReg => m.arithmetic .add d.x d.y
  | .sub => m.arithmetic .subXY d.x d.y
  | .shr => m.arithmetic .shiftRight d.x d.y
  | .subn => m.arithmetic .subYX d.x d.y
  | .shl => m.arithmetic .shiftLeft d.x d.y
  | .sneReg => m.skipNeReg d.x d.y
  | .ldI => m.setIndex d.nnn
  | .jpV0 => m.jumpOffset d.nnn
  | .rnd => m.random d.x d.nn
  | .drw => m.draw d.x d.y d.n
  | .skp => m.skipIfKey d.x
  | .sknp => m.skipUnlessKey d.x
  | .ldVxDt => m.getDelay d.x
  | .ldKey => m.waitForKey d.x
  | .ldDt => m.setDelay d.x
  | .ldSt => m.setSound d.x
  | .addI => m.addIndex d.x
  | .ldFont => m.fontGlyph d.x
  | .bcd => m.storeDecimal d.x
  | .store => m.storeRegisters d.x
  | .load => m.loadRegisters d.x
  | .unknown => m

end Chip8
