import Chip8.Machine.Execute

/-! The machine with every access checked: reading or writing outside an array gives no result, and
a tick touches only the addresses that its word names. -/
namespace Chip8

section Access
variable {α : Type} {n : Nat}

def put? (xs : Vector α n) (i : Nat) (a : α) : Option (Vector α n) :=
  if h : i < n then some (xs.set i a) else none

def read? (xs : Vector α n) (i : Nat) : Nat → Option (List α)
  | 0 => some []
  | k + 1 => do
    let a ← xs[i]?
    let rest ← read? xs (i + 1) k
    return a :: rest

def write? (xs : Vector α n) (i : Nat) : List α → Option (Vector α n)
  | [] => some xs
  | a :: rest => do
    let next ← put? xs i a
    write? next (i + 1) rest

end Access

namespace CallStack

def push? (a : UInt16) (s : CallStack) : Option CallStack := do
  let slots ← put? s.slots s.pointer.toNat a
  return ⟨slots, s.pointer + 1⟩

def pop? (s : CallStack) : Option (CallStack × UInt16) := do
  let p := s.pointer - 1
  let a ← s.slots[p.toNat]?
  let slots ← put? s.slots p.toNat 0
  return (⟨slots, p⟩, a)

end CallStack

/-- Rows of eight pixels, one below the other from line `y` on. -/
def Sprite.place? (x : Nat) : Nat → List UInt8 → Display → Option Display
  | _, [], d => some d
  | y, b :: rest, d => do
    let next ← put? d (y % 32) (row b (x % 64))
    place? x (y + 1) rest next

namespace Machine

def reg? (x : Nat) (m : Machine) : Option UInt8 := m.v[x]?

def setRegister? (x : Nat) (b : UInt8) (m : Machine) : Option Machine := do
  let v ← put? m.v x b
  return { m with v }

def returnFrom? (m : Machine) : Option Machine :=
  if m.stack.isEmpty then some (m.fault .stackUnderflow)
  else do
    let (rest, a) ← m.stack.pop?
    return { m with stack := rest, pc := a }

def call? (nnn : Fin 4096) (m : Machine) : Option Machine :=
  if m.stack.isFull then some (m.fault .stackOverflow)
  else do
    let stack ← m.stack.push? m.pc
    return jump nnn { m with stack }

def arithmetic? (op : Alu) (x y : Nat) (m : Machine) : Option Machine := do
  let vx ← m.reg? x
  let vy ← m.reg? y
  let done ← m.setRegister? x (op.result vx vy)
  match op.flag? vx vy with
  | some f => done.setRegister? 15 f
  | none => return done

def jumpOffset? (nnn : Fin 4096) (m : Machine) : Option Machine := do
  let target := nnn.val + (← m.reg? 0).toNat
  if Memory.Holds target 1 then return { m with pc := UInt16.ofNat target }
  else return m.fault .memoryOutOfBounds

def random? [Randomness] (x : Nat) (nn : UInt8) (m : Machine) : Option Machine :=
  let (next, draw) := Randomness.split m.rng
  ({ m with rng := next }).setRegister? x (Randomness.byte draw &&& nn)

def draw? (x y n : Nat) (m : Machine) : Option Machine :=
  if Memory.Holds m.i.toNat n then do
    let vx ← m.reg? x
    let vy ← m.reg? y
    let rows ← read? m.memory m.i.toNat n
    let sprite ← Sprite.place? vx.toNat vy.toNat rows Bitmap.blank
    let (display, collision) := Sprite.blit m.display sprite
    ({ m with display }).setRegister? 15 collision.toUInt8
  else some (m.fault .memoryOutOfBounds)

def keyHeld? (x : Nat) (m : Machine) : Option Bool := do
  let key ← m.reg? x
  m.keypad[key.toNat % 16]?

def storeDecimal? (x : Nat) (m : Machine) : Option Machine :=
  if Memory.Holds m.i.toNat 3 then do
    let vx ← m.reg? x
    let memory ← write? m.memory m.i.toNat (decimalDigits vx)
    return { m with memory }
  else some (m.fault .memoryOutOfBounds)

def storeRegisters? (x : Nat) (m : Machine) : Option Machine :=
  if Memory.Holds m.i.toNat (x + 1) then do
    let bytes ← read? m.v 0 (x + 1)
    let memory ← write? m.memory m.i.toNat bytes
    return { m with memory }
  else some (m.fault .memoryOutOfBounds)

def loadRegisters? (x : Nat) (m : Machine) : Option Machine :=
  if Memory.Holds m.i.toNat (x + 1) then do
    let bytes ← read? m.memory m.i.toNat (x + 1)
    let v ← write? m.v 0 bytes
    return { m with v }
  else some (m.fault .memoryOutOfBounds)

end Machine

variable [Randomness]

def Opcode.perform? (o : Opcode) (d : Instruction) (m : Machine) : Option Machine :=
  match o with
  | .cls => return m.clearScreen
  | .ret => m.returnFrom?
  | .jp => return m.jump d.nnn
  | .call => m.call? d.nnn
  | .seImm => return m.skipIf ((← m.reg? d.x) = d.nn)
  | .sneImm => return m.skipIf ((← m.reg? d.x) ≠ d.nn)
  | .seReg => return m.skipIf ((← m.reg? d.x) = (← m.reg? d.y))
  | .ldImm => m.setRegister? d.x d.nn
  | .addImm => do m.setRegister? d.x ((← m.reg? d.x) + d.nn)
  | .ldReg => m.arithmetic? .set d.x d.y
  | .or => m.arithmetic? .or d.x d.y
  | .and => m.arithmetic? .and d.x d.y
  | .xor => m.arithmetic? .xor d.x d.y
  | .addReg => m.arithmetic? .add d.x d.y
  | .sub => m.arithmetic? .subXY d.x d.y
  | .shr => m.arithmetic? .shiftRight d.x d.y
  | .subn => m.arithmetic? .subYX d.x d.y
  | .shl => m.arithmetic? .shiftLeft d.x d.y
  | .sneReg => return m.skipIf ((← m.reg? d.x) ≠ (← m.reg? d.y))
  | .ldI => return m.setIndex d.nnn
  | .jpV0 => m.jumpOffset? d.nnn
  | .rnd => m.random? d.x d.nn
  | .drw => m.draw? d.x d.y d.n
  | .skp => return m.skipIf (← m.keyHeld? d.x)
  | .sknp => return m.skipIf !(← m.keyHeld? d.x)
  | .ldVxDt => m.setRegister? d.x m.delayTimer
  | .ldKey => return m.waitForKey d.x
  | .ldDt => return { m with delayTimer := (← m.reg? d.x) }
  | .ldSt => return { m with soundTimer := (← m.reg? d.x) }
  | .addI => return { m with i := m.i + (← m.reg? d.x).toUInt16 }
  | .ldFont =>
    return { m with
      i := UInt16.ofNat (Memory.fontStart + (← m.reg? d.x).toNat * Memory.glyphSize) }
  | .bcd => m.storeDecimal? d.x
  | .store => m.storeRegisters? d.x
  | .load => m.loadRegisters? d.x
  | .unknown => return m

namespace Machine

/-- Two bytes are read, unless there is no room to advance. -/
def advance? (m : Machine) : Option Machine :=
  if m.pc.toNat + 2 ≥ Memory.size then some (m.fault .endOfMemory)
  else do
    let hi ← m.memory[m.pc.toNat]?
    let lo ← m.memory[m.pc.toNat + 1]?
    let word := (hi.toUInt16 <<< 8 ||| lo.toUInt16).toNat
    (Opcode.classify word).perform? (Instruction.decode word) { m with pc := m.pc + 2 }

def awaitKey? (m : Machine) : Option Machine :=
  match m.keypad.lowest? with
  | some k => do
    let v ← put? m.v m.waitRegister.toNat (UInt8.ofNat k)
    return { m with v, status := .running }
  | none => some m

def step? (m : Machine) : Option Machine :=
  match m.status with
  | .running => m.advance?
  | .awaitingKey => m.awaitKey?
  | .halted _ => some m

end Machine
end Chip8
