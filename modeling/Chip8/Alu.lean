/-! Arithmetic on two registers: a result byte, and for some operations a flag. -/
namespace Chip8

inductive Alu where
  | set | or | and | xor | add | subXY | shiftRight | subYX | shiftLeft
  deriving DecidableEq, Repr

namespace Alu

/-- The digits that select an operation: 0 to 7 and E. -/
def selects : Vector Bool 16 :=
  #v[true, true, true, true, true, true, true, true,
     false, false, false, false, false, false, true, false]

/-- The operations in digit order, with that of the digit E in the ninth place. -/
def inOrder : List Alu := [set, or, and, xor, add, subXY, shiftRight, subYX, shiftLeft]

/-- The operation of the last digit of an arithmetic word; other digits select nothing. -/
def ofDigit? (n : Fin 16) : Option Alu :=
  if selects.get n then inOrder[if n = 0xE then 8 else n.val]? else none

def result (op : Alu) (vx vy : UInt8) : UInt8 :=
  match op with
  | set => vy
  | or => vx ||| vy
  | and => vx &&& vy
  | xor => vx ^^^ vy
  | add => vx + vy
  | subXY => vx - vy
  | shiftRight => vx >>> 1
  | subYX => vy - vx
  | shiftLeft => vx <<< 1

/-- Carry of a sum, absence of a borrow, or the bit shifted out. -/
def flag? (op : Alu) (vx vy : UInt8) : Option UInt8 :=
  match op with
  | set | or | and | xor => none
  | add => some (vx.toNat + vy.toNat > 255 : Bool).toUInt8
  | subXY => some (vx ≥ vy : Bool).toUInt8
  | shiftRight => some (vx &&& 1)
  | subYX => some (vy ≥ vx : Bool).toUInt8
  | shiftLeft => some (vx >>> 7)

end Chip8.Alu
