import Chip8.Instruction
import Chip8.Text.Quoted

/-! The instruction set: 34 variants with their four-place patterns, and the table look-up
that names the variant of a word. -/
namespace Chip8

inductive Opcode where
  | cls | ret | jp | call | seImm | sneImm | seReg | ldImm | addImm
  | ldReg | or | and | xor | addReg | sub | shr | subn | shl | sneReg
  | ldI | jpV0 | rnd | drw | skp | sknp
  | ldVxDt | ldKey | ldDt | ldSt | addI | ldFont | bcd | store | load
  | unknown
  deriving DecidableEq, Repr

/-- One place of a pattern: a fixed hex digit, or a digit of an operand. -/
inductive Place where
  | digit (d : Fin 16)
  | x | y | n
  deriving DecidableEq, Repr

def Place.mark : Place → Char
  | .digit d => Hex.digit d
  | .x => 'X'
  | .y => 'Y'
  | .n => 'N'

namespace Opcode

def all : List Opcode :=
  [cls, ret, jp, call, seImm, sneImm, seReg, ldImm, addImm,
   ldReg, or, and, xor, addReg, sub, shr, subn, shl, sneReg,
   ldI, jpV0, rnd, drw, skp, sknp,
   ldVxDt, ldKey, ldDt, ldSt, addI, ldFont, bcd, store, load, unknown]

def mnemonic : Opcode → String
  | cls => "CLS" | ret => "RET" | jp => "JP" | call => "CALL"
  | seImm => "SE_IMM" | sneImm => "SNE_IMM" | seReg => "SE_REG"
  | ldImm => "LD_IMM" | addImm => "ADD_IMM"
  | ldReg => "LD_REG" | or => "OR" | and => "AND" | xor => "XOR" | addReg => "ADD_REG"
  | sub => "SUB" | shr => "SHR" | subn => "SUBN" | shl => "SHL" | sneReg => "SNE_REG"
  | ldI => "LD_I" | jpV0 => "JP_V0" | rnd => "RND" | drw => "DRW"
  | skp => "SKP" | sknp => "SKNP"
  | ldVxDt => "LD_VX_DT" | ldKey => "LD_KEY" | ldDt => "LD_DT" | ldSt => "LD_ST"
  | addI => "ADD_I" | ldFont => "LD_FONT" | bcd => "BCD" | store => "STORE" | load => "LOAD"
  | unknown => "UNKNOWN"

/-- The four places of a variant; `unknown` has none. -/
def places : Opcode → List Place
  | cls => [.digit 0x0, .digit 0x0, .digit 0xE, .digit 0x0]
  | ret => [.digit 0x0, .digit 0x0, .digit 0xE, .digit 0xE]
  | jp => [.digit 0x1, .n, .n, .n]
  | call => [.digit 0x2, .n, .n, .n]
  | seImm => [.digit 0x3, .x, .n, .n]
  | sneImm => [.digit 0x4, .x, .n, .n]
  | seReg => [.digit 0x5, .x, .y, .digit 0x0]
  | ldImm => [.digit 0x6, .x, .n, .n]
  | addImm => [.digit 0x7, .x, .n, .n]
  | ldReg => [.digit 0x8, .x, .y, .digit 0x0]
  | or => [.digit 0x8, .x, .y, .digit 0x1]
  | and => [.digit 0x8, .x, .y, .digit 0x2]
  | xor => [.digit 0x8, .x, .y, .digit 0x3]
  | addReg => [.digit 0x8, .x, .y, .digit 0x4]
  | sub => [.digit 0x8, .x, .y, .digit 0x5]
  | shr => [.digit 0x8, .x, .y, .digit 0x6]
  | subn => [.digit 0x8, .x, .y, .digit 0x7]
  | shl => [.digit 0x8, .x, .y, .digit 0xE]
  | sneReg => [.digit 0x9, .x, .y, .digit 0x0]
  | ldI => [.digit 0xA, .n, .n, .n]
  | jpV0 => [.digit 0xB, .n, .n, .n]
  | rnd => [.digit 0xC, .x, .n, .n]
  | drw => [.digit 0xD, .x, .y, .n]
  | skp => [.digit 0xE, .x, .digit 0x9, .digit 0xE]
  | sknp => [.digit 0xE, .x, .digit 0xA, .digit 0x1]
  | ldVxDt => [.digit 0xF, .x, .digit 0x0, .digit 0x7]
  | ldKey => [.digit 0xF, .x, .digit 0x0, .digit 0xA]
  | ldDt => [.digit 0xF, .x, .digit 0x1, .digit 0x5]
  | ldSt => [.digit 0xF, .x, .digit 0x1, .digit 0x8]
  | addI => [.digit 0xF, .x, .digit 0x1, .digit 0xE]
  | ldFont => [.digit 0xF, .x, .digit 0x2, .digit 0x9]
  | bcd => [.digit 0xF, .x, .digit 0x3, .digit 0x3]
  | store => [.digit 0xF, .x, .digit 0x5, .digit 0x5]
  | load => [.digit 0xF, .x, .digit 0x6, .digit 0x5]
  | unknown => []

def pattern (o : Opcode) : String :=
  if o = unknown then "????" else String.ofList (o.places.map Place.mark)

/-- Classes whose first digit alone names the variant. -/
def byClass : List (Fin 16 × Opcode) :=
  [(0x1, jp), (0x2, call), (0x3, seImm), (0x4, sneImm), (0x6, ldImm), (0x7, addImm),
   (0xA, ldI), (0xB, jpV0), (0xC, rnd), (0xD, drw)]

def bySystemWord : List (Int × Opcode) := [(0x00E0, cls), (0x00EE, ret)]

def byArithmeticDigit : List (Fin 16 × Opcode) :=
  [(0x0, ldReg), (0x1, or), (0x2, and), (0x3, xor), (0x4, addReg), (0x5, sub), (0x6, shr),
   (0x7, subn), (0xE, shl)]

def byKeyByte : List (UInt8 × Opcode) := [(0x9E, skp), (0xA1, sknp)]

def byMiscByte : List (UInt8 × Opcode) :=
  [(0x07, ldVxDt), (0x0A, ldKey), (0x15, ldDt), (0x18, ldSt), (0x1E, addI), (0x29, ldFont),
   (0x33, bcd), (0x55, store), (0x65, load)]

def ofFields (d : Instruction) : Opcode :=
  match byClass.lookup d.opcode with
  | some o => o
  | none =>
    if d.opcode = 0x0 then (bySystemWord.lookup d.raw).getD unknown
    else if d.opcode = 0x5 ∨ d.opcode = 0x9 then
      if d.n ≠ 0 then unknown else if d.opcode = 0x5 then seReg else sneReg
    else if d.opcode = 0x8 then (byArithmeticDigit.lookup d.n).getD unknown
    else if d.opcode = 0xE then (byKeyByte.lookup d.nn).getD unknown
    else (byMiscByte.lookup d.nn).getD unknown

/-- The variant of the low sixteen bits of a word. -/
def classify (word : Int) : Opcode := ofFields (Instruction.decode (Instruction.low word))

end Chip8.Opcode
