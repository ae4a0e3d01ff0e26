import Chip8.Opcode

/-! One line of text per word: its four digits, the mnemonic, and the operands that the
pattern leaves open. -/
namespace Chip8

namespace Instruction

def wordText (d : Instruction) : String :=
  String.ofList ([d.opcode, d.x, d.y, d.n].map Hex.digit)

def registerText (r : Fin 16) : String := String.ofList ['V', Hex.digit r]

def immediateText (d : Instruction) : Nat → List String
  | 1 => [String.ofList [Hex.digit d.n]]
  | 2 => ["0x" ++ String.ofList ([d.y, d.n].map Hex.digit)]
  | 3 => ["0x" ++ String.ofList ([d.x, d.y, d.n].map Hex.digit)]
  | _ => []

end Instruction

namespace Opcode

/-- How many digits of an immediate end the pattern. -/
def immediateWidth (o : Opcode) : Nat := (o.places.reverse.takeWhile (· == .n)).length

def operands (o : Opcode) (d : Instruction) : List String :=
  (if .x ∈ o.places then [Instruction.registerText d.x] else []) ++
  (if .y ∈ o.places then [Instruction.registerText d.y] else []) ++
  d.immediateText o.immediateWidth

end Opcode

def disassemble (word : Int) : String :=
  let d := Instruction.decode word
  match Opcode.classify word with
  | .unknown => d.wordText ++ " ???"
  | o =>
    let shown := o.operands d
    " ".intercalate ([d.wordText, o.mnemonic] ++
      if shown.isEmpty then [] else [", ".intercalate shown])

end Chip8
