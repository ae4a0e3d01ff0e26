/-! Instruction words, cut into the fields that the instruction patterns name. -/
namespace Chip8

/-- The fields see the low sixteen bits of a word; `raw` is the integer as it was given. -/
structure Instruction where
  raw : Int
  opcode : Fin 16
  x : Fin 16
  y : Fin 16
  n : Fin 16
  nn : UInt8
  nnn : Fin 4096
  deriving DecidableEq

instance neZeroSixteen : @NeZero Nat Zero.ofOfNat0 16 := Nat.instNeZeroSucc

instance neZeroMemory : @NeZero Nat Zero.ofOfNat0 4096 := Nat.instNeZeroSucc

namespace Instruction

/-- The low sixteen bits in two's complement. -/
def low (raw : Int) : Nat := (raw % 65536).toNat

/-- The hex digit with `k` digits to its right. -/
def nibble (w k : Nat) : Fin 16 := Fin.ofNat 16 (w >>> (4 * k))

def decode (raw : Int) : Instruction :=
  let w := low raw
  { raw, opcode := nibble w 3, x := nibble w 2, y := nibble w 1, n := nibble w 0,
    nn := UInt8.ofNat w, nnn := Fin.ofNat 4096 w }

theorem low_lt (raw : Int) : low raw < 65536 := by unfold low; omega

theorem low_natCast {w : Nat} (h : w < 65536) : low (w : Int) = w := by unfold low; omega

end Chip8.Instruction
