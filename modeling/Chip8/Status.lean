/-! What the machine is doing, and the one-byte code that stands for it. -/
namespace Chip8

/-- Why a machine has halted. Codes past the four named causes have no meaning of their own. -/
inductive Fault where
  | stackOverflow
  | stackUnderflow
  | memoryOutOfBounds
  | endOfMemory
  | unassigned (k : Fin 250)
  deriving DecidableEq, Repr

inductive Status where
  | running
  | awaitingKey
  | halted (f : Fault)
  deriving DecidableEq, Repr

namespace Fault

def code : Fault → Nat
  | stackOverflow => 2
  | stackUnderflow => 3
  | memoryOutOfBounds => 4
  | endOfMemory => 5
  | unassigned k => k + 6

end Fault

namespace Status

def code : Status → Nat
  | running => 0
  | awaitingKey => 1
  | halted f => f.code

def ofCode (b : UInt8) : Status :=
  match b.toNat with
  | 0 => running
  | 1 => awaitingKey
  | 2 => halted .stackOverflow
  | 3 => halted .stackUnderflow
  | 4 => halted .memoryOutOfBounds
  | 5 => halted .endOfMemory
  | n + 6 => halted (.unassigned (Fin.ofNat 250 n))

def isHalted : Status → Bool
  | halted _ => true
  | _ => false

theorem ofCode_code (s : Status) : ofCode (UInt8.ofNat s.code) = s := by
  match s with
  | running | awaitingKey => rfl
  | halted .stackOverflow | halted .stackUnderflow => rfl
  | halted .memoryOutOfBounds | halted .endOfMemory => rfl
  | halted (.unassigned k) =>
    have hk : (UInt8.ofNat (k.val + 6)).toNat = k.val + 6 := by
      simp only [UInt8.toNat_ofNat']
      omega
    simp only [code, Fault.code, ofCode, hk]
    simp [Fin.ofNat, Nat.mod_eq_of_lt k.isLt]

theorem code_lt (s : Status) : s.code < 256 := by
  match s with
  | running | awaitingKey => decide
  | halted .stackOverflow | halted .stackUnderflow => decide
  | halted .memoryOutOfBounds | halted .endOfMemory => decide
  | halted (.unassigned k) => simp only [code, Fault.code]; omega

end Chip8.Status
