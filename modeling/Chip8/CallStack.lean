/-! Sixteen slots of return addresses under an eight-bit pointer. Callers ask `isFull` and
`isEmpty` first; the operations stay total outside those guards. -/
namespace Chip8

structure CallStack where
  slots : Vector UInt16 16
  pointer : UInt8
  deriving DecidableEq

namespace CallStack

def empty : CallStack := ⟨Vector.replicate 16 0, 0⟩

def isFull (s : CallStack) : Bool := s.pointer ≥ 16

def isEmpty (s : CallStack) : Bool := s.pointer = 0

theorem isFull_iff (s : CallStack) : s.isFull = true ↔ 16 ≤ s.pointer.toNat := by
  simp [isFull, UInt8.le_iff_toNat_le]

theorem isEmpty_iff (s : CallStack) : s.isEmpty = true ↔ s.pointer.toNat = 0 := by
  simp [isEmpty, ← UInt8.toNat_inj]

/-- A pointer past the last slot stores nothing and still moves. -/
def push (a : UInt16) (s : CallStack) : CallStack :=
  ⟨s.slots.setIfInBounds s.pointer.toNat a, s.pointer + 1⟩

/-- The slot below the pointer is read, the last one if there is none, and zeroed. -/
def pop (s : CallStack) : CallStack × UInt16 :=
  let p := s.pointer - 1
  (⟨s.slots.setIfInBounds p.toNat 0, p⟩, s.slots[min p.toNat 15])

def toList (s : CallStack) : List UInt16 := s.slots.toList.take s.pointer.toNat

end Chip8.CallStack
