/-! The 4096 bytes of memory and their layout: a reserved region that holds the font, then
the program area. -/
namespace Chip8

abbrev Memory := Vector UInt8 4096

namespace Memory

def size : Nat := 4096
def programStart : Nat := 0x200
def maxRomSize : Nat := size - programStart
def fontStart : Nat := 0x050
def glyphSize : Nat := 5

def font : List UInt8 :=
  [0xF0, 0x90, 0x90, 0x90, 0xF0,
   0x20, 0x60, 0x20, 0x20, 0x70,
   0xF0, 0x10, 0xF0, 0x80, 0xF0,
   0xF0, 0x10, 0xF0, 0x10, 0xF0,
   0x90, 0x90, 0xF0, 0x10, 0x10,
   0xF0, 0x80, 0xF0, 0x10, 0xF0,
   0xF0, 0x80, 0xF0, 0x90, 0xF0,
   0xF0, 0x10, 0x20, 0x40, 0x40,
   0xF0, 0x90, 0xF0, 0x90, 0xF0,
   0xF0, 0x90, 0xF0, 0x10, 0xF0,
   0xF0, 0x90, 0xF0, 0x90, 0x90,
   0xE0, 0x90, 0xE0, 0x90, 0xE0,
   0xF0, 0x80, 0x80, 0x80, 0xF0,
   0xE0, 0x90, 0x90, 0x90, 0xE0,
   0xF0, 0x80, 0xF0, 0x80, 0xF0,
   0xF0, 0x80, 0xF0, 0x80, 0x80]

def zeros : Memory := Vector.replicate 4096 0

/-- An address past the end reads the last byte. -/
def peek (m : Memory) (a : Nat) : UInt8 := m[min a 4095]

/-- An address past the end reads as zero. -/
def filled (m : Memory) (a : Nat) : UInt8 := m[a]?.getD 0

/-- An address past the end stores nothing. -/
def poke (m : Memory) (a : Nat) (b : UInt8) : Memory := m.setIfInBounds a b

def store : Memory → Nat → List UInt8 → Memory
  | m, _, [] => m
  | m, a, b :: bs => store (m.poke a b) (a + 1) bs

/-- The `n` bytes from `a` on lie inside memory. -/
def Holds (a n : Nat) : Prop := a + n ≤ 4096

instance (a n : Nat) : Decidable (Holds a n) := inferInstanceAs (Decidable (_ ≤ _))

/-- The same test in 32-bit arithmetic, where the end of the range may wrap below zero. -/
def inBounds (a : Int32) (n : Int32) : Bool := 0 ≤ a && a + n ≤ 4096

def boot : Memory := zeros.store fontStart font

/-- A fresh reserved region below the program area of `m`. -/
def reloaded (m : Memory) : Memory :=
  Vector.ofFn fun a => if a.val < programStart then boot[a] else m[a]

end Chip8.Memory
