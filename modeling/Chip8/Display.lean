import Chip8.Memory

/-! One-bit pictures, a row of bits for each line with the leftmost pixel most significant, and
sprites: rows of eight pixels in memory, projected onto the display with wrap-around. -/
namespace Chip8

abbrev Bitmap (w h : Nat) := Vector (BitVec w) h

abbrev Display := Bitmap 64 32

namespace Bitmap
variable {w h : Nat}

def blank : Bitmap w h := Vector.replicate h 0

def pixel (d : Bitmap w h) (x : Fin w) (y : Fin h) : Bool := (d.get y).getMsb x

/-- Sets one pixel; a position outside the picture sets none. -/
def light (d : Bitmap w h) (x y : Nat) : Bitmap w h :=
  if hy : y < h then
    if x < w then d.set y (d[y] ||| BitVec.twoPow w (w - 1 - x)) else d
  else d

def xor (a b : Bitmap w h) : Bitmap w h := Vector.zipWith (· ^^^ ·) a b

def overlaps (a b : Bitmap w h) : Bool := (Vector.zipWith (· &&& ·) a b).any (· != 0)

end Bitmap

namespace Sprite

/-- Eight pixels from column `x` on, the most significant bit first. -/
def row (b : UInt8) (x : Nat) : BitVec 64 := ((b.toBitVec.setWidth 64) <<< 56).rotateRight x

/-- Row `r` of the sprite lies on line `(y + r) mod 32` and its column `c` on `(x + c) mod 64`;
addresses are computed in 32 bits and held inside memory. -/
def mask (m : Memory) (index x y height : Int) : Display :=
  Vector.ofFn fun line =>
    let r := ((line.val : Int) - y) % 32
    if r < height then row (m.peek (Int.bmod (index + r) 0x100000000).toNat) (x % 64).toNat else 0

/-- The picture after the sprite, and whether a lit pixel went dark. -/
def blit (d sprite : Display) : Display × Bool := (d.xor sprite, d.overlaps sprite)

end Sprite

end Chip8
