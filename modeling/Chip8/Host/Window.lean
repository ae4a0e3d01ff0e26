import Chip8.Picture

/-! The host window: a scaled picture of the display, addressed by column and row. -/
namespace Chip8

/-- What a host can show: windows up to a longest side, if it knows one, and pictures as far as it
has room for them. -/
structure Screen where
  maxSide : Option Int := none
  room : Room := .boundless

/-- The sides need not be the ones that the scale asks for. -/
structure Window where
  scale : Int
  scheme : Scheme
  caption : String
  width : Int
  height : Int

namespace Window

def defaultCaption : String := "CHIP-8"

/-- A side of a window is a 64-bit integer, of which the low half counts. Of a decimal one the
whole part counts, and the least of 32 bits stands for what they do not hold. -/
def side? (cells : Nat) (scale : Setting) : Option Int :=
  match scale with
  | .decimal x =>
    let n := (Double.truncate? (Float.ofNat cells * x)).getD (-0x80000000)
    some (if -0x80000000 ≤ n ∧ n < 0x80000000 then n else -0x80000000)
  | scale => do
    let n := cells * (← scale.quantity?)
    if n < -0x8000000000000000 ∨ 0x8000000000000000 ≤ n then none
    else some (Int32.ofInt n).toInt

def create (screen : Screen) (scale scheme caption : Setting) : Except Failure Window := do
  let scheme ← Scheme.ofSetting scheme
  let some width := side? 64 scale | throw .wrongType
  let some height := side? 32 scale | throw .wrongType
  if width < 0 ∨ height < 0 then throw (.noWindow "Cannot set negative sized display mode")
  if screen.maxSide.any fun most => width > most ∨ height > most then
    throw (.noWindow "Window is too large.")
  match caption with
  | .text caption =>
    if caption.contains '\x00' then throw .zeroInText
    let scale ← Image.scaleOf scale
    return { scale, scheme, caption, width, height }
  | _ => throw .wrongType

/-- The columns of the surface, the left one first. -/
def surface (w : Window) (d : Display) : Image :=
  (Image.render w.scale w.scheme d).transpose w.width.toNat

/-- A picture has to be of the same size as its window. A window without sides is as large as
the screen, which no picture fits. -/
def takesPictures (room : Room) (w : Window) : Except Failure Unit := do
  room 64 32 w.scale
  let side := Image.blockSide w.scale
  if w.width = 64 * side ∧ w.height = 32 * side then return else throw .pictureSize

def draw (room : Room) (w : Window) (d : Display) : Except Failure Image := do
  w.takesPictures room
  return w.surface d

end Window

end Chip8
