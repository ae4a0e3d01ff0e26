import Chip8.Display
import Chip8.Double
import Chip8.Failure
import Chip8.Setting

/-! A display shown to people: lines of text, or rows of coloured pixels for a window. -/
namespace Chip8

structure Color where
  r : UInt8
  g : UInt8
  b : UInt8
  deriving DecidableEq, Repr

namespace Color

def black : Color := ⟨0, 0, 0⟩
def white : Color := ⟨255, 255, 255⟩

end Color

structure Scheme where
  on : Color
  off : Color
  deriving DecidableEq, Repr

namespace Scheme

def named : List (String × Scheme) :=
  [("white", ⟨.white, .black⟩),
   ("classic", ⟨⟨0, 255, 0⟩, .black⟩),
   ("amber", ⟨⟨255, 176, 0⟩, .black⟩),
   ("blue", ⟨⟨0, 255, 255⟩, ⟨0, 0, 64⟩⟩),
   ("retro", ⟨⟨255, 255, 0⟩, ⟨64, 0, 64⟩⟩)]

def ofName (name : String) : Except Failure Scheme :=
  match named.lookup name with
  | some s => .ok s
  | none => .error (.unknownScheme name (named.map (·.1)))

/-- A scheme by its name as the user wrote it. What has items is no name at all. -/
def ofSetting : Setting → Except Failure Scheme
  | .list _ | .record _ => .error .wrongType
  | .text name => ofName name
  | s => .error (.unknownScheme s.shown (named.map (·.1)))

end Scheme

namespace Bitmap
variable {w h : Nat}

def line (d : Bitmap w h) (y : Fin h) : List Bool := (List.finRange w).map (d.pixel · y)

def lines (d : Bitmap w h) : List (List Bool) := (List.finRange h).map d.line

def toText (d : Bitmap w h) (on off : String) : String :=
  "\n".intercalate (d.lines.map fun l => String.join (l.map fun lit => if lit then on else off))

end Bitmap

/-- Whether a host has room for all that it takes to paint a picture of so many columns and rows at
a scale, and why not if it has none. -/
abbrev Room := (columns rows : Nat) → (scale : Int) → Except Failure Unit

/-- Memory without bounds, where the pixels along a block are counted in 64 bits with a sign. -/
def Room.boundless : Room := fun _ _ scale =>
  if scale < 0x8000000000000000 then .ok () else .error .outOfRange

/-- Rows of pixels, the top row first. -/
abbrev Image := List (List Color)

namespace Image

def stretch {α : Type} (n : Nat) (xs : List α) : List α := xs.flatMap (List.replicate n)

/-- The whole part of a scale counts. What is no number asks for no magnification. -/
def scaleOf (s : Setting) : Except Failure Int :=
  match s, s.quantity? with
  | .decimal x, _ =>
    if Double.value x = .infinite false then .error .outOfRange
    else .ok ((Double.truncate? x).getD 1)
  | _, some n => .ok n
  | _, none => .error .wrongType

/-- Pixels along each side of a block; a scale below two leaves the image as it is. -/
def blockSide (scale : Int) : Nat := if scale > 1 then scale.toNat else 1

def magnify (scale : Int) (image : Image) : Image :=
  stretch (blockSide scale) (image.map (stretch (blockSide scale)))

def ofBitmap {w h : Nat} (s : Scheme) (d : Bitmap w h) : Image :=
  d.lines.map (·.map fun lit => if lit then s.on else s.off)

def render {w h : Nat} (scale : Int) (s : Scheme) (d : Bitmap w h) : Image :=
  (ofBitmap s d).magnify scale

def render? {w h : Nat} (room : Room) (scale : Int) (s : Scheme) (d : Bitmap w h) :
    Except Failure Image := do
  room w h scale
  return render scale s d

/-- Exchanges rows and columns of an image that has `width` columns. -/
def transpose (width : Nat) (image : Image) : Image :=
  image.foldr (List.zipWith (· :: ·)) (List.replicate width [])

end Image

end Chip8
