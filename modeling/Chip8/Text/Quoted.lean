import Chip8.Text.Printable

/-! Text for diagnostics: upper-case hexadecimal, and quotes, which are single unless only they
occur in a text, with a backslash escape for whatever would not show. -/
namespace Chip8.Hex

def digit (d : Fin 16) : Char :=
  Char.ofNat (if d.val < 10 then 48 + d.val else 55 + d.val)

def digits (n : Nat) : List Char := (Nat.toDigits 16 n).map Char.toUpper

/-- At least `width` digits, zeros in front. -/
def padded (width n : Nat) : String :=
  let ds := digits n
  String.ofList (List.replicate (width - ds.length) '0' ++ ds)

/-- A sign counts towards the width. -/
def signed (width : Nat) (i : Int) : String :=
  if i < 0 then "-" ++ padded (width - 1) i.natAbs else padded width i.natAbs

end Chip8.Hex

namespace Chip8.Text

def hexEscape (mark : Char) (width : Nat) (c : Char) : List Char :=
  let ds := (Hex.digits c.toNat).map Char.toLower
  '\\' :: mark :: (List.replicate (width - ds.length) '0' ++ ds)

def escape (quote c : Char) : List Char :=
  if c = quote || c = '\\' then ['\\', c]
  else if c = '\t' then ['\\', 't']
  else if c = '\n' then ['\\', 'n']
  else if c = '\r' then ['\\', 'r']
  else if isPrintable c then [c]
  else if c.toNat < 0x100 then hexEscape 'x' 2 c
  else if c.toNat < 0x10000 then hexEscape 'u' 4 c
  else hexEscape 'U' 8 c

def quoted (s : String) : String :=
  let quote := if s.contains '\'' && !s.contains '"' then '"' else '\''
  String.ofList ([quote] ++ s.toList.flatMap (escape quote) ++ [quote])

def quotedList (names : List String) : String :=
  "[" ++ ", ".intercalate (names.map quoted) ++ "]"

end Chip8.Text
