import Chip8.Double

/-! Decimal text of a double: with a fixed number of places, its exact value rounded half to even,
or with as few digits as read back to it, and among those the ones nearest to its value. -/
namespace Chip8.Text

/-! ### A fixed number of places -/

def padLeft (width : Nat) (s : String) : String :=
  String.ofList (List.replicate (width - s.length) ' ') ++ s

/-- A count of units of `10^(-places)`, with a point before the last `places` digits. -/
def pointed (places units : Nat) : String :=
  let fraction := Nat.toDigits 10 (units % Nat.pow 10 places)
  toString (units / Nat.pow 10 places) ++
    if places = 0 then ""
    else "." ++ String.ofList (List.replicate (places - fraction.length) '0' ++ fraction)

def fixed (places : Nat) (x : Float) : String :=
  match Double.value x with
  | .finite negative m e =>
    (if negative then "-" else "") ++ pointed places (Double.scaled places m e)
  | .infinite negative => if negative then "-inf" else "inf"
  | .undefined => "nan"

/-! ### As few digits as possible -/

/-- The reals that round to `mantissa · 2^exponent`, in quarters of its unit. The lower half of
the interval is narrow where the exponent changes, and the ends belong to it if the mantissa is
even. -/
structure Rounding where
  mantissa : Nat
  exponent : Int

namespace Rounding

def isNarrow (r : Rounding) : Bool := r.mantissa = 0x10000000000000 && r.exponent > -1074

def lower (r : Rounding) : Nat := 4 * r.mantissa - if r.isNarrow then 1 else 2

def upper (r : Rounding) : Nat := 4 * r.mantissa + 2

def measures (r : Rounding) (k : Int) : Nat × Nat :=
  let e := r.exponent - 2
  (Nat.pow 10 (-k).toNat <<< e.toNat, Nat.pow 10 k.toNat <<< (-e).toNat)

def contains (r : Rounding) (k : Int) (c : Nat) : Bool :=
  let (quarter, grid) := r.measures k
  let place := c * grid
  if r.mantissa % 2 = 0 then r.lower * quarter ≤ place && place ≤ r.upper * quarter
  else r.lower * quarter < place && place < r.upper * quarter

/-- The multiple of `10^k` that reads back, if there is one: of the two neighbours of the value
the nearer, or the even one of two as near. -/
def onGrid? (r : Rounding) (k : Int) : Option Nat :=
  let (quarter, grid) := r.measures k
  let value := 4 * r.mantissa * quarter
  let c := value / grid
  match r.contains k c, r.contains k (c + 1) with
  | false, false => none
  | true, false => some c
  | false, true => some (c + 1)
  | true, true =>
    let twice := 2 * (value - c * grid)
    some (if twice < grid ∨ (twice = grid ∧ c % 2 = 0) then c else c + 1)

/-- The first grid from the coarsest on that holds a number which reads back. -/
def search (r : Rounding) : Nat → Int → Option (Nat × Int)
  | 0, _ => none
  | fuel + 1, k =>
    match r.onGrid? k with
    | some c => some (c, k)
    | none => search r fuel (k - 1)

/-- The fewest digits, and the power of ten of the last one. Doubles end below `10^309`, and
neighbours are more than `10^(-324)` apart. -/
def digits (r : Rounding) : Nat × Int := (r.search 660 309).getD (0, 0)

end Rounding

/-- Digits with a point where at most sixteen places before it and at most three zeros behind it
are needed, and otherwise with an exponent of at least two digits. -/
def layOut (digits : List Char) (last : Int) : String :=
  let point := digits.length + last
  if point > 16 ∨ point < -3 then
    let exponent := point - 1
    let ds := Nat.toDigits 10 exponent.natAbs
    String.ofList (digits.take 1 ++ (if digits.length > 1 then '.' :: digits.drop 1 else []) ++
      ['e', if exponent < 0 then '-' else '+'] ++ List.replicate (2 - ds.length) '0' ++ ds)
  else if point ≤ 0 then
    String.ofList (['0', '.'] ++ List.replicate (-point).toNat '0' ++ digits)
  else
    let whole := digits.take point.toNat ++ List.replicate last.toNat '0'
    let rest := digits.drop point.toNat
    String.ofList (whole ++ ['.'] ++ if rest = [] then ['0'] else rest)

def shortest (x : Float) : String :=
  match Double.value x with
  | .finite negative m e =>
    let (c, last) := (Rounding.mk m e).digits
    (if negative then "-" else "") ++
      (if m = 0 then "0.0" else layOut (Nat.toDigits 10 c) last)
  | .infinite negative => if negative then "-inf" else "inf"
  | .undefined => "nan"

end Chip8.Text
