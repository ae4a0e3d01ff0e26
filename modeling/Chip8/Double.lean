/-! The exact value of a double: an integer times a power of two, or no number. -/
namespace Chip8.Double

/-- A finite double is `±mantissa · 2^exponent`. -/
inductive Value where
  | finite (negative : Bool) (mantissa : Nat) (exponent : Int)
  | infinite (negative : Bool)
  | undefined
  deriving DecidableEq, Repr

def value (x : Float) : Value :=
  let bits := x.toBits.toNat
  let negative := bits >>> 63 = 1
  let e : Nat := (bits >>> 52) % 2048
  let f := bits % 0x10000000000000
  if e = 2047 then if f = 0 then .infinite negative else .undefined
  else if e = 0 then .finite negative f (-1074)
  else .finite negative (0x10000000000000 + f) ((e : Int) - 1075)

/-- The integer nearest to `n / d`, of two the even one. -/
def roundQuotient (n d : Nat) : Nat :=
  let q := n / d
  let r := n % d
  if 2 * r < d ∨ (2 * r = d ∧ q % 2 = 0) then q else q + 1

/-- A magnitude in units of `10^(-places)`, rounded to the nearest and half to even. -/
def scaled (places mantissa : Nat) (exponent : Int) : Nat :=
  roundQuotient ((mantissa * Nat.pow 10 places) <<< exponent.toNat) (1 <<< (-exponent).toNat)

/-- The integer part; numbers without one have none. -/
def truncate? (x : Float) : Option Int :=
  match value x with
  | .finite negative m e =>
    let n := (m <<< e.toNat) >>> (-e).toNat
    some (if negative then -n else n)
  | _ => none

def isZero (x : Float) : Bool :=
  match value x with
  | .finite _ m _ => m = 0
  | _ => false

def ceiling (negative : Bool) (mantissa : Nat) (exponent : Int) : Int :=
  let scaled := mantissa <<< exponent.toNat
  let unit := 1 <<< (-exponent).toNat
  if negative then -(scaled / unit : Nat) else ((scaled + unit - 1) / unit : Nat)

/-- The nearest double to a natural number, if it is not past the largest one. -/
def ofNat? (n : Nat) : Option Float :=
  let shift := n.log2 - 52
  let m := roundQuotient n (1 <<< shift)
  if m <<< shift < 1 <<< 1024 then some ((Float.ofNat m).scaleB shift) else none

end Chip8.Double
