/-! A splittable random stream: keys of two words, and the functions that split them and draw from
them. Any two such functions make a stream; the one of the machine is the 20-round Threefry
cipher. -/
namespace Chip8

structure RandomKey where
  hi : UInt32
  lo : UInt32
  deriving DecidableEq, Repr

namespace RandomKey

/-- Seeds are 64-bit integers, of which the low word counts. -/
def ofSeed? (seed : Int) : Option RandomKey :=
  if -0x8000000000000000 ≤ seed ∧ seed < 0x8000000000000000 then some ⟨0, UInt32.ofInt seed⟩
  else none

def rotate (w r : UInt32) : UInt32 := (w <<< r) ||| (w >>> (32 - r))

def mix (p : UInt32 × UInt32) (r : UInt32) : UInt32 × UInt32 :=
  let a := p.1 + p.2
  (a, rotate p.2 r ^^^ a)

def rotations (round : Nat) : List UInt32 :=
  if round % 2 = 0 then [13, 15, 26, 6] else [17, 29, 16, 24]

/-- The key schedule repeats the two words and their checked sum. -/
def scheduled (k : RandomKey) (i : Nat) : UInt32 :=
  match i % 3 with
  | 0 => k.hi
  | 1 => k.lo
  | _ => k.hi ^^^ k.lo ^^^ 0x1BD11BDA

def encrypt (k : RandomKey) (a b : UInt32) : RandomKey :=
  let p := (List.range 5).foldl (fun p i =>
      let q := (rotations i).foldl mix p
      (q.1 + k.scheduled (i + 1), q.2 + k.scheduled (i + 2) + UInt32.ofNat (i + 1)))
    (a + k.scheduled 0, b + k.scheduled 1)
  ⟨p.1, p.2⟩

end RandomKey

/-- What a stream is made of: `split` gives the key of the rest of the stream and one to draw from,
and `byte` draws. -/
class Randomness where
  split : RandomKey → RandomKey × RandomKey
  byte : RandomKey → UInt8

instance Randomness.threefry : Randomness where
  split k := (k.encrypt 0 0, k.encrypt 0 1)
  byte k :=
    let d := (k.encrypt 0 1).encrypt 0 0
    (d.hi ^^^ d.lo).toUInt8

end Chip8
