import Chip8.Double
import Chip8.Failure

/-! The tone: a tenth of a second of a square wave, in whole periods. -/
namespace Chip8

/-- A fraction of the largest sample; a whole one is scaled without rounding. -/
inductive Volume where
  | whole (n : Int)
  | fraction (x : Float)

structure Beeper where
  frequency : Int := 440
  volume : Volume := .fraction 0.2
  sampleRate : Int := 44100

namespace Beeper

/-- Samples of one period, at least two. -/
def period? (b : Beeper) : Option Int :=
  if b.frequency = 0 then none else some (max 2 (b.sampleRate.fdiv b.frequency))

def count (b : Beeper) (period : Int) : Int :=
  (b.sampleRate.fdiv 10).fdiv period * period

/-- Full volume is the largest sample; the rest behind the point is dropped. -/
def loudness : Volume → Except Failure Int
  | .whole n => .ok (n * 32767)
  | .fraction x =>
    match Double.truncate? (x * 32767) with
    | some n => .ok n
    | none => .error (if x.isNaN then .noNumber else .outOfRange)

/-- Both signs of an amplitude have to be machine words, the larger of the two perhaps one
without a sign. -/
def amplitude (v : Volume) : Except Failure Int := do
  let a ← loudness v
  if a.natAbs ≤ 0x8000000000000000 then return a else throw .outOfRange

/-- The period and the number of samples, which is none below zero. The host tells by `room`
whether it can count and hold that many. -/
def plan (room : Int → Except Failure Unit) (b : Beeper) : Except Failure (Int × Int) := do
  let some period := b.period? | throw .zeroFrequency
  let count := b.count period
  room count
  return (period, count)

def sample (period amplitude : Int) (i : Nat) : Int :=
  if (i : Int) % period < period / 2 then amplitude else -amplitude

/-- Samples are stored in sixteen bits. Their period has to be a machine word, unless their
number already is none. -/
def wave (room : Int → Except Failure Unit) (b : Beeper) : Except Failure (List Int16) := do
  let (period, count) ← b.plan room
  let amplitude ← amplitude b.volume
  if period ≥ 0x8000000000000000 ∧ count ≥ -0x8000000000000000 then throw .outOfRange
  return (List.range count.toNat).map fun i => Int16.ofInt (sample period amplitude i)

/-- One row of samples for each channel that was granted, or none for a single one. -/
def shape (samples channels : Nat) : List Nat :=
  if channels > 1 then [samples, channels] else [samples]

end Beeper

end Chip8
