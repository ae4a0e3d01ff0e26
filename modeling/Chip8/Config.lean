import Chip8.Failure
import Chip8.RandomKey
import Chip8.Setting

/-! Boot parameters, and the checks that they pass before a session is made of them. -/
namespace Chip8

/-- The key of a seed, which has to be given and to be a number. -/
def RandomKey.ofSetting (seed : Setting) : Except Failure RandomKey :=
  match seed, seed.quantity? with
  | .absent, _ => .error .noSeed
  | _, none => .error .wrongType
  | _, some n =>
    match ofSeed? n with
    | some key => .ok key
    | none => .error .outOfRange

/-- A rate or a size as its user wrote it, which may be anything but a number with a point. -/
structure Amount where
  setting : Setting
  whole : setting.isDecimal = false := by rfl
  deriving Repr

def Amount.number (n : Int) : Amount := { setting := .number n }

structure Config where
  romPath : Setting := .absent
  cyclesPerSecond : Amount := .number 700
  timerHz : Amount := .number 60
  scale : Amount := .number 12
  colorScheme : Setting := .text "white"
  seed : Setting := .number 0
  logLevel : Setting := .text "INFO"
  trace : Setting := .flag false
  deriving Repr

namespace Config

/-- A rate or a size has to be a number, and a positive one. -/
def positive (field : String) (a : Amount) : Except Failure Nat :=
  match a.setting.quantity? with
  | none => .error .wrongType
  | some q => if q ≤ 0 then .error (.notPositive field a.setting.shown) else .ok q.toNat

/-- The three quantities of a valid configuration: instruction rate, timer rate, scale. -/
def quantities (c : Config) : Except Failure (Nat × Nat × Nat) := do
  let cps ← positive "cycles_per_second" c.cyclesPerSecond
  let hz ← positive "timer_hz" c.timerHz
  let scale ← positive "scale" c.scale
  return (cps, hz, scale)

/-- Instructions for each timer tick, at least one. -/
def cyclesPerFrame (cps hz : Nat) : Nat := max 1 (cps / hz)

def listing (c : Config) : List (String × Setting) :=
  [("rom_path", c.romPath), ("cycles_per_second", c.cyclesPerSecond.setting),
   ("timer_hz", c.timerHz.setting), ("scale", c.scale.setting),
   ("color_scheme", c.colorScheme), ("seed", c.seed)]

end Config

end Chip8
