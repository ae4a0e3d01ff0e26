import Chip8.Failure
import Chip8.Machine
import Chip8.Opcode.Disassembly
import Chip8.Setting
import Chip8.Text.Decimal

/-! Console log: lines above a threshold, stamped with the time since the logger was made by a
clock, and the events of a machine that are worth a line. -/
namespace Chip8

/-- A clock that advances by scripted increments, one for each reading. -/
structure Clock (τ : Type) where
  now : τ
  increments : List τ

namespace Clock
variable {τ : Type} [Add τ]

/-- A reading first consumes the next increment, if one is left. -/
def read (c : Clock τ) : τ × Clock τ :=
  match c.increments with
  | [] => (c.now, c)
  | d :: ds => (c.now + d, ⟨c.now + d, ds⟩)

def advance (d : τ) (c : Clock τ) : Clock τ := { c with now := c.now + d }

end Clock

inductive Level where
  | debug | info | warning | error | critical
  deriving DecidableEq, Repr

namespace Level

def all : List Level := [debug, info, warning, error, critical]

def name : Level → String
  | debug => "DEBUG"
  | info => "INFO"
  | warning => "WARNING"
  | error => "ERROR"
  | critical => "CRITICAL"

def rank : Level → Nat
  | debug => 0
  | info => 1
  | warning => 2
  | error => 3
  | critical => 4

def color : Level → String
  | debug => "\x1b[36m"
  | info => "\x1b[32m"
  | warning => "\x1b[33m"
  | error => "\x1b[31m"
  | critical => "\x1b[35m"

/-- The capital of a letter, as far as level names go: past ASCII only the dotless i has
one among their letters. -/
def capital (c : Char) : Char := if c = 'ı' then 'I' else c.toUpper

/-- Names are read without regard to case. -/
def ofName? (s : String) : Option Level :=
  all.find? fun l => l.name.toList = s.toList.map capital

end Level

structure Line where
  elapsed : Option Float
  level : Level
  colored : Bool
  source : String
  message : String

def Line.text (l : Line) : String :=
  let mark := "[" ++ Text.padLeft 8 l.level.name ++ "]"
  (match l.elapsed with
    | some t => "[" ++ Text.padLeft 8 (Text.fixed 2 t) ++ "s]"
    | none => "") ++
  (if l.colored then l.level.color ++ mark ++ "\x1b[0m" else mark) ++
  "[" ++ l.source ++ "] " ++ l.message

structure Logger where
  name : String
  threshold : Level
  colored : Bool
  stamped : Bool
  clock : Clock Float
  start : Float

namespace Logger

/-- The clock is read once when the logger is made. -/
def create (name : String) (threshold : Level) (colored stamped : Bool) (clock : Clock Float) :
    Logger :=
  let (start, clock) := clock.read
  { name, threshold, colored, stamped, clock, start }

def create? (name level : String) (colored stamped : Bool) (clock : Clock Float) :
    Except Failure Logger :=
  match Level.ofName? level with
  | some l => .ok (create name l colored stamped clock)
  | none => .error (.unknownLevel level (Level.all.map Level.name))

/-- The threshold as its user wrote it, which has to be a text. -/
def ofSetting (name : String) (level : Setting) (colored stamped : Bool) (clock : Clock Float) :
    Except Failure Logger :=
  match level with
  | .text s => create? name s colored stamped clock
  | _ => .error .noLevelName

def isEnabled (l : Logger) (level : Level) : Bool := l.threshold.rank ≤ level.rank

def elapsed (l : Logger) : Float × Logger :=
  let (now, clock) := l.clock.read
  (now - l.start, { l with clock })

/-- A line below the threshold is not printed and does not read the clock. -/
def log (level : Level) (message : String) (l : Logger) : Logger × Option Line :=
  if l.isEnabled level then
    let line (t : Option Float) : Line := ⟨t, level, l.colored, l.name, message⟩
    if l.stamped then
      let (t, l) := l.elapsed
      (l, some (line (some t)))
    else (l, some (line none))
  else (l, none)

def logAll (level : Level) : List String → Logger → Logger × List Line
  | [], l => (l, [])
  | m :: ms, l =>
    let (l, line) := l.log level m
    let (l, lines) := l.logAll level ms
    (l, line.toList ++ lines)

end Logger

/-! ### Wordings -/
namespace Report

def ruler : String := String.ofList (List.replicate 60 '=')

def boot (settings : List (String × String)) (size : String) : List String :=
  [ruler, "Booting with " ++ size ++ " byte rom:"] ++
    settings.map (fun (k, v) => "  " ++ k ++ ": " ++ v) ++ [ruler]

def instruction (pc : Int) (text : String) : String := "0x" ++ Hex.signed 3 pc ++ ": " ++ text

def registers (m : Machine) : String :=
  "PC=0x" ++ Hex.padded 3 m.pc.toNat ++ " I=0x" ++ Hex.padded 3 m.i.toNat ++
    " DT=" ++ toString m.delayTimer.toNat ++ " ST=" ++ toString m.soundTimer.toNat ++ " | " ++
    " ".intercalate ((List.finRange 16).map fun r =>
      String.ofList ['V', Hex.digit r, '='] ++ Hex.padded 2 (m.reg r).toNat)

def halting (classification text : String) : String :=
  "Halting (" ++ classification ++ "): " ++ text

def halt (h : Halt) : String := halting h.classification h.text

def shutdown (frames : String) (elapsed : Float) : String :=
  "Stopped after " ++ frames ++ " frames (" ++ Text.fixed 1 elapsed ++ "s)"

end Report

namespace Logger

/-- The elapsed time is measured before the line's own stamp. -/
def logShutdown (frames : String) (l : Logger) : Logger × Option Line :=
  let (t, l) := l.elapsed
  l.log .info (Report.shutdown frames t)

end Logger

end Chip8
