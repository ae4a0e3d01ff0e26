import Chip8.CommandLine.Option
import Chip8.Config
import Chip8.Text.Integer

/-! The values that a command line gives, and the configuration made of them. -/
namespace Chip8.CommandLine

/-- What an option is given: a value, or nothing when a separator stands in its place. -/
inductive Given (α : Type) where
  | value (a : α)
  | nothing
  deriving DecidableEq, Repr

namespace Given
variable {α : Type}

def value? : Given α → Option α
  | value a => some a
  | nothing => none

/-- Nothing counts as a list without items. -/
def setting (write : α → Setting) : Given α → Setting
  | value a => write a
  | nothing => .list []

def amount : Given Int → Amount
  | value n => .number n
  | nothing => { setting := .list [] }

end Given

structure Arguments where
  rom : Option String := none
  path : Option (Given String) := none
  speed : Given Int := .value 700
  timerHz : Given Int := .value 60
  scale : Given Int := .value 12
  colors : Given String := .value "white"
  seed : Given Int := .value 0
  logLevel : Given String := .value "INFO"
  trace : Bool := false
  headless : Option (Given Int) := none
  deriving DecidableEq, Repr

inductive Stop where
  | help
  | misuse (e : UsageError)
  deriving DecidableEq, Repr

/-- Values so far, whether the positional argument is taken, and what nothing has taken. -/
structure Progress where
  arguments : Arguments := {}
  romTaken : Bool := false
  extras : List String := []

namespace Progress

def leave (s : String) (p : Progress) : Progress := { p with extras := p.extras ++ [s] }

def takeRom (s : String) (p : Progress) : Progress :=
  { p with arguments := { p.arguments with rom := some s }, romTaken := true }

def integer (f : Flag) : Given String → Except Stop (Given Int)
  | .nothing => .ok .nothing
  | .value s =>
    match Text.integer? s with
    | some n => .ok (.value n)
    | none => .error (.misuse (.badInteger f s))

/-- An option with its value; one that takes none ignores it. The last one given counts. -/
def take (f : Flag) (value : Given String) (p : Progress) : Except Stop Progress := do
  let a := p.arguments
  match f with
  | .help => throw .help
  | .path => return { p with arguments := { a with path := some value } }
  | .speed => return { p with arguments := { a with speed := ← integer f value } }
  | .timerHz => return { p with arguments := { a with timerHz := ← integer f value } }
  | .scale => return { p with arguments := { a with scale := ← integer f value } }
  | .colors => return { p with arguments := { a with colors := value } }
  | .seed => return { p with arguments := { a with seed := ← integer f value } }
  | .logLevel => return { p with arguments := { a with logLevel := value } }
  | .trace => return { p with arguments := { a with trace := true } }
  | .headless => return { p with arguments := { a with headless := some (← integer f value) } }

/-- Letters behind a short spelling are more short options, of which there is only the one for
help. Without letters, or from the first on that is no option, the text is in the way. -/
def obstacle? : List Char → Option (List Char)
  | [] => some []
  | ['h'] => none
  | 'h' :: rest => obstacle? rest
  | cs => some cs

def takeAttached (f : Flag) (attached : Attachment) (p : Progress) : Except Stop Progress :=
  match attached with
  | .bare => p.take f .nothing
  | .equals value =>
    if !f.takesValue then .error (.misuse (.ignoredValue f value))
    else p.take f (if value = "--" then .nothing else .value value)
  | .joined letters =>
    match obstacle? letters.toList with
    | some text => .error (.misuse (.ignoredValue f (String.ofList text)))
    | none => p.take f .nothing

end Progress

/-- Gives every argument to the option or the positional that takes it. A separator goes with
the positional beside it. -/
def consume : List (String × Role) → Progress → Except Stop Progress
  | [], p => .ok p
  | (s, .positional) :: rest, p =>
    if p.romTaken then consume rest (p.leave s)
    else
      match rest with
      | (_, .separator) :: rest => consume rest (p.takeRom s)
      | rest => consume rest (p.takeRom s)
  | (s, .separator) :: rest, p => consume rest (if p.romTaken then p.leave s else p)
  | (s, .unknown) :: rest, p => consume rest (p.leave s)
  | (_, .option f attached) :: rest, p =>
    if f.takesValue ∧ attached = .bare then
      match rest with
      | (value, .positional) :: rest => do consume rest (← p.take f (.value value))
      | _ => .error (.misuse (.missingValue f))
    else do consume rest (← p.takeAttached f attached)

namespace Arguments

def parse (argv : List String) : Except Stop Arguments := do
  let tokens ← (roles argv).mapError .misuse
  let p ← consume tokens {}
  if p.extras ≠ [] then throw (.misuse (.unrecognized p.extras))
  return p.arguments

def romPath (a : Arguments) : Option String :=
  (a.path.bind Given.value?).filter (· ≠ "") <|> a.rom

def config (a : Arguments) : Config where
  romPath := (a.romPath.map .text).getD .absent
  cyclesPerSecond := a.speed.amount
  timerHz := a.timerHz.amount
  scale := a.scale.amount
  colorScheme := a.colors.setting .text
  seed := a.seed.setting .number
  logLevel := a.logLevel.setting .text
  trace := .flag a.trace

end Arguments

end Chip8.CommandLine
