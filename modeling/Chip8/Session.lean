import Chip8.Config
import Chip8.Files
import Chip8.Log
import Chip8.Machine.Execute

/-! A session: one machine together with the host it plays on. What the session does to the
host is a list of events; what the host answers is a script. -/
namespace Chip8

/-- A scripted source of keypad flags. It asks to quit once it was polled often enough. -/
structure Input where
  script : Nat → List Bool
  quitAfter : Option Int
  polls : Nat := 0

namespace Input

def quitRequested (i : Input) : Bool := i.quitAfter.any fun (q : Int) => q ≤ i.polls

def poll (i : Input) : List Bool × Input := (i.script i.polls, { i with polls := i.polls + 1 })

end Input

/-- What the host hears of a session; a poll is named by its number. -/
inductive Event (τ : Type) where
  | log (line : Line)
  | poll (index : Nat)
  | draw (display : Display)
  | startTone
  | stopTone
  | sleep (duration : τ)

def Event.isPicture {τ : Type} : Event τ → Bool
  | .draw _ => true
  | _ => false

structure Plan where
  romPath : Option String
  cyclesPerFrame : Nat
  timerHz : Nat
  seed : RandomKey
  trace : Bool
  listing : List (String × String)

namespace Plan

def ofConfig (c : Config) : Except Failure Plan := do
  let (cps, hz, _) ← c.quantities
  let key ← RandomKey.ofSetting c.seed
  return {
    romPath := match c.romPath with | .text s => some s | _ => none
    cyclesPerFrame := Config.cyclesPerFrame cps hz
    timerHz := hz
    seed := key
    trace := c.trace.isSet
    listing := c.listing.map fun (k, v) => (k, v.shown) }

end Plan

structure Session (τ : Type) where
  plan : Plan
  hasRenderer : Bool
  hasAudio : Bool
  input : Option Input
  logger : Logger
  clock : Clock τ
  machine : Machine
  frames : Nat := 0
  toneOn : Bool := false
  events : Array (Event τ) := #[]

/-- A session after an operation, and the failure that cut the operation short, if any. -/
structure Outcome (τ : Type) where
  session : Session τ
  failure : Option Failure := none

namespace Outcome
variable {τ : Type}

def andThen (o : Outcome τ) (next : Session τ → Outcome τ) : Outcome τ :=
  match o.failure with
  | some _ => o
  | none => next o.session

end Outcome

namespace Session
variable {τ : Type}

/-- A new session holds a booted machine without a program. -/
def create (plan : Plan) (hasRenderer hasAudio : Bool) (input : Option Input) (logger : Logger)
    (clock : Clock τ) : Session τ :=
  { plan, hasRenderer, hasAudio, input, logger, clock, machine := .create plan.seed }

def loggerOf (c : Config) (stamped : Bool) (clock : Clock Float) : Except Failure Logger :=
  Logger.ofSetting "chip8vm" c.logLevel false stamped clock

/-- A session of a configuration. Its quantities are checked first, its log level next and its
seed last. -/
def ofConfig (c : Config) (hasRenderer hasAudio : Bool) (input : Option Input) (stamped : Bool)
    (wall : Clock Float) (clock : Clock τ) : Except Failure (Session τ) := do
  let _ ← c.quantities
  let logger ← loggerOf c stamped wall
  let plan ← Plan.ofConfig c
  return create plan hasRenderer hasAudio input logger clock

def emit (e : Event τ) (s : Session τ) : Session τ := { s with events := s.events.push e }

def log (level : Level) (message : String) (s : Session τ) : Session τ :=
  let (logger, line) := s.logger.log level message
  { s with logger, events := s.events ++ (line.map Event.log).toArray }

def running (s : Session τ) : Bool := s.machine.status = .running

def waitingForKey (s : Session τ) : Bool := s.machine.status = .awaitingKey

def halted (s : Session τ) : Bool := s.machine.isFaulted

/-- Tells the audio sink about an edge of the tone; the same tone again is no edge. -/
def setTone (on : Bool) (s : Session τ) : Session τ :=
  if on = s.toneOn then s
  else
    let s := { s with toneOn := on }
    if !s.hasAudio then s
    else if on then (s.log .debug "Playing audio").emit .startTone
    else (s.log .debug "Audio paused").emit .stopTone

def updateTone (s : Session τ) : Session τ := s.setTone (s.machine.soundTimer > 0)

def check (s : Session τ) : Outcome τ := { session := s, failure := s.machine.failure? }

/-! ### Starting -/

def logBoot (size : Nat) (s : Session τ) : Session τ :=
  let (logger, lines) := s.logger.logAll .info (Report.boot s.plan.listing (toString size))
  { s with logger, events := s.events ++ (lines.map Event.log).toArray }

/-- A fresh machine with a program. One that does not fit leaves the session as it was. -/
def boot (program : List UInt8) (s : Session τ) : Outcome τ :=
  match (Machine.create s.plan.seed).load program with
  | .error e => { session := s, failure := some e }
  | .ok machine =>
    { session := (({ s with machine, frames := 0 }).setTone false).logBoot program.length }

/-- Boots a named file; without a name, or with an empty one, the configured one. -/
def bootRom (files : Files) (path : Option String) (s : Session τ) : Outcome τ :=
  match path.filter (· ≠ "") <|> s.plan.romPath with
  | none => { session := s, failure := some .wrongType }
  | some name =>
    match files.read name with
    | .error e => { session := s, failure := some e }
    | .ok program => (s.log .info ("Loaded " ++ name)).boot program

def reset (s : Session τ) : Session τ :=
  (({ s with machine := s.machine.reset, frames := 0 }).setTone false).log .info "Reset"

/-! ### Ticks and frames -/

def setKeypad (flags : List Bool) (s : Session τ) : Outcome τ :=
  match Keypad.ofFlags? flags with
  | some keypad => { session := { s with machine := { s.machine with keypad } } }
  | none => { session := s, failure := some (.keypadLength flags.length) }

def traceStep (s : Session τ) : Session τ :=
  let m := s.machine
  if s.plan.trace && s.running && m.pc.toNat + 1 < Memory.size then
    s.log .debug (Report.instruction m.pc.toNat (disassemble m.wordAt.toNat))
  else s

/-- A session with the machine that was answered. Only one that goes on moves the tone. -/
def resume (answer : Except Failure Machine) (s : Session τ) : Outcome τ :=
  match answer with
  | .error f => { session := s, failure := some f }
  | .ok machine => ({ s with machine }).check.andThen fun s => { session := s.updateTone }

def step (s : Session τ) : Outcome τ :=
  let s := s.traceStep
  s.resume (.ok s.machine.step)

def steps : Nat → Session τ → Outcome τ
  | 0, s => { session := s }
  | n + 1, s =>
    let o := s.step
    match o.failure with
    | some _ => o
    | none => steps n o.session

def tickTimers (s : Session τ) : Session τ :=
  ({ s with machine := s.machine.tickTimers }).updateTone

/-- The ticks of one frame without a look at what happens between them. -/
def burst (s : Session τ) : Outcome τ :=
  s.resume (s.machine.cycles? s.plan.cyclesPerFrame)

def pollInput (s : Session τ) : Outcome τ :=
  match s.input with
  | none => { session := s }
  | some i =>
    let (flags, next) := i.poll
    (({ s with input := some next }).emit (.poll i.polls)).setKeypad flags

def logRegisters (s : Session τ) : Session τ :=
  if s.logger.isEnabled .debug then s.log .debug (Report.registers s.machine) else s

def drawDisplay (s : Session τ) : Session τ :=
  if s.hasRenderer then s.emit (.draw s.machine.display) else s

def ticks (s : Session τ) : Outcome τ :=
  if s.plan.trace then s.steps s.plan.cyclesPerFrame else s.burst

def endFrame (s : Session τ) : Session τ :=
  let s := s.tickTimers
  ({ s with frames := s.frames + 1 }).logRegisters.drawDisplay

def frame (s : Session τ) : Outcome τ :=
  s.pollInput.andThen fun s => s.ticks.andThen fun s => { session := s.endFrame }

end Chip8.Session
