import Chip8.CommandLine.Arguments
import Chip8.CommandLine.Usage
import Chip8.Host.Keyboard
import Chip8.Host.Window
import Chip8.Session.Run

/-! The program: it reads its arguments, boots the file that they name, and plays it for a
number of frames without a window, or in a window until the player quits. -/
namespace Chip8.CommandLine

structure Surroundings where
  files : Files := []
  wall : List Float := []
  hasDisplay : Bool := true
  screen : Screen := {}
  hasAudio : Bool := true
  keys : List (List KeyEvent) := []

/-- How a program ends: with a code, early after its help or a complaint, or with a failure
that it does not handle. -/
inductive Ending where
  | returned (code : Nat)
  | helped
  | refused (e : UsageError)
  | failed (f : Failure)
  deriving DecidableEq, Repr

/-- An ending and what the host has heard; `screen` is the picture that is printed last. -/
structure Performance where
  ending : Ending
  events : Array (Event Float) := #[]
  screen : Option String := none

namespace Performance

def printed (p : Performance) : String :=
  String.join (p.events.toList.map fun e =>
    match e with
    | .log l => l.text ++ "\n"
    | _ => "") ++
  ((p.screen.map (· ++ "\n")).getD "")

end Performance

/-- A valid command line: the configuration and the logger that is made of it. -/
structure Job where
  arguments : Arguments
  config : Config
  logger : Logger

/-- A value that is out of place is a misuse; one of the wrong kind is not expected. -/
def Ending.ofFailure (f : Failure) : Ending :=
  match f with
  | .notPositive .. | .unknownScheme .. | .unknownLevel .. => .refused (.rejected f.message)
  | _ => .failed f

def Job.ofArguments (a : Arguments) (wall : List Float) : Except Ending Job := do
  if a.romPath.all (· = "") then throw (.refused .noRom)
  let config := a.config
  let _ ← config.quantities.mapError .ofFailure
  let _ ← (Scheme.ofSetting config.colorScheme).mapError .ofFailure
  let logger ← (Session.loggerOf config true ⟨0, wall⟩).mapError .ofFailure
  return { arguments := a, config, logger }

/-- The end of a play: an unreadable file is logged, and so is a program that is refused before
the run could log it. -/
def conclude (o : Outcome Float) (screen : Option String) : Performance :=
  let s := o.session
  match o.failure with
  | none => { ending := .returned 0, events := s.events, screen }
  | some (.halt h) =>
    let s := if h.isPreExecution then s.log .error (Report.halt h) else s
    { ending := .returned 1, events := s.events }
  | some f =>
    match f with
    | .noSuchFile _ | .isDirectory _ | .notDirectory _ | .nameTooLong _ | .permissionDenied _ =>
      { ending := .returned 2
        events := (s.log .error ("Could not read rom: " ++ f.message)).events }
    | _ => { ending := .failed f, events := s.events }

def play (files : Files) (limit : Setting) (paced : Bool) (s : Session Float) :
    Outcome Float :=
  (s.bootRom files none).andThen fun s => s.runTimed limit paced

def headless (job : Job) (world : Surroundings) (frames : Setting) : Performance :=
  match Plan.ofConfig job.config with
  | .error f => { ending := .failed f }
  | .ok plan =>
    let o := play world.files frames false
      (Session.create plan false false none job.logger ⟨0, []⟩)
    conclude o (some (o.session.machine.display.toText "#" "."))

def openWindow (c : Config) (world : Surroundings) : Except Failure Window :=
  if world.hasDisplay then
    Window.create world.screen c.scale.setting c.colorScheme (.text Window.defaultCaption)
  else .error (.noWindow "No available video device")

/-- A play that is watched in a window. It breaks off at the first picture if the window takes
none. -/
def shownIn (room : Room) (w : Window) (p : Performance) : Performance :=
  let before := p.events.toList.takeWhile (!·.isPicture)
  match w.takesPictures room with
  | .error f =>
    if before.length = p.events.size then p
    else { ending := .failed f, events := before.toArray }
  | .ok () => p

/-- Plays in a window until the player quits. Without a window there is no play, and without
audio it is silent. -/
def windowed (job : Job) (world : Surroundings) : Performance :=
  match openWindow job.config world with
  | .error (.noWindow reason) =>
    let (_, line) := job.logger.log .error ("Could not open a window: " ++ reason)
    { ending := .returned 1, events := (line.map Event.log).toArray }
  | .error f => { ending := .failed f }
  | .ok window =>
    let (logger, line) :=
      if world.hasAudio then (job.logger, none)
      else job.logger.log .warning "Audio unavailable, running silent: No audio device"
    match Plan.ofConfig job.config with
    | .error f => { ending := .failed f }
    | .ok plan =>
      let s : Session Float :=
        { Session.create plan true world.hasAudio (some (Keyboard.toInput {} world.keys))
            logger ⟨0, []⟩ with events := (line.map Event.log).toArray }
      shownIn world.screen.room window (conclude (play world.files .absent true s) none)

def perform (argv : List String) (world : Surroundings) : Performance :=
  match Arguments.parse argv with
  | .error .help => { ending := .helped }
  | .error (.misuse e) => { ending := .refused e }
  | .ok a =>
    match Job.ofArguments a world.wall with
    | .error ending => { ending }
    | .ok job =>
      match a.headless with
      | some frames => headless job world (frames.setting .number)
      | none => windowed job world

end Chip8.CommandLine
