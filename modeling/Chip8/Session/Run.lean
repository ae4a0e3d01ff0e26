import Chip8.Double
import Chip8.Session

/-! Runs of frames up to a limit or a request to quit, paced against a clock of any kind of
time. -/
namespace Chip8.Session
variable {τ : Type}

def finished (limit : Option Int) (s : Session τ) : Bool :=
  limit.any (fun (n : Int) => n ≤ (s.frames : Int)) || s.input.any Input.quitRequested

/-- How many frames a run without any bound is followed. -/
def patience : Nat := 1000000000000000

/-- A number of frames that the run cannot exceed: each counts towards the limit and, with an
input, polls it once. -/
def frameBound (limit : Option Int) (s : Session τ) : Nat :=
  match limit, s.input.bind fun i => i.quitAfter.map fun (q : Int) => q - (i.polls : Int) with
  | some l, _ => (l - s.frames).toNat
  | none, some q => q.toNat
  | none, none => patience

section Pacing
variable [Add τ] [Sub τ] [OfNat τ 0] [LT τ] [DecidableLT τ]

def readClock (s : Session τ) : τ × Session τ :=
  let (now, clock) := s.clock.read
  (now, { s with clock })

/-- Sleeps up to the end of the period. A frame that took longer starts a new count from the
present instead of a backlog. -/
def pace (period deadline : τ) (s : Session τ) : τ × Session τ :=
  let deadline := deadline + period
  let (now, s) := s.readClock
  let delay := deadline - now
  if 0 < delay then
    (deadline, ({ s with clock := s.clock.advance delay }).emit (.sleep delay))
  else s.readClock

def frameLoop (period : τ) (limit : Option Int) (paced : Bool) :
    Nat → τ → Session τ → Outcome τ
  | 0, _, s => { session := s, failure := if s.finished limit then none else some .endless }
  | fuel + 1, deadline, s =>
    if s.finished limit then { session := s }
    else
      let o := s.frame
      match o.failure with
      | some _ => o
      | none =>
        if paced then
          let (next, s) := o.session.pace period deadline
          frameLoop period limit paced fuel next s
        else frameLoop period limit paced fuel deadline o.session

def logFault (o : Outcome τ) : Outcome τ :=
  match o.failure with
  | some (.halt h) => { o with session := o.session.log .error (Report.halt h) }
  | _ => o

def logShutdown (s : Session τ) : Session τ :=
  let (logger, line) := s.logger.logShutdown (toString s.frames)
  { s with logger, events := s.events ++ (line.map Event.log).toArray }

/-- However a run ends the tone is off, and a regular end is logged. -/
def run (period : τ) (limit : Option Int) (paced : Bool) (s : Session τ) : Outcome τ :=
  let (start, s) := s.readClock
  let o := logFault (frameLoop period limit paced (s.frameBound limit) start s)
  let quiet := o.session.setTone false
  match o.failure with
  | some _ => { o with session := quiet }
  | none => { session := quiet.logShutdown }

end Pacing

/-- Whole numbers below a limit are those below its ceiling. No number is below what is none. -/
def decimalLimit (x : Float) : Option Int :=
  match Double.value x with
  | .finite negative m e => some (Double.ceiling negative m e)
  | .infinite false => none
  | .infinite true | .undefined => some 0

def limitOf (s : Setting) : Except Failure (Option Int) :=
  match s, s.quantity? with
  | .absent, _ => .ok none
  | .decimal x, _ => .ok (decimalLimit x)
  | _, some n => .ok (some n)
  | _, none => .error .wrongType

/-- A run whose period is one tick of the timers. The limit is looked at only when the clock
has been read and the first frame is due. -/
def runTimed (limit : Setting) (paced : Bool) (s : Session Float) : Outcome Float :=
  match Double.ofNat? s.plan.timerHz with
  | none => { session := s, failure := some .outOfRange }
  | some hz =>
    match limitOf limit with
    | .ok l => s.run (1.0 / hz) l paced
    | .error f => { session := s.readClock.2.setTone false, failure := some f }

end Chip8.Session
