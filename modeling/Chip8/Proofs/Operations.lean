import Chip8.Proofs.Laps

/-! What a host asks of a session, one operation after the other. One that fails leaves the
session as far as it has come, and the host goes on with that. -/
namespace Chip8

/-- What moves a booted session on. -/
inductive Cue where
  | keys (flags : List Bool)
  | step
  | frame

inductive Operation where
  | cue (c : Cue)
  | boot (image : List UInt8)
  | bootRom (files : Files) (path : Option String)
  | reset
  | tick
  | run (limit : Setting) (paced : Bool)

namespace Session
variable {τ : Type}

def follow (c : Cue) (s : Session τ) : Outcome τ :=
  match c with
  | .keys flags => s.setKeypad flags
  | .step => s.step
  | .frame => s.frame

def followAll : List Cue → Session τ → Session τ
  | [], s => s
  | c :: cs, s => followAll cs (s.follow c).session

theorem plays_follow (c : Cue) (s : Session τ) :
    s.backstage.Plays (s.follow c).session.backstage := by
  cases c with
  | keys flags =>
    rw [follow, setKeypad]
    split <;> exact .refl
  | step =>
    rw [follow, backstage_step]
    exact .hear _ _ _
  | frame => exact s.plays_frame

theorem plan_follow (c : Cue) (s : Session τ) : (s.follow c).session.plan = s.plan := by
  cases c with
  | keys flags =>
    rw [follow, setKeypad]
    split <;> rfl
  | step => exact congrArg Stage.plan s.step_reaches.stage
  | frame => exact s.plan_frame

def perform (op : Operation) (s : Session Float) : Outcome Float :=
  match op with
  | .cue c => s.follow c
  | .boot image => s.boot image
  | .bootRom files path => s.bootRom files path
  | .reset => { session := s.reset }
  | .tick => { session := s.tickTimers }
  | .run limit paced => s.runTimed limit paced

def performAll : List Operation → Session Float → Session Float
  | [], s => s
  | op :: ops, s => performAll ops (s.perform op).session

/-- What every operation keeps, all of them keep, whether they return or fail. -/
theorem performAll_induction {P : Session Float → Prop}
    (h : ∀ (op : Operation) (s : Session Float), P s → P (s.perform op).session)
    (ops : List Operation) (s : Session Float) (hs : P s) : P (s.performAll ops) := by
  induction ops generalizing s with
  | nil => exact hs
  | cons op ops ih => exact ih _ (h op s hs)

end Session
end Chip8
