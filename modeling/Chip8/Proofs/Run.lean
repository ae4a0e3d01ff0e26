import Chip8.Machine.Execute

/-! Runs: what happens to a machine while it plays, and whatever else its host may ask of it,
as lists of actions and of requests. -/
namespace Chip8
variable [Randomness]

inductive Action where
  | step
  | tick
  | keys (k : Keypad)

def Action.apply (m : Machine) : Action → Machine
  | step => m.step
  | tick => m.tickTimers
  | keys k => { m with keypad := k }

def Machine.run : List Action → Machine → Machine
  | [], m => m
  | a :: as, m => run as (a.apply m)

inductive Request where
  | action (a : Action)
  | load (image : List UInt8)
  | cycles (n : Int)
  | frame (n : Int)
  | reset
  | read (a : Int32)
  | write (a : Int32) (b : UInt8)

/-- The machine that a request leaves, unless the request is refused. -/
def Request.answer (m : Machine) : Request → Except Failure Machine
  | action a => .ok (a.apply m)
  | load image => m.load image
  | cycles n => m.cycles? n
  | frame n => m.frame? n
  | reset => .ok m.reset
  | read a => .ok (m.readByte a).1
  | write a b => .ok (m.writeByte a b)

/-- A host goes on with the machine it had when a request is refused. -/
def Machine.serve : List Request → Machine → Machine
  | [], m => m
  | r :: rs, m =>
    match r.answer m with
    | .ok m' => serve rs m'
    | .error _ => serve rs m

namespace Machine

theorem run_append (as bs : List Action) (m : Machine) : m.run (as ++ bs) = (m.run as).run bs := by
  induction as generalizing m with
  | nil => rfl
  | cons a as ih => exact ih (a.apply m)

/-- What every action keeps, a run keeps. -/
theorem run_induction {P : Machine → Prop} (h : ∀ (m : Machine) (a : Action), P m → P (a.apply m))
    (as : List Action) (m : Machine) (hm : P m) : P (m.run as) := by
  induction as generalizing m with
  | nil => exact hm
  | cons a as ih => exact ih (a.apply m) (h m a hm)

theorem serve_induction {P : Machine → Prop}
    (h : ∀ (m m' : Machine) (r : Request), r.answer m = .ok m' → P m → P m')
    (rs : List Request) (m : Machine) (hm : P m) : P (m.serve rs) := by
  induction rs generalizing m with
  | nil => exact hm
  | cons r rs ih =>
    rw [serve]
    cases ha : r.answer m with
    | ok m' => exact ih m' (h m m' r ha hm)
    | error e => exact ih m hm

end Machine
end Chip8
