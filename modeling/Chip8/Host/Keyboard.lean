import Chip8.Session

/-! The host keyboard: events of named keys become the flags of the sixteen-key pad. -/
namespace Chip8

/-- A key of the host by the first of its names. -/
abbrev Key := String

def Key.synonyms : List (String × Key) :=
  [("KP0", "KP_0"), ("KP1", "KP_1"), ("KP2", "KP_2"), ("KP3", "KP_3"), ("KP4", "KP_4"),
   ("KP5", "KP_5"), ("KP6", "KP_6"), ("KP7", "KP_7"), ("KP8", "KP_8"), ("KP9", "KP_9"),
   ("LMETA", "LGUI"), ("LSUPER", "LGUI"), ("RMETA", "RGUI"), ("RSUPER", "RGUI"),
   ("NUMLOCK", "NUMLOCKCLEAR"), ("SCROLLOCK", "SCROLLLOCK"), ("PRINT", "PRINTSCREEN"),
   ("BREAK", "PAUSE"), ("EURO", "CURRENCYUNIT")]

def Key.ofName (name : String) : Key := (synonyms.lookup name).getD name

inductive KeyEvent where
  | down (key : Key)
  | up (key : Key)
  | quit
  | other
  deriving DecidableEq, Repr

/-- The pad on the left of a QWERTY keyboard, row by row. -/
def defaultKeyMap : List (Key × Int) :=
  [("1", 0x1), ("2", 0x2), ("3", 0x3), ("4", 0xC),
   ("q", 0x4), ("w", 0x5), ("e", 0x6), ("r", 0xD),
   ("a", 0x7), ("s", 0x8), ("d", 0x9), ("f", 0xE),
   ("z", 0xA), ("x", 0x0), ("c", 0xB), ("v", 0xF)]

structure Keyboard where
  map : List (Key × Setting) := defaultKeyMap.map fun (key, target) => (key, .number target)
  keys : Keypad := .released
  quitRequested : Bool := false

namespace Keyboard

/-- Of two entries for one key the later counts. -/
def target? (k : Keyboard) (key : Key) : Option Setting := k.map.reverse.lookup key

/-- Negative targets count from the end of the pad. -/
def indexOf (target : Setting) : Except Failure (Fin 16) :=
  match target.quantity? with
  | none => .error .wrongType
  | some n =>
    if 0 ≤ n ∧ n < 16 then .ok (Fin.ofNat 16 n.toNat)
    else if -16 ≤ n ∧ n < 0 then .ok (Fin.ofNat 16 (n + 16).toNat)
    else .error .keyIndex

def setKey (key : Key) (pressed : Bool) (k : Keyboard) : Except Failure Keyboard :=
  match k.target? key with
  | none => .ok k
  | some target => do
    let i ← indexOf target
    return { k with keys := k.keys.setIfInBounds i.val pressed }

/-- Escape asks to quit, whatever it is mapped to. -/
def handle (e : KeyEvent) (k : Keyboard) : Except Failure Keyboard :=
  match e with
  | .quit => .ok { k with quitRequested := true }
  | .down key => if key = "ESCAPE" then .ok { k with quitRequested := true } else k.setKey key true
  | .up key => k.setKey key false
  | .other => .ok k

/-- Handles the waiting events; one that fails discards those behind it. -/
def poll : List KeyEvent → Keyboard → Keyboard × Option Failure
  | [], k => (k, none)
  | e :: es, k =>
    match k.handle e with
    | .ok next => poll es next
    | .error f => (k, some f)

def afterBatches (batches : List (List KeyEvent)) (n : Nat) (k : Keyboard) : Keyboard :=
  (batches.take n).foldl (fun k es => (k.poll es).1) k

/-- Batches of events as the input of a session: the `n`-th poll handles the `n`-th batch. -/
def toInput (k : Keyboard) (batches : List (List KeyEvent)) : Input :=
  { script := fun n => (k.afterBatches batches (n + 1)).keys.toList
    quitAfter := ((List.range (batches.length + 1)).find? fun n =>
      (k.afterBatches batches n).quitRequested).map Int.ofNat }

end Keyboard

end Chip8
