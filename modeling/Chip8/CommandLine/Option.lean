import Chip8.Text.Integer
import Chip8.Text.Quoted

/-! The options of the command line and how one argument is taken for one of them: by its full
spelling, with a value behind an equals sign, or by the start of a single long spelling. -/
namespace Chip8.CommandLine

inductive Flag where
  | help | path | speed | timerHz | scale | colors | seed | logLevel | trace | headless
  deriving DecidableEq, Repr

inductive UsageError where
  | ambiguous (given : String) (candidates : List String)
  | missingValue (flag : Flag)
  | ignoredValue (flag : Flag) (value : String)
  | badInteger (flag : Flag) (value : String)
  | unrecognized (extras : List String)
  | noRom
  | rejected (reason : String)
  deriving DecidableEq, Repr

namespace Flag

def spellings : List (String × Flag) :=
  [("-h", help), ("--help", help), ("--path", path), ("--speed", speed), ("--timer-hz", timerHz),
   ("--scale", scale), ("--colors", colors), ("--seed", seed), ("--log-level", logLevel),
   ("--trace", trace), ("--headless", headless)]

def takesValue : Flag → Bool
  | help | trace => false
  | _ => true

def label (f : Flag) : String :=
  "/".intercalate ((spellings.filter (·.2 = f)).map (·.1))

end Flag

namespace UsageError

def message : UsageError → String
  | ambiguous given candidates =>
    "ambiguous option: " ++ given ++ " could match " ++ ", ".intercalate candidates
  | missingValue f => "argument " ++ f.label ++ ": expected one argument"
  | ignoredValue f v => "argument " ++ f.label ++ ": ignored explicit argument " ++ Text.quoted v
  | badInteger f v => "argument " ++ f.label ++ ": invalid int value: " ++ Text.quoted v
  | unrecognized extras => "unrecognized arguments: " ++ " ".intercalate extras
  | noRom => "a rom path is required"
  | rejected reason => reason

end UsageError

/-- The text that is part of an option: nothing, a value behind an equals sign, or more
letters behind a short spelling, where an equals sign may stand between. -/
inductive Attachment where
  | bare
  | equals (value : String)
  | joined (letters : String)
  deriving DecidableEq, Repr

inductive Role where
  | positional
  | separator
  | option (flag : Flag) (attached : Attachment)
  | unknown
  deriving DecidableEq, Repr

def splitValue (s : String) : String × Option String :=
  match s.toList.span (· ≠ '=') with
  | (name, _ :: value) => (String.ofList name, some (String.ofList value))
  | (_, []) => (s, none)

/-- A long spelling has two hyphens. -/
def attach (spelling : String) : Option String → Attachment
  | none => .bare
  | some value => if spelling.startsWith "--" then .equals value else .joined value

/-- Digits with a minus sign in front and perhaps one point before the last of them. One line
break may follow. -/
def isNegativeNumber (s : String) : Bool :=
  match s.toList with
  | '-' :: rest =>
    let body := if rest.getLast? = some '\n' then rest.dropLast else rest
    let isDigit (c : Char) : Bool := (Text.digitValue? c).isSome
    match body.span isDigit with
    | (ds, []) => !ds.isEmpty
    | (_, '.' :: ds) => !ds.isEmpty && ds.all isDigit
    | _ => false
  | _ => false

/-- The spellings that an argument may stand for, with what it attaches to them. -/
def candidates (s : String) : List (String × Flag × Attachment) :=
  match s.toList with
  | '-' :: '-' :: _ =>
    let (start, value) := splitValue s
    (Flag.spellings.filter fun (name, _) => name.startsWith start).map
      fun (name, f) => (name, f, attach name value)
  | '-' :: c :: rest =>
    Flag.spellings.filterMap fun (name, f) =>
      if name = String.ofList ['-', c] then some (name, f, .joined (String.ofList rest))
      else if name.startsWith s then some (name, f, .bare)
      else none
  | _ => []

/-- The option spelled out in full, alone or with a value. -/
def spelledOut? (s : String) : Option Role :=
  match Flag.spellings.lookup s with
  | some f => some (.option f .bare)
  | none =>
    let (name, value) := splitValue s
    (Flag.spellings.lookup name).map (.option · (attach name value))

/-- Numbers below zero and texts with a blank are no options unless they match one. -/
def roleOf (s : String) : Except UsageError Role :=
  if !s.startsWith "-" then .ok .positional
  else
    match spelledOut? s with
    | some r => .ok r
    | none =>
      if s.length = 1 then .ok .positional
      else
        match candidates s with
        | [(_, f, attached)] => .ok (.option f attached)
        | [] =>
          .ok (if isNegativeNumber s || s.contains ' ' then .positional else .unknown)
        | many => .error (.ambiguous s (many.map (·.1)))

/-- The roles of all arguments; behind the first separator all are positional. -/
def roles : List String → Except UsageError (List (String × Role))
  | [] => .ok []
  | "--" :: rest => .ok (("--", .separator) :: rest.map (·, .positional))
  | s :: rest => do return (s, ← roleOf s) :: (← roles rest)

end Chip8.CommandLine
