import Chip8.Memory
import Chip8.Status
import Chip8.Text.Quoted

/-! Why an operation could not be carried out, and the wording of each cause. -/
namespace Chip8

/-- The subject of a halt notice. -/
inductive Cause where
  | machine | stackOverflow | stackUnderflow | memoryOutOfBounds | endOfMemory
  deriving DecidableEq, Repr

/-- A condition that stops a session: a halted machine, or a program that cannot be loaded. -/
inductive Halt where
  | fault (cause : Cause) (wording : Option String) (pc : Option Int)
  | romTooLarge (size : Int)
  deriving DecidableEq, Repr

inductive Failure where
  | halt (h : Halt)
  | notPositive (field given : String)
  | unknownScheme (name : String) (available : List String)
  | unknownLevel (name : String) (available : List String)
  | keypadLength (n : Nat)
  | noSuchFile (name : String)
  | isDirectory (name : String)
  | notDirectory (name : String)
  | nameTooLong (name : String)
  | permissionDenied (name : String)
  | noWindow (reason : String)
  | pictureSize
  | zeroInText
  | noSeed
  | noLevelName
  | outOfRange
  | wrongType
  | unassignedStatus
  | keyIndex
  | noMethod
  | noNumber
  | outOfMemory
  | zeroFrequency
  | blockLength
  | endless
  deriving DecidableEq, Repr

namespace Cause

def ofFault? : Fault → Option Cause
  | .stackOverflow => some stackOverflow
  | .stackUnderflow => some stackUnderflow
  | .memoryOutOfBounds => some memoryOutOfBounds
  | .endOfMemory => some endOfMemory
  | .unassigned _ => none

def wording : Cause → String
  | machine => "machine fault"
  | stackOverflow => "stack overflow"
  | stackUnderflow => "stack underflow"
  | memoryOutOfBounds => "memory access out of bounds"
  | endOfMemory => "reached end of memory"

end Cause

namespace Halt

/-- What is reported when neither a wording nor a place is given. -/
def plainText : Halt → String
  | fault c _ _ => c.wording
  | romTooLarge _ =>
    "rom is too large to fit into memory (max " ++ toString Memory.maxRomSize ++ " bytes)"

def sizeText (size : String) : String :=
  "rom is too large to fit into memory: " ++ size ++ " bytes, max " ++ toString Memory.maxRomSize

def text : Halt → String
  | fault c w pc =>
    w.getD c.wording ++
      (pc.map fun a => " (pc=0x" ++ Hex.signed 3 a ++ ")").getD ""
  | romTooLarge size => sizeText (toString size)

def pc? : Halt → Option Int
  | fault _ _ pc => pc
  | romTooLarge _ => none

/-- A program that does not fit stops the session before anything has run. -/
def isPreExecution : Halt → Bool
  | fault _ _ _ => false
  | romTooLarge _ => true

def classification (h : Halt) : String :=
  if h.isPreExecution then "fatal, pre-execution" else "fatal"

end Halt

namespace Failure

def message : Failure → String
  | halt h => h.text
  | notPositive field given => field ++ " must be positive, got " ++ given
  | unknownScheme name available =>
    "Unknown color scheme '" ++ name ++ "'. Available: " ++ Text.quotedList available
  | unknownLevel name available =>
    "Unknown log level '" ++ name ++ "'. Available: " ++ Text.quotedList available
  | keypadLength n => "Expected 16 key states, got " ++ toString n
  | noSuchFile name => "[Errno 2] No such file or directory: " ++ Text.quoted name
  | isDirectory name => "[Errno 21] Is a directory: " ++ Text.quoted name
  | notDirectory name => "[Errno 20] Not a directory: " ++ Text.quoted name
  | nameTooLong name => "[Errno 36] File name too long: " ++ Text.quoted name
  | permissionDenied name => "[Errno 13] Permission denied: " ++ Text.quoted name
  | noWindow reason => reason
  | pictureSize => "picture of another size than the window"
  | zeroInText => "zero character in a text"
  | noSeed => "no seed"
  | noLevelName => "log level is no text"
  | outOfRange => "number out of range"
  | wrongType => "value of the wrong type"
  | unassignedStatus => "status code without a meaning"
  | keyIndex => "key index out of range"
  | noMethod => "nothing of that name"
  | noNumber => "not a number"
  | outOfMemory => "out of memory"
  | zeroFrequency => "frequency is zero"
  | blockLength => "block does not fit into memory"
  | endless => "run without an end"

end Chip8.Failure
