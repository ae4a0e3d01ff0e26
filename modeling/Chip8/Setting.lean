import Chip8.Text.Decimal
import Chip8.Text.Quoted

/-! Values of parameters as their user wrote them, before anything has checked them. -/
namespace Chip8

inductive Setting where
  | absent
  | flag (b : Bool)
  | number (n : Int)
  | decimal (x : Float)
  | text (s : String)
  | list (items : List Setting)
  | record (fields : List (String × Setting))
  deriving Repr, Inhabited

namespace Setting

mutual

/-- Text is quoted inside a list or a record. -/
def written : Setting → String
  | absent => "None"
  | flag b => if b then "True" else "False"
  | number n => toString n
  | decimal x => Text.shortest x
  | text s => Text.quoted s
  | list items => "[" ++ ", ".intercalate (writtenItems items) ++ "]"
  | record fields => "\x7b" ++ ", ".intercalate (writtenFields fields) ++ "\x7d"

def writtenItems : List Setting → List String
  | [] => []
  | s :: rest => s.written :: writtenItems rest

def writtenFields : List (String × Setting) → List String
  | [] => []
  | (k, s) :: rest => (Text.quoted k ++ ": " ++ s.written) :: writtenFields rest

end

def shown : Setting → String
  | text s => s
  | s => s.written

def isDecimal : Setting → Bool
  | decimal _ => true
  | _ => false

/-- Flags count as 0 and 1. -/
def quantity? : Setting → Option Int
  | flag b => some (if b then 1 else 0)
  | number n => some n
  | _ => none

/-- Everything but nothing, zero and what is empty. -/
def isSet : Setting → Bool
  | absent => false
  | flag b => b
  | number n => n ≠ 0
  | decimal x => !Double.isZero x
  | text s => s ≠ ""
  | list items => !items.isEmpty
  | record fields => !fields.isEmpty

end Setting

end Chip8
