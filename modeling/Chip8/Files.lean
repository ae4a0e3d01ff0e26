import Chip8.Machine

/-! Program files, by their paths below one directory. -/
namespace Chip8

/-- A locked file is there but may not be read. -/
inductive Entry where
  | file (bytes : List UInt8)
  | locked
  | directory
  deriving DecidableEq

abbrev Files := List (String × Entry)

namespace Files

/-- The parts of a path that name something; empty ones and dots do not. -/
def parts (path : String) : List String :=
  (path.splitOn "/").filter fun p => p ≠ "" ∧ p ≠ "."

/-- What lies at a sequence of parts. Whatever holds a named file is a directory. -/
def entry? (files : Files) (wanted : List String) : Option Entry :=
  match files.find? fun (name, _) => parts name = wanted with
  | some (_, e) => some e
  | none =>
    if files.any fun (name, _) => wanted.isPrefixOf (parts name) then some .directory else none

/-- Bytes of the longest part of a path, and of the longest path. -/
def maxPart : Nat := 255
def maxPath : Nat := 4095

/-- The directory that holds another one. A directory below the one that holds the files is
given by its parts in reverse; of those outside only that they are directories is known. -/
def above : Option (List String) → Option (List String)
  | some (_ :: trail) => some trail
  | _ => none

/-- Follows a path from a directory. Only a directory can be entered. -/
def follow (files : Files) (path : String) :
    Option (List String) → List String → Except Failure (List UInt8)
  | _, [] => .error (.isDirectory path)
  | place, p :: rest =>
    if p = "" ∨ p = "." then follow files path place rest
    else if p = ".." then follow files path (above place) rest
    else if p.utf8ByteSize > maxPart then .error (.nameTooLong path)
    else
      match place.bind fun trail => files.entry? (p :: trail).reverse with
      | some (.file bytes) => if rest = [] then .ok bytes else .error (.notDirectory path)
      | some .locked => .error (if rest = [] then .permissionDenied path else .notDirectory path)
      | some .directory => follow files path (place.map (p :: ·)) rest
      | none => .error (.noSuchFile path)

/-- Reads the file that has the path as its name, or else follows the path. -/
def read (files : Files) (path : String) : Except Failure (List UInt8) :=
  match files.lookup path with
  | some (.file bytes) => .ok bytes
  | some .locked => .error (.permissionDenied path)
  | some .directory => .error (.isDirectory path)
  | none =>
    if path.contains '\x00' then .error .zeroInText
    else if path = "" then .error (.noSuchFile path)
    else if path.utf8ByteSize > maxPath then .error (.nameTooLong path)
    else files.follow path (if path.startsWith "/" then none else some []) (path.splitOn "/")

end Files

def Machine.loadRom (files : Files) (path : String) (m : Machine) : Except Failure Machine := do
  m.load (← files.read path)

end Chip8
