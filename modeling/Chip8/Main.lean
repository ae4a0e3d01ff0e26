import Chip8.CommandLine.Program

/-! Command line entry. There is no window to open here, so only headless play goes on. -/
namespace Chip8

def entryAt (path : String) : IO Files := do
  try
    return [(path, .file (← IO.FS.readBinFile path).toList)]
  catch
    | .inappropriateType .. => return [(path, .directory)]
    | .permissionDenied .. => return [(path, .locked)]
    | _ => return []

def surroundings (argv : List String) : IO CommandLine.Surroundings := do
  let start ← IO.monoMsNow
  let files ← match CommandLine.Arguments.parse argv with
    | .ok a => (a.romPath.map entryAt).getD (pure [])
    | .error _ => pure []
  let spent := (← IO.monoMsNow) - start
  return { files, wall := [0, spent.toFloat / 1000], hasDisplay := false, hasAudio := false }

end Chip8

def main (argv : List String) : IO UInt32 := do
  let shown := Chip8.CommandLine.perform argv (← Chip8.surroundings argv)
  IO.print shown.printed
  match shown.ending with
  | .returned code => return code.toUInt32
  | .helped =>
    IO.print Chip8.CommandLine.helpText
    return 0
  | .refused e =>
    IO.eprint (Chip8.CommandLine.usageText ++ "chip8vm: error: " ++ e.message ++ "\n")
    return 2
  | .failed f =>
    IO.eprintln f.message
    return 1
