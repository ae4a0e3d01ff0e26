import Chip8.Host.Beeper
import Chip8.Host.Window
import Chip8.Main
import Chip8.Proofs.Dispatch
import Chip8.Proofs.Effect
import Chip8.Proofs.Pattern
import Chip8.Proofs.Fault
import Chip8.Proofs.Run
import Chip8.Proofs.WellFormed
import Chip8.Proofs.ProgramCounter
import Chip8.Proofs.Calls
import Chip8.Proofs.KeyWait
import Chip8.Proofs.Strict
import Chip8.Proofs.CallStack
import Chip8.Proofs.Stage
import Chip8.Proofs.Frames
import Chip8.Proofs.Backstage
import Chip8.Proofs.Executed
import Chip8.Proofs.Devices
import Chip8.Proofs.Ownership
import Chip8.Proofs.Cadence
import Chip8.Proofs.Draws
import Chip8.Proofs.Interference
import Chip8.Proofs.Laps
import Chip8.Proofs.Limits
import Chip8.Proofs.Operations
import Chip8.Proofs.Tone
import Chip8.Proofs.Heard
import Chip8.Proofs.Trace
import Chip8.Proofs.Pixels
import Chip8.Proofs.Blitter
import Chip8.Proofs.Layout
import Chip8.Proofs.Reset
import Chip8.Proofs.Boot
import Chip8.Proofs.Unpolled
import Chip8.Proofs.Headless
import Chip8.Proofs.Arithmetic
import Chip8.Proofs.Transfer
import Chip8.Proofs.Overlay
import Chip8.Proofs.Access
import Chip8.Proofs.Successor
import Chip8.Proofs.Disassembly
import Chip8.Proofs.KeyHistory
import Chip8.Proofs.Showing
import Chip8.Proofs.Timeless
import Chip8.Proofs.Pacing
