/-! The help text of the command line. -/
namespace Chip8.CommandLine

def usageText : String :=
  "usage: chip8vm [-h] [--path PATH] [--speed SPEED] [--timer-hz TIMER_HZ]\n" ++
  "               [--scale SCALE] [--colors COLORS] [--seed SEED]\n" ++
  "               [--log-level LOG_LEVEL] [--trace] [--headless FRAMES]\n" ++
  "               [rom]\n"

def helpText : String :=
  usageText ++
  "\nRun a CHIP-8 program\n" ++
  "\npositional arguments:\n" ++
  "  rom                   Path of the rom file\n" ++
  "\noptions:\n" ++
  "  -h, --help            show this help message and exit\n" ++
  "  --path PATH           Path of the rom file (alternative to the positional\n" ++
  "                        argument)\n" ++
  "  --speed SPEED         Instructions per second (default: 700)\n" ++
  "  --timer-hz TIMER_HZ   Timer and frame rate (default: 60)\n" ++
  "  --scale SCALE         Display scale (default: 12)\n" ++
  "  --colors COLORS       Color scheme: white, classic, amber, blue, retro (default:\n" ++
  "                        white)\n" ++
  "  --seed SEED           Seed for the random number instruction (default: 0)\n" ++
  "  --log-level LOG_LEVEL\n" ++
  "                        DEBUG, INFO, WARNING, ERROR or CRITICAL (default: INFO)\n" ++
  "  --trace               Log every executed instruction (needs --log-level DEBUG)\n" ++
  "  --headless FRAMES     Run FRAMES frames without a window and print the screen\n"

end Chip8.CommandLine
