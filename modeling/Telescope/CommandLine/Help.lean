/-!
# Help

What the program says about itself.
-/

namespace Telescope.CommandLine

/-- The name and the number of the program. -/
def versionText : String := "simulator 0.1.0\n"

/-- The line of an option that every command has. -/
def helpOption : String := "  -h, --help  Print help\n"

/-- Help on the whole program. -/
def programHelp : String :=
  "BeamScan telescope driver: macros, scan requests and trace replay\n\n"
    ++ "Usage: beamscan <COMMAND>\n\n"
    ++ "Commands:\n"
    ++ "  run        Apply a macro, build the detector and replay a step trace\n"
    ++ "  validate   Check scan request files\n"
    ++ "  generate   Write one macro per material x momentum of a scan request\n"
    ++ "  materials  List the material catalog\n"
    ++ "  help       Print this message or the help of the given subcommand(s)\n\n"
    ++ "Options:\n"
    ++ "  -h, --help     Print help\n"
    ++ "  -V, --version  Print version\n"

/-- Help on running events. -/
def runHelp : String :=
  "Apply a macro, build the detector and replay a step trace\n\n"
    ++ "Usage: beamscan run [OPTIONS]\n\n"
    ++ "Options:\n"
    ++ "  -m, --macro <MACRO_FILE>       Macro file with /beamscan, /gun and /run commands\n"
    ++ "      --trace <TRACE>            JSON-lines step trace; a synthetic trace is generated when absent\n"
    ++ "      --workers <WORKERS>        Number of worker action sets [default: 1]\n"
    ++ "      --events <EVENTS>          Event count when the macro has no /run/beamOn [default: 100]\n"
    ++ "      --seed <SEED>              Seed for the synthetic trace [default: 0]\n"
    ++ "      --save-trace <SAVE_TRACE>  Keep the synthetic trace as JSON lines\n"
    ++ "  -h, --help                     Print help\n"

/-- Help on checking requests. -/
def validateHelp : String :=
  "Check scan request files\n\n"
    ++ "Usage: beamscan validate <FILES>...\n\n"
    ++ "Arguments:\n"
    ++ "  <FILES>...  \n\n"
    ++ "Options:\n" ++ helpOption

/-- Help on writing macros. -/
def generateHelp : String :=
  "Write one macro per material x momentum of a scan request\n\n"
    ++ "Usage: beamscan generate [OPTIONS] <REQUEST>\n\n"
    ++ "Arguments:\n"
    ++ "  <REQUEST>  \n\n"
    ++ "Options:\n"
    ++ "      --output-dir <OUTPUT_DIR>    [default: macros/auto]\n"
    ++ "      --results-dir <RESULTS_DIR>  [default: results/beamscan]\n"
    ++ "  -h, --help                       Print help\n"

/-- Help on listing materials. -/
def materialsHelp : String :=
  "List the material catalog\n\n"
    ++ "Usage: beamscan materials\n\n"
    ++ "Options:\n" ++ helpOption

/-- Help on help. -/
def helpHelp : String :=
  "Print this message or the help of the given subcommand(s)\n\n"
    ++ "Usage: beamscan help [COMMAND]...\n\n"
    ++ "Arguments:\n"
    ++ "  [COMMAND]...  Print help for the subcommand(s)\n"

/-- Help on a command. -/
def commandHelp? : String → Option String
  | "run" => some runHelp
  | "validate" => some validateHelp
  | "generate" => some generateHelp
  | "materials" => some materialsHelp
  | "help" => some helpHelp
  | _ => none

end Telescope.CommandLine
