import RomScript.Command.Arguments

/-!
# Help and refused arguments
-/

set_option autoImplicit false

namespace RomScript

namespace UsageError

def message : UsageError → String
  | .noArguments | .help => ""
  | .unknownCommand => "there is no such command"
  | .unknownArgument => "there is an argument that is not known"
  | .missingRom => "the path of the firmware image is missing"
  | .badNumber reason => reason
  | .badValue => "an option has a value that it does not take, or none"
  | .conflict => "there are arguments that cannot be used together"
  | .surplusValue => "there is a value for an option that takes none"

def status : UsageError → Nat
  | .help => 0
  | _ => 2

end UsageError

def usage : List String :=
  ["Inspect and run firmware init-table scripts",
    "",
    "romscript tables <ROM>                       header and table directory",
    "romscript dump <ROM> [--script N | --offset OFF]   disassembly",
    "romscript exec <ROM> [OPTIONS]               call log of a run",
    "romscript trace <ROM> [-v | -vv] [OPTIONS]   trace of a run, then its call log",
    "",
    "  --script <N>           script of the pointer table",
    "  --offset <OFF>         script at an offset of the image",
    "  --all                  every script of the pointer table (default)",
    "  --fixture <FILE>       JSON description of the simulated device",
    "  --max-ops <N>          instructions per run (default 1000)",
    "  --recursion-limit <N>  runs inside each other (default 32)",
    "  --head <N>             active head",
    "  --or <N>               output resource index",
    "  --i2c-bus <N>          I2C bus used when a script names bus 0xff",
    "  --aux-bus <N>          AUX channel of the active output",
    "  --link-flags <BITS>    link state bits of DisplayPort conditions",
    "  --format <FORMAT>      text or json",
    "  --color <WHEN>         auto, always or never",
    "  -v                     more detail"]

end RomScript
