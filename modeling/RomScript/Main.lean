import RomScript.Command.Run
import RomScript.Command.Usage

/-!
# The command line

Reads the arguments, the named files and the log variable, and prints what the command
gives.
-/

set_option autoImplicit false

open RomScript

/-- Overrides the threshold of the log. -/
def logVariable : String := "ROMSCRIPT_LOG"

def reason : IO.Error → String
  | .noFileOrDirectory _ code details | .permissionDenied _ code details
  | .inappropriateType _ code details | .invalidArgument _ code details
  | .resourceExhausted _ code details | .otherError code details =>
    details ++ " (os error " ++ toString code ++ ")"
  | cause => toString cause

def readNamedFile (path : String) : IO (Except String ByteArray) := do
  try
    return .ok (← IO.FS.readBinFile path)
  catch cause => return .error (reason cause)

/-- Colours are used by default only if both streams go to a terminal. -/
def isColoured : ColorChoice → IO Bool
  | .always => return true
  | .never => return false
  | .auto => return (← (← IO.getStdout).isTty) && (← (← IO.getStderr).isTty)

def runArguments (arguments : Arguments) : IO CommandResult := do
  let rom ← readNamedFile arguments.rom
  let fixture ← match arguments.fixture with
    | some path => readNamedFile path
    | none => pure (.ok .empty)
  let coloured ← isColoured arguments.color
  let given ← IO.getEnv logVariable
  return Command.run
    { file := fun path => if path = arguments.rom then rom else fixture,
      palette := .ofBool coloured,
      threshold := Command.threshold arguments.verbose given } arguments

def main (argv : List String) : IO UInt32 := do
  match Arguments.parse argv with
  | .error cause =>
    let lines := (if cause.message.isEmpty then [] else ["error: " ++ cause.message, ""]) ++ usage
    for line in lines do
      if cause = .help then IO.println line else IO.eprintln line
    return UInt32.ofNat cause.status
  | .ok arguments =>
    let result ← runArguments arguments
    for line in result.stderr do IO.eprintln line
    IO.print result.stdout
    return UInt32.ofNat result.status
