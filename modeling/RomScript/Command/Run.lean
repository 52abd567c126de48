import RomScript.Batch.Json
import RomScript.Batch.Text
import RomScript.Command.Arguments
import RomScript.Device.FixtureText
import RomScript.Log
import RomScript.Trace

/-!
# Running a command

A command reads the files its arguments name and prints one text. What it does is a
function of the files, the colour and the threshold of the log.
-/

set_option autoImplicit false

namespace RomScript

/-- A status, the printed text, and the messages of the log with an error behind them. -/
structure CommandResult where
  status : Nat
  stdout : String
  stderr : List String
  deriving DecidableEq, Repr

/-- What a command finds around it. A file that cannot be read has a reason instead of bytes. -/
structure Surroundings where
  file : String → Except String ByteArray
  palette : Palette
  threshold : Option Severity

namespace Command

/-- The threshold of the log. A text that is given for it wins over the verbosity; one that
names no severity, such as the empty one, turns the log off. -/
def threshold (verbose : Nat) : Option String → Option Severity
  | some text => Severity.ofName? text
  | none =>
    match verbose with
    | 0 => some .warn
    | 1 => some .info
    | _ => some .debug

def failedStatus : Nat := 1

/-- The status of a batch in which an outermost run met an unknown opcode. -/
def abortedStatus : Nat := 2

def printed (stdout : String) : CommandResult := { status := 0, stdout, stderr := [] }

def failed (message : String) : CommandResult :=
  { status := failedStatus, stdout := "", stderr := ["error: " ++ message] }

def loadImage (surroundings : Surroundings) (path : String) : Except String Image :=
  let loaded : Except String Image := match surroundings.file path with
    | .error reason => .error ("io error: " ++ reason)
    | .ok bytes => (Image.resolve { bytes := bytes.data }).mapError ImageError.message
  loaded.mapError fun message => "failed to load '" ++ path ++ "': " ++ message

def fixtureText (surroundings : Surroundings) (path : String) : Except FixtureError String :=
  match surroundings.file path with
  | .error reason => .error (.unreadable reason)
  | .ok bytes =>
    match String.fromUTF8? bytes with
    | some text => .ok text
    | none => .error (.unreadable "stream did not contain valid UTF-8")

def loadDevice (surroundings : Surroundings) :
    Option String → Except String SimulatedDevice
  | none => .ok .blank
  | some path =>
    ((fixtureText surroundings path).bind Fixture.load).mapError fun cause =>
      "failed to load fixture '" ++ path ++ "': " ++ cause.message

def tables (surroundings : Surroundings) (arguments : Arguments) :
    Except String CommandResult := do
  let image ← loadImage surroundings arguments.rom
  return printed (Listing.tables image surroundings.palette)

def dump (surroundings : Surroundings) (arguments : Arguments) :
    Except String CommandResult := do
  let image ← loadImage surroundings arguments.rom
  match arguments.selection with
  | .all => return printed (Listing.all image surroundings.palette)
  | .placed offset => return printed (Listing.script image offset.toNat surroundings.palette)
  | .listed index =>
    match image.scriptPointer index with
    | .ok pointer => return printed (Listing.script image pointer.toNat surroundings.palette)
    | .error cause => .error ("no script " ++ toString index.toNat ++ ": " ++ cause.message)

def callLog (surroundings : Surroundings) (format : CallFormat) (runs : List ScriptRun) :
    String :=
  match format with
  | .text => batchText surroundings.palette runs
  | .json => (batchJson runs).pretty ++ "\n"

def tracer (surroundings : Surroundings) (arguments : Arguments) (image : Image) :
    Observer Trace :=
  let style : TraceStyle :=
    { image, verbosity := .ofCount arguments.verbose, palette := surroundings.palette }
  if arguments.command = .trace then style.observer else .silent

/-- The trace, and the line that parts it from a call log in text. -/
def tracePart (surroundings : Surroundings) (arguments : Arguments) (trace : Trace) : String :=
  if arguments.command = .trace then
    unlines (trace.lines.toList ++
      if arguments.format = .text then [surroundings.palette.faint "---"] else [])
  else ""

def runScripts (surroundings : Surroundings) (arguments : Arguments) :
    Except String CommandResult := do
  let image ← loadImage surroundings arguments.rom
  let device ← loadDevice surroundings arguments.fixture
  let engine : Engine SimulatedDevice (Trace × Array String) :=
    { image, facade := SimulatedDevice.facade,
      observer := .both (tracer surroundings arguments image) (Log.observer surroundings.threshold),
      limits := arguments.limits }
  let (result, machine) :=
    engine.runBatch arguments.output arguments.selection (.start device arguments.output ({}, #[]))
  match result with
  | .error cause => .error cause.message
  | .ok runs =>
    return { status := if runs.any ScriptRun.isFailed then abortedStatus else 0,
             stdout := tracePart surroundings arguments machine.notes.1 ++
               callLog surroundings arguments.format runs,
             stderr := machine.notes.2.toList }

def run (surroundings : Surroundings) (arguments : Arguments) : CommandResult :=
  let result := match arguments.command with
    | .tables => tables surroundings arguments
    | .dump => dump surroundings arguments
    | .exec | .trace => runScripts surroundings arguments
  match result with
  | .ok result => result
  | .error message => failed message

end Command

end RomScript
