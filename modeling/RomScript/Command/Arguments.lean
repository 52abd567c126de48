import RomScript.Batch.Selection
import RomScript.Engine.State
import RomScript.Text.Number

/-!
# Command-line arguments

A command word is followed by one path and by options. The value of an option or path
is read when the next known argument begins or at the end, so an unknown argument is
reported before a bad value in front of it. Behind `--` every argument is a path. Every
command knows every option and uses those it has a use for.
-/

set_option autoImplicit false

namespace RomScript

inductive Subcommand
  | tables
  | dump
  | exec
  | trace
  deriving DecidableEq, Repr

namespace Subcommand

def name : Subcommand → String
  | .tables => "tables"
  | .dump => "dump"
  | .exec => "exec"
  | .trace => "trace"

def all : List Subcommand := [tables, dump, exec, trace]

def ofName? (name : String) : Option Subcommand := all.find? fun command => command.name == name

end Subcommand

inductive ColorChoice
  | auto
  | always
  | never
  deriving DecidableEq, Repr, Inhabited

inductive CallFormat
  | text
  | json
  deriving DecidableEq, Repr, Inhabited

/-- Why arguments are refused. A request for help is answered instead of the command. -/
inductive UsageError
  | noArguments
  | help
  | unknownCommand
  | unknownArgument
  | missingRom
  | badNumber (reason : String)
  | badValue
  /-- Arguments that exclude each other, or one that is given twice. -/
  | conflict
  | surplusValue
  deriving DecidableEq, Repr

inductive ValueOption
  | script
  | offset
  | fixture
  | maxOps
  | recursionLimit
  | head
  | resource
  | i2cBus
  | auxBus
  | linkFlags
  | format
  | color
  deriving DecidableEq, Repr

namespace ValueOption

def name : ValueOption → String
  | .script => "script"
  | .offset => "offset"
  | .fixture => "fixture"
  | .maxOps => "max-ops"
  | .recursionLimit => "recursion-limit"
  | .head => "head"
  | .resource => "or"
  | .i2cBus => "i2c-bus"
  | .auxBus => "aux-bus"
  | .linkFlags => "link-flags"
  | .format => "format"
  | .color => "color"

def all : List ValueOption :=
  [script, offset, fixture, maxOps, recursionLimit, head, resource, i2cBus, auxBus, linkFlags,
    format, color]

def ofName? (name : String) : Option ValueOption := all.find? fun option => option.name == name

end ValueOption

/-! ## Values -/

namespace ArgumentValue

def number (bound : Nat) (text : String) : Except UsageError Nat :=
  match parseNumber text with
  | .error cause => .error (.badNumber cause.message)
  | .ok value =>
    if value < bound then .ok value else .error (.badNumber (text ++ " is out of range"))

def byte (text : String) : Except UsageError UInt8 := (number UInt8.size text).map UInt8.ofNat

def dword (text : String) : Except UsageError UInt32 := (number UInt32.size text).map UInt32.ofNat

def path (text : String) : Except UsageError String :=
  if text.isEmpty then .error .badValue else .ok text

def format (text : String) : Except UsageError CallFormat :=
  if text = "text" then .ok .text else if text = "json" then .ok .json else .error .badValue

def color (text : String) : Except UsageError ColorChoice :=
  if text = "auto" then .ok .auto
  else if text = "always" then .ok .always
  else if text = "never" then .ok .never
  else .error .badValue

/-- The value of an option that is given only once. -/
def once {α : Type} (former : Option α) (value : Except UsageError α) :
    Except UsageError (Option α) :=
  match former with
  | some _ => .error .conflict
  | none => value.map some

end ArgumentValue

structure GivenArguments where
  rom : Option String := none
  script : Option UInt8 := none
  offset : Option UInt32 := none
  all : Bool := false
  fixture : Option String := none
  maxOps : Option UInt32 := none
  recursionLimit : Option UInt32 := none
  head : Option UInt8 := none
  resource : Option UInt8 := none
  i2cBus : Option UInt8 := none
  auxBus : Option UInt8 := none
  linkFlags : Option UInt8 := none
  format : Option CallFormat := none
  color : Option ColorChoice := none
  verbose : Nat := 0

/-- An argument that has begun and whose value has not been read. -/
inductive PendingArgument
  | none
  | option (option : ValueOption) (value : Option String)
  | rom (path : String)

namespace GivenArguments

open ArgumentValue

def store (given : GivenArguments) (option : ValueOption) (text : String) :
    Except UsageError GivenArguments :=
  match option with
  | .script => return { given with script := ← once given.script (byte text) }
  | .offset => return { given with offset := ← once given.offset (dword text) }
  | .fixture => return { given with fixture := ← once given.fixture (path text) }
  | .maxOps => return { given with maxOps := ← once given.maxOps (dword text) }
  | .recursionLimit =>
    return { given with recursionLimit := ← once given.recursionLimit (dword text) }
  | .head => return { given with head := ← once given.head (byte text) }
  | .resource => return { given with resource := ← once given.resource (byte text) }
  | .i2cBus => return { given with i2cBus := ← once given.i2cBus (byte text) }
  | .auxBus => return { given with auxBus := ← once given.auxBus (byte text) }
  | .linkFlags => return { given with linkFlags := ← once given.linkFlags (byte text) }
  | .format => return { given with format := ← once given.format (ArgumentValue.format text) }
  | .color => return { given with color := ← once given.color (ArgumentValue.color text) }

def settle (given : GivenArguments) : PendingArgument → Except UsageError GivenArguments
  | .none => .ok given
  | .option _ none => .error .badValue
  | .option option (some text) => given.store option text
  | .rom text => do
    let rom ← path text
    return { given with rom := some rom }

end GivenArguments

structure ArgumentReader where
  given : GivenArguments := {}
  pending : PendingArgument := .none

namespace ArgumentReader

def settled (reader : ArgumentReader) : Except UsageError GivenArguments :=
  reader.given.settle reader.pending

def hasRom (reader : ArgumentReader) : Bool :=
  match reader.pending with
  | .rom _ => true
  | _ => reader.given.rom.isSome

def takeRom (reader : ArgumentReader) (word : String) : Except UsageError ArgumentReader :=
  if reader.hasRom then .error .unknownArgument
  else do
    let given ← reader.settled
    return { given, pending := .rom word }

/-- Takes a word as the value of the option in front of it, or else as the path. -/
def takeWord (reader : ArgumentReader) (word : String) : Except UsageError ArgumentReader :=
  match reader.pending with
  | .option option none => .ok { reader with pending := .option option (some word) }
  | _ => reader.takeRom word

def takeAll (reader : ArgumentReader) : Except UsageError ArgumentReader := do
  let given ← reader.settled
  if given.all then .error .conflict else return { given := { given with all := true } }

def takeHelp (reader : ArgumentReader) : Except UsageError ArgumentReader := do
  let _ ← reader.settled
  .error .help

def takeOption (reader : ArgumentReader) (option : ValueOption) (value : Option String) :
    Except UsageError ArgumentReader := do
  let given ← reader.settled
  match value with
  | none => return { given, pending := .option option none }
  | some text =>
    let given ← given.store option text
    return { given }

def takeLong (reader : ArgumentReader) (name : String) (value : Option String) :
    Except UsageError ArgumentReader :=
  if name = "all" ∨ name = "help" then
    if value.isSome then .error .surplusValue
    else if name = "all" then reader.takeAll
    else reader.takeHelp
  else
    match ValueOption.ofName? name with
    | some option => reader.takeOption option value
    | none => .error .unknownArgument

def takeLetters (reader : ArgumentReader) : List Char → Except UsageError ArgumentReader
  | [] => .ok reader
  | 'v' :: rest => do
    let given ← reader.settled
    takeLetters { given := { given with verbose := min (given.verbose + 1) 255 } } rest
  | 'h' :: _ => reader.takeHelp
  | _ :: _ => .error .unknownArgument

end ArgumentReader

inductive ArgumentShape
  | separator
  | long (name : String) (value : Option String)
  | letters (letters : List Char)
  | word

def splitValue (text : List Char) : String × Option String :=
  let name := String.ofList (text.takeWhile (· ≠ '='))
  match text.dropWhile (· ≠ '=') with
  | [] => (name, none)
  | _ :: value => (name, some (String.ofList value))

/-- A single dash alone is a word. -/
def ArgumentShape.of (argument : String) : ArgumentShape :=
  match argument.toList with
  | ['-', '-'] => .separator
  | '-' :: '-' :: rest => .long (splitValue rest).1 (splitValue rest).2
  | '-' :: first :: others => .letters (first :: others)
  | _ => .word

namespace ArgumentReader

def takeWords (reader : ArgumentReader) : List String → Except UsageError ArgumentReader
  | [] => .ok reader
  | word :: rest => do
    let reader ← reader.takeRom word
    takeWords reader rest

def takeArguments (reader : ArgumentReader) : List String → Except UsageError ArgumentReader
  | [] => .ok reader
  | argument :: rest =>
    match ArgumentShape.of argument with
    | .separator => reader.takeWords rest
    | .long name value => do
      let reader ← reader.takeLong name value
      takeArguments reader rest
    | .letters letters => do
      let reader ← reader.takeLetters letters
      takeArguments reader rest
    | .word => do
      let reader ← reader.takeWord argument
      takeArguments reader rest

end ArgumentReader

structure Arguments where
  command : Subcommand
  rom : String
  selection : Selection
  fixture : Option String
  limits : Limits
  output : Output
  format : CallFormat
  color : ColorChoice
  verbose : Nat

namespace GivenArguments

def selection (given : GivenArguments) : Except UsageError Selection :=
  match given.script, given.offset, given.all with
  | none, none, _ => .ok .all
  | some index, none, false => .ok (.listed index)
  | none, some offset, false => .ok (.placed offset)
  | _, _, _ => .error .conflict

/-- The numbers of the defaults are those of the types. -/
def limits (given : GivenArguments) : Limits :=
  let default : Limits := {}
  { maxOps := (given.maxOps.map UInt32.toNat).getD default.maxOps,
    maxDepth := (given.recursionLimit.map UInt32.toNat).getD default.maxDepth }

def output (given : GivenArguments) : Output :=
  { head := given.head.getD 0, resource := given.resource.getD 0, i2cBus := given.i2cBus.getD 0,
    auxBus := given.auxBus.getD 0, linkFlags := given.linkFlags.getD 0 }

/-- Arguments that exclude each other are reported before a missing path. -/
def complete (given : GivenArguments) (command : Subcommand) : Except UsageError Arguments := do
  let selection ← given.selection
  match given.rom with
  | none => .error .missingRom
  | some rom =>
    return { command, rom, selection, fixture := given.fixture, limits := given.limits,
             output := given.output, format := given.format.getD .text,
             color := given.color.getD .auto, verbose := given.verbose }

end GivenArguments

namespace Arguments

def parseFor (command : Subcommand) (arguments : List String) : Except UsageError Arguments := do
  let reader ← ArgumentReader.takeArguments {} arguments
  let given ← reader.settled
  given.complete command

def isCommandWord (word : String) : Bool := word == "help" || (Subcommand.ofName? word).isSome

/-- A request for help may name one command. -/
def helpFor : List String → UsageError
  | [] => .help
  | [word] => if isCommandWord word then .help else .unknownCommand
  | _ => .unknownCommand

/-- The command word has to come before all options. -/
def parse : List String → Except UsageError Arguments
  | [] => .error .noArguments
  | argument :: rest =>
    match ArgumentShape.of argument with
    | .separator =>
      match rest with
      | [] => .error .noArguments
      | word :: _ =>
        .error (if isCommandWord word then .unknownArgument else .unknownCommand)
    | .long name value =>
      .error (if name ≠ "help" then .unknownArgument
        else if value.isSome then .surplusValue else .help)
    | .letters letters => .error (if letters.head? = some 'h' then .help else .unknownArgument)
    | .word =>
      match Subcommand.ofName? argument with
      | some command => parseFor command rest
      | none => .error (if argument = "help" then helpFor rest else .unknownCommand)

end Arguments

end RomScript
