import RomScript.Engine.Event

/-!
# The diagnostic log

Some events are diagnostics: they have a severity and a message. A log keeps those that
are at least as severe as its threshold.
-/

set_option autoImplicit false

namespace RomScript

inductive Severity
  | error
  | warn
  | info
  | debug
  | trace
  deriving DecidableEq, Repr

namespace Severity

/-- Counted from the most severe one. -/
def rank : Severity → Nat
  | .error => 0
  | .warn => 1
  | .info => 2
  | .debug => 3
  | .trace => 4

def name : Severity → String
  | .error => "ERROR"
  | .warn => "WARN"
  | .info => "INFO"
  | .debug => "DEBUG"
  | .trace => "TRACE"

def all : List Severity := [error, warn, info, debug, trace]

/-- The severity of a name in letters of either case, or of a number that counts from one. -/
def ofName? (name : String) : Option Severity :=
  all.find? fun severity =>
    severity.name == name.toUpper || toString (severity.rank + 1) == name

end Severity

namespace Event

def severity? : Event → Option Severity
  | .listed .. | .selected _ => some .info
  | .instruction .. => some .trace
  | .failure .. | .transfer .. | .needsLegacy .. | .pastEnd .. | .runaway .. | .beforeStart _
  | .truncated _ => some .warn
  | .call .. | .reserved .. => some .debug
  | .aborted .. | .unknownOpcode _ => some .error
  | .verdict _ (.ok _) => some .debug
  | .verdict _ (.error _) => some .warn
  | .script _ | .dispatch _ | .skip .. | .execute _ | .ret => none

private def place (offset : Nat) : String := hexLit 4 offset

def message : Event → String
  | .listed index start => "running init script " ++ toString index ++ " at " ++ place start
  | .selected start => "running script at " ++ place start
  | .instruction offset decoded =>
    place offset ++ " " ++ hexLit 2 decoded.opcode.id.toNat ++ " " ++ decoded.text
  | .failure offset opcode cause =>
    opcode.mnemonic ++ " at " ++ place offset ++ ": " ++ cause.message
  | .call target depth => "call " ++ place target ++ " at depth " ++ toString depth
  | .aborted target cause => "sub-script at " ++ place target ++ " aborted: " ++ cause.message
  | .verdict offset (.ok true) => "condition at " ++ place offset ++ " met"
  | .verdict offset (.ok false) => "condition at " ++ place offset ++ " not met"
  | .verdict offset (.error cause) =>
    "condition at " ++ place offset ++ " treated as unmet: " ++ cause.message
  | .transfer offset opcode notice =>
    let register := match notice.register with
      | some register => ", register " ++ hexLit 2 register.toNat
      | none => ""
    opcode.mnemonic ++ " at " ++ place offset ++ register ++ ": " ++ notice.cause.message
  | .reserved offset which =>
    "reserved opcode " ++ hexLit 2 (Opcode.reserved which).id.toNat ++ " at " ++ place offset
  | .unknownOpcode cause => cause.message
  | .needsLegacy offset opcode =>
    opcode.mnemonic ++ " at " ++ place offset ++ " needs a legacy image, stopping"
  | .pastEnd start offset =>
    "script at " ++ place start ++ " ran past the end of the image at " ++ place offset
  | .runaway start ops offset =>
    "script at " ++ place start ++ " exceeded " ++ toString ops ++ " ops, abandoned at " ++
      place offset
  | .beforeStart offset => "jump at " ++ place offset ++ " lands before the image start"
  | .truncated offset => "instruction at " ++ place offset ++ " is truncated"
  | .script _ | .dispatch _ | .skip .. | .execute _ | .ret => ""

end Event

namespace Log

/-- Whether a diagnostic is severe enough; without a threshold none is. -/
def admits (threshold : Option Severity) (severity : Severity) : Bool :=
  match threshold with
  | some least => severity.rank ≤ least.rank
  | none => false

def line? (threshold : Option Severity) (event : Event) : Option String :=
  match event.severity? with
  | some severity =>
    if admits threshold severity then some (severity.name ++ " " ++ event.message) else none
  | none => none

def observer (threshold : Option Severity) : Observer (Array String) where
  note _ event lines :=
    match line? threshold event with
    | some line => lines.push line
    | none => lines

end Log

end RomScript
