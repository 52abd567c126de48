import RomScript.Batch.Basic
import RomScript.Json.Writer

/-!
# The call log as JSON

An array with an object per run. A run has a report or an error; every call names its
operation first.
-/

set_option autoImplicit false

namespace RomScript

private def bytesJson (bytes : List UInt8) : Json :=
  .array (bytes.map fun byte => .natural byte.toNat)

namespace Call

/-- The name of the operation and its fields. -/
def entry : Call → String × List (String × Json)
  | .readReg reg value =>
    ("read_reg", [("reg", .natural reg.toNat), ("value", .natural value.toNat)])
  | .writeReg reg value =>
    ("write_reg", [("reg", .natural reg.toNat), ("value", .natural value.toNat)])
  | .readIndexed port index value =>
    ("read_indexed", [("port", .natural port.toNat), ("index", .natural index.toNat),
      ("value", .natural value.toNat)])
  | .writeIndexed port index value =>
    ("write_indexed", [("port", .natural port.toNat), ("index", .natural index.toNat),
      ("value", .natural value.toNat)])
  | .readPort port value =>
    ("read_port", [("port", .natural port.toNat), ("value", .natural value.toNat)])
  | .writePort port value =>
    ("write_port", [("port", .natural port.toNat), ("value", .natural value.toNat)])
  | .i2cWrite bus addr data ok =>
    ("i2c_write", [("bus", .natural bus.toNat), ("addr", .natural addr.toNat),
      ("data", bytesJson data), ("ok", .bool ok)])
  | .i2cWriteRead bus addr write read ok =>
    ("i2c_write_read", [("bus", .natural bus.toNat), ("addr", .natural addr.toNat),
      ("write", bytesJson write), ("read", bytesJson read), ("ok", .bool ok)])
  | .auxRead bus addr data ok =>
    ("aux_read", [("bus", .natural bus.toNat), ("addr", .natural addr.toNat),
      ("data", bytesJson data), ("ok", .bool ok)])
  | .auxWrite bus addr data ok =>
    ("aux_write", [("bus", .natural bus.toNat), ("addr", .natural addr.toNat),
      ("data", bytesJson data), ("ok", .bool ok)])
  | .programPll reg khz ok =>
    ("program_pll", [("reg", .natural reg.toNat), ("khz", .natural khz.toNat), ("ok", .bool ok)])
  | .programPllId id khz =>
    ("program_pll_id", [("id", .natural id.toNat), ("khz", .natural khz.toNat)])
  | .sleepMicros micros => ("sleep_micros", [("us", .natural micros.toNat)])
  | .sleepMillis millis => ("sleep_millis", [("ms", .natural millis.toNat)])
  | .computeMemory => ("compute_memory", [])
  | .resetGpios excluded => ("reset_gpios", [("excluded", bytesJson excluded)])

def json (call : Call) : Json := .object (("op", .string call.entry.1) :: call.entry.2)

end Call

def Exit.name : Exit → String
  | .done => "done"
  | .noScript => "no_script"
  | .truncated => "truncated"
  | .runaway => "runaway"

def Report.json (report : Report) : Json :=
  .object [("start", .natural report.start), ("cursor", .natural report.cursor),
    ("ops", .natural report.ops), ("exit", .string report.exit.name)]

namespace ScriptRun

def json (run : ScriptRun) : Json :=
  let index := match run.target.index with
    | some index => [("index", Json.natural index)]
    | none => []
  let outcome := match run.outcome with
    | .ok report => ("report", report.json)
    | .error cause => ("error", Json.string cause.message)
  .object (index ++ [("start", .natural run.target.start), outcome,
    ("calls", .array (run.calls.map Call.json))])

end ScriptRun

def batchJson (runs : List ScriptRun) : Json := .array (runs.map ScriptRun.json)

end RomScript
