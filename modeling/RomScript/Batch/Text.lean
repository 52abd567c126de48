import RomScript.Batch.Basic
import RomScript.Listing

/-!
# The printed call log

A block per run: a heading with the outcome, then the calls, of which those that only
look at the device are faint.
-/

set_option autoImplicit false

namespace RomScript

def Exit.text : Exit → String
  | .done => "done"
  | .noScript => "no script"
  | .truncated => "truncated"
  | .runaway => "runaway"

namespace ScriptRun

def label (run : ScriptRun) : String :=
  match run.target.index with
  | some index => "script " ++ toString index ++ " @ " ++ hexLit 4 run.target.start
  | none => "script @ " ++ hexLit 4 run.target.start

def summary (palette : Palette) (run : ScriptRun) : String :=
  match run.outcome with
  | .ok report => report.exit.text ++ ", " ++ toString report.ops ++ " ops"
  | .error cause => palette.notice ("error: " ++ cause.message)

def callLine (palette : Palette) (call : Call) : String :=
  "  " ++ if call.isWrite then call.text else palette.faint call.text

def text (palette : Palette) (run : ScriptRun) : String :=
  unlines ((palette.heading ("[" ++ run.label ++ "]") ++ " " ++ run.summary palette) ::
    run.calls.map (callLine palette))

end ScriptRun

def batchText (palette : Palette) (runs : List ScriptRun) : String :=
  "\n".intercalate (runs.map (ScriptRun.text palette))

end RomScript
