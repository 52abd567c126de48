import RomScript.Device.Output

/-!
# State and limits of a script

A script and all scripts it calls share two flags and the active output. While the
execute flag is off, instructions are stepped over; while the repeat flag is on, the
end of a repeated block ends the script.
-/

set_option autoImplicit false

namespace RomScript

structure ScriptState where
  execute : Bool := true
  repeating : Bool := false
  output : Output := {}
  deriving DecidableEq, Repr, Inhabited

def ScriptState.fresh (output : Output) : ScriptState := { output }

structure Limits where
  maxOps : Nat := 1000
  /-- The number of scripts that may be under way inside the outermost one. -/
  maxDepth : Nat := 32
  deriving DecidableEq, Repr, Inhabited

end RomScript
