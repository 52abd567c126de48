import RomScript.Effect.Selection
import RomScript.Instruction.ClockOp

/-!
# Effects on clocks
-/

set_option autoImplicit false

namespace RomScript

namespace Effect

def setPll (reg khz : UInt32) : Effect Unit := do
  let answer ← programPll reg khz
  ofPll answer

end Effect

namespace ClockOp

open Effect

/-- Whether the frequency is doubled; the flag condition zero never doubles it. -/
def isDoubled (image : Image) (flagCondition : UInt8) : Effect Bool :=
  if flagCondition = 0 then .done false else portFlagMet image flagCondition

def run (image : Image) : ClockOp → Effect Unit
  | .pll reg tensOfKhz => setPll reg (tensOfKhz.toUInt32 * 10)
  | .pll2 reg khz => setPll reg khz
  | .ioRestrictPll field flagCondition reg tensOfKhz => do
    let tens ← selectByPort field tensOfKhz
    let khz := tens.toUInt32 * 10
    let doubled ← isDoubled image flagCondition
    setPll reg (if doubled then khz * 2 else khz)
  | .ioRestrictPll2 field reg khz => do
    let khz ← selectByPort field khz
    setPll reg khz
  | .ramRestrictPll id khz => do
    let column ← ramColumn image
    let khz ← select .ramColumn khz column
    let answer ← programPllId id khz
    ofPll answer
  | .time micros =>
    let micros := micros.toUInt32
    if micros < 1000 then sleepMicros micros else sleepMillis ((micros + 900) / 1000)
  | .ltime millis => sleepMillis millis.toUInt32

end ClockOp

end RomScript
