/-!
# The active output

A script programs one display output. Its head picks register banks, its resource
index picks a bit, and its buses stand in where a script leaves the bus open.
-/

set_option autoImplicit false

namespace RomScript

structure Output where
  head : UInt8 := 0
  resource : UInt8 := 0
  i2cBus : UInt8 := 0
  auxBus : UInt8 := 0
  /-- The link state bits that a DisplayPort condition tests. -/
  linkFlags : UInt8 := 0
  deriving DecidableEq, Repr, Inhabited

end RomScript
