/-!
# The tables of an image

A script refers to the tables of its image by kind. A directory gives the
offset of each table that is present.
-/

set_option autoImplicit false

namespace RomScript

inductive TableId
  | initScripts
  | macroIndex
  | macros
  | conditions
  | ioConditions
  | ioFlagConditions
  | xlat
  | ramRestrict
  | pllLimits
  | memInit
  | sdrSequence
  | ddrSequence
  deriving DecidableEq, Repr, Inhabited

namespace TableId

def name : TableId → String
  | .initScripts => "init-scripts"
  | .macroIndex => "macro-index"
  | .macros => "macros"
  | .conditions => "conditions"
  | .ioConditions => "io-conditions"
  | .ioFlagConditions => "io-flag-conditions"
  | .xlat => "xlat"
  | .ramRestrict => "ram-restrict"
  | .pllLimits => "pll-limits"
  | .memInit => "mem-init"
  | .sdrSequence => "sdr-sequence"
  | .ddrSequence => "ddr-sequence"

def all : List TableId :=
  [initScripts, macroIndex, macros, conditions, ioConditions, ioFlagConditions, xlat,
    ramRestrict, pllLimits, memInit, sdrSequence, ddrSequence]

/-- The six tables whose pointers stand side by side in either kind of header. -/
def pointerBlock : List TableId :=
  [initScripts, macroIndex, macros, conditions, ioConditions, ioFlagConditions]

def ofName? (name : String) : Option TableId := all.find? fun table => table.name == name

end TableId

end RomScript
