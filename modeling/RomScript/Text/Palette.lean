/-!
# Colours of the printed text

A palette holds the codes put around headings, branch changes and structure.
The plain palette has empty codes, so the same printing code serves both.
-/

set_option autoImplicit false

namespace RomScript

structure Palette where
  blue : String
  green : String
  yellow : String
  dim : String
  reset : String
  deriving DecidableEq, Repr

namespace Palette

def ansi : Palette :=
  { blue := "\x1b[34m", green := "\x1b[32m", yellow := "\x1b[33m", dim := "\x1b[2m",
    reset := "\x1b[0m" }

def plain : Palette := { blue := "", green := "", yellow := "", dim := "", reset := "" }

def ofBool (coloured : Bool) : Palette := if coloured then ansi else plain

def isColoured (palette : Palette) : Bool := !palette.blue.isEmpty

instance : Inhabited Palette := ⟨plain⟩

def heading (palette : Palette) (text : String) : String := palette.blue ++ text ++ palette.reset

def faint (palette : Palette) (text : String) : String := palette.dim ++ text ++ palette.reset

def notice (palette : Palette) (text : String) : String := palette.yellow ++ text ++ palette.reset

end Palette

end RomScript
