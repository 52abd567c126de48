import RomScript.Disassembly
import RomScript.Text.Palette

/-!
# Printed listings

The listing of an image shows its header, its table directory and its script
pointers; the listing of a script shows its disassembly. All offsets of one image
have the same width.
-/

set_option autoImplicit false

namespace RomScript

def padRight (width : Nat) (text : String) : String :=
  text ++ String.ofList (List.replicate (width - text.length) ' ')

def unlines (lines : List String) : String := String.join (lines.map fun line => line ++ "\n")

def Instruction.columns (palette : Palette) (instruction : Instruction) : String :=
  let mnemonic := instruction.opcode.mnemonic
  let operands := instruction.operands
  if operands.isEmpty then palette.heading mnemonic
  else palette.heading (padRight Opcode.mnemonicWidth mnemonic) ++ " " ++ operands

namespace Listing

def offsetWidth (image : Image) : Nat := hexWidth image.length

/-- The letter of a header entry; anything that is no visible letter shows as a question mark. -/
def entryLetter (id : UInt8) : Char :=
  if 0x21 ≤ id.toNat ∧ id.toNat ≤ 0x7e then Char.ofNat id.toNat else '?'

def bitEntryLine (palette : Palette) (entry : BitEntry) : String :=
  palette.faint "entry" ++ "    " ++ String.singleton (entryLetter entry.id) ++ " v" ++
    toString entry.version.toNat ++ " len " ++ toString entry.length.toNat ++ " @ " ++
    hexLit 4 entry.offset.toNat

def headerLines (image : Image) (palette : Palette) : List String :=
  let offsetLine (offset : Nat) := "offset   " ++ hexLit (offsetWidth image) offset
  [palette.heading "[header]", "format   " ++ image.format.name,
    "size     " ++ toString image.length] ++
    match image.format with
    | .bit header =>
      [offsetLine header.offset, "version  " ++ hexLit 4 header.version.toNat] ++
        header.entries.map (bitEntryLine palette)
    | .bmp header =>
      [offsetLine header.offset,
        "version  " ++ toString header.major.toNat ++ "." ++ toString header.minor.toNat]
    | .raw => []

def tableLines (image : Image) (palette : Palette) : List String :=
  let entries := image.directory.entries
  [palette.heading "[tables]"] ++
    (if entries.isEmpty then [palette.faint "(none)"] else []) ++
    (entries.map fun entry => padRight 20 entry.1.name ++ hexLit 4 entry.2.toNat) ++
    if image.ramGroups = 0 then []
    else [padRight 20 "ram-restrict-groups" ++ toString image.ramGroups]

def pointerLines (image : Image) (palette : Palette) : List String :=
  match image.scriptPointers with
  | .error _ => []
  | .ok pointers =>
    ["", palette.heading "[scripts]"] ++ pointers.zipIdx.map fun entry =>
      padRight 4 (toString entry.2) ++ hexLit 4 entry.1.toNat

/-- The header, the directory and, if the image has the table, the script pointers. -/
def tables (image : Image) (palette : Palette) : String :=
  unlines (headerLines image palette ++ [""] ++ tableLines image palette ++
    pointerLines image palette)

def lineText (width : Nat) (palette : Palette) : DisassemblyLine → String
  | .instruction offset instruction =>
    palette.faint (hex width offset) ++ "  " ++ instruction.columns palette
  | .unknown offset id =>
    palette.faint (hex width offset) ++ "  " ++ palette.notice ("?? " ++ hexLit 2 id.toNat)
  | .truncated offset opcode =>
    palette.faint (hex width offset) ++ "  " ++ palette.heading opcode.mnemonic ++ " " ++
      palette.notice "(truncated)"
  | .endOfImage offset => palette.faint (hex width offset ++ "  (end of image)")
  | .limit =>
    palette.faint ("(stopped after " ++ toString disassemblyLimit ++ " instructions)")

def script (image : Image) (start : Nat) (palette : Palette) : String :=
  let width := offsetWidth image
  unlines (palette.heading ("[script " ++ hexLit width start ++ "]") ::
    if start = 0 then [palette.faint "(no script)"]
    else (disassemble image start).map (lineText width palette))

def all (image : Image) (palette : Palette) : String :=
  match image.scriptPointers with
  | .error _ => tables image palette
  | .ok pointers =>
    tables image palette ++
      String.join (pointers.map fun pointer => "\n" ++ script image pointer.toNat palette)

end Listing

end RomScript
