import RomScript.Listing
import RomScript.Proofs.Instruction.Extent
import RomScript.Proofs.Text.OffsetWidth

/-!
# Listings

A listing goes from instruction to instruction until one cannot be decoded. The instructions
that it shows begin inside the image, even those that are unknown or not all there, so their
offsets fill a column whose width is that of the image.
-/

set_option autoImplicit false

namespace RomScript

namespace DisassemblyLine

/-- The offset of the instruction on a line, also of one that is unknown or not all there. -/
def offset? : DisassemblyLine → Option Nat
  | .instruction offset _ | .unknown offset _ | .truncated offset _ => some offset
  | .endOfImage _ | .limit => none

def remark? : DisassemblyLine → Option String
  | .unknown _ id => some ("?? " ++ hexLit 2 id.toNat)
  | .truncated .. => some "(truncated)"
  | .endOfImage _ => some "(end of image)"
  | .instruction .. | .limit => none

/-- The text of a line begins with the offset of its instruction, if it has one, in a column. -/
def HasColumn (width : Nat) (palette : Palette) (line : DisassemblyLine) (text : String) : Prop :=
  ∀ offset, line.offset? = some offset → ∃ column rest, Column width offset column ∧
    text = palette.faint column ++ "  " ++ rest

def HasRemark (line : DisassemblyLine) (text : String) : Prop :=
  ∀ remark, line.remark? = some remark → ∃ before rest, text = before ++ remark ++ rest

end DisassemblyLine

/-! ## Lines -/

section Lines

variable {image : Image} {offset left : Nat} {opcode : Opcode}

theorem disassembleFrom_of_le (h : image.length ≤ offset) :
    disassembleFrom image (left + 1) offset = [.endOfImage offset] := by
  have hb : image.byte offset = .error _ := Rom.byte_of_le image.rom h
  rw [disassembleFrom, hb]

theorem disassembleFrom_of_unknown {id : UInt8} (hb : image.byte offset = .ok id)
    (ho : Opcode.ofByte? id = none) :
    disassembleFrom image (left + 1) offset = [.unknown offset id] := by
  simp only [disassembleFrom, hb, ho]

theorem disassembleFrom_of_error {cause : DecodeError} (ho : image.opcodeAt? offset = some opcode)
    (hd : Instruction.decode image offset = .error cause) :
    disassembleFrom image (left + 1) offset = [.truncated offset opcode] := by
  have hb := (image.opcodeAt?_eq_some_iff offset opcode).mp ho
  simp only [disassembleFrom, hb, Opcode.ofByte?_id, hd]

theorem disassembleFrom_of_ok {instruction : Instruction}
    (hd : Instruction.decode image offset = .ok instruction) :
    disassembleFrom image (left + 1) offset = .instruction offset instruction ::
      if instruction.opcode = .done then []
      else disassembleFrom image left (offset + instruction.size) := by
  have hb := (image.opcodeAt?_eq_some_iff offset _).mp (Instruction.decode_opcode hd).1
  simp only [disassembleFrom, hb, Opcode.ofByte?_id, hd]

variable {place : Nat} {line : DisassemblyLine}

theorem lt_length_of_mem_disassembleFrom (h : line ∈ disassembleFrom image left offset)
    (hp : line.offset? = some place) : place < image.length := by
  -- on the lines that are left; one that is not all there has an opcode, and so a first byte
  induction left generalizing offset with
  | zero =>
    obtain rfl := List.mem_singleton.mp h
    cases hp
  | succ left ih =>
    rcases Nat.lt_or_ge offset image.length with hlt | hle
    · obtain ⟨id, hb⟩ : ∃ id, image.byte offset = .ok id := (image.exists_byte_iff offset).mpr hlt
      cases ho : Opcode.ofByte? id with
      | none =>
        rw [disassembleFrom_of_unknown hb ho, List.mem_singleton] at h
        subst h
        exact Option.some.inj hp ▸ hlt
      | some opcode =>
        have hopcode := (Image.opcodeAt?_of_byte hb).trans ho
        cases hd : Instruction.decode image offset with
        | error cause =>
          rw [disassembleFrom_of_error hopcode hd, List.mem_singleton] at h
          subst h
          exact Option.some.inj hp ▸ hlt
        | ok instruction =>
          rw [disassembleFrom_of_ok hd, List.mem_cons] at h
          rcases h with rfl | h
          · exact Option.some.inj hp ▸ hlt
          · split at h
            · cases h
            · exact ih h
    · rw [disassembleFrom_of_le hle, List.mem_singleton] at h
      subst h
      cases hp

end Lines

/-! ## Texts -/

section Texts

variable {image : Image} {line : DisassemblyLine}

theorem hasColumn_lineText (palette : Palette)
    (h : ∀ offset, line.offset? = some offset → offset < image.length) :
    line.HasColumn (hexWidth image.length) palette
      (Listing.lineText (Listing.offsetWidth image) palette line) := by
  intro offset hoffset
  have hcolumn := column_hex (h offset hoffset)
  cases line with
  | instruction place instruction =>
    obtain rfl := Option.some.inj hoffset
    exact ⟨_, _, hcolumn, rfl⟩
  | unknown place id =>
    obtain rfl := Option.some.inj hoffset
    exact ⟨_, _, hcolumn, rfl⟩
  | truncated place opcode =>
    obtain rfl := Option.some.inj hoffset
    exact ⟨_, palette.heading opcode.mnemonic ++ " " ++ palette.notice "(truncated)", hcolumn,
      by simp only [Listing.lineText, Listing.offsetWidth, String.append_assoc]⟩
  | endOfImage place => cases hoffset
  | limit => cases hoffset

theorem hasRemark_lineText (width : Nat) (palette : Palette) (line : DisassemblyLine) :
    line.HasRemark (Listing.lineText width palette line) := by
  intro remark hremark
  cases line with
  | unknown place id =>
    obtain rfl := Option.some.inj hremark
    refine ⟨palette.faint (hex width place) ++ "  " ++ palette.yellow, palette.reset, ?_⟩
    simp only [Listing.lineText, Palette.notice, String.append_assoc]
  | truncated place opcode =>
    obtain rfl := Option.some.inj hremark
    refine ⟨palette.faint (hex width place) ++ "  " ++ palette.heading opcode.mnemonic ++ " " ++
      palette.yellow, palette.reset, ?_⟩
    simp only [Listing.lineText, Palette.notice, String.append_assoc]
  | endOfImage place =>
    obtain rfl := Option.some.inj hremark
    have hsplit : "  (end of image)" = "  " ++ "(end of image)" := rfl
    refine ⟨palette.dim ++ hex width place ++ "  ", palette.reset, ?_⟩
    simp only [Listing.lineText, Palette.faint, hsplit, String.append_assoc]
  | instruction place instruction => cases hremark
  | limit => cases hremark

theorem hasColumn_of_mem_disassemble (palette : Palette) {start : Nat}
    (h : line ∈ disassemble image start) : line.HasColumn (hexWidth image.length) palette
      (Listing.lineText (Listing.offsetWidth image) palette line) := by
  unfold disassemble at h
  by_cases hs : start = 0
  · rw [if_pos hs] at h
    cases h
  · rw [if_neg hs] at h
    exact hasColumn_lineText palette fun _ => lt_length_of_mem_disassembleFrom h

end Texts

end RomScript
