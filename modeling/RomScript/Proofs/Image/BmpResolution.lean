import RomScript.Proofs.Image.BitResolution

/-!
# Resolving a BMP image, and legacy images

A BMP header keeps its pointers at fixed places, in three parts. A part is taken if all of
the header up to its end is inside the image, so no pointer is ever read outside. Where the
header is legacy, the first part names the tables of the CONFIGURE opcodes; the mark is kept
in the header and in the directory, and the two agree on every image that can be made.
-/

set_option autoImplicit false

namespace RomScript

namespace BmpHeader

variable {rom : Rom} {start : Nat} {header : BmpHeader}

theorem exists_read_iff : (∃ header, read rom start = .ok header) ↔ start + 7 ≤ rom.length := by
  simp only [read, exists_bind_eq_ok_iff, pure_eq_ok_iff, exists_eq', and_true, exists_and_right,
    Rom.exists_byte_iff]
  omega

theorem failsOutside_read : rom.FailsOutside (read rom start) :=
  (Rom.failsOutside_byte _).bind fun _ => (Rom.failsOutside_byte _).bind fun _ =>
    Rom.failsOutside_ok _

theorem isLegacy_iff (header : BmpHeader) : header.isLegacy = true ↔ header.major ≤ 2 := by
  simp [isLegacy]

theorem of_read (h : read rom start = .ok header) :
    header.offset = start ∧ rom.byte (start + 5) = .ok header.major := by
  obtain ⟨major, hmajor, h⟩ := bind_eq_ok_iff.mp h
  obtain ⟨minor, -, h⟩ := bind_eq_ok_iff.mp h
  cases h
  exact ⟨rfl, hmajor⟩

end BmpHeader

namespace Directory

/-- Where the BMP header at `start` has its pointers, given its major version. -/
inductive BmpPointer (rom : Rom) (start : Nat) (major : UInt8) : TableId → Nat → Prop
  | memInit (hmajor : major ≤ 2) (hlength : start + 30 ≤ rom.length) :
      BmpPointer rom start major .memInit (start + 24)
  | sdrSequence (hmajor : major ≤ 2) (hlength : start + 30 ≤ rom.length) :
      BmpPointer rom start major .sdrSequence (start + 26)
  | ddrSequence (hmajor : major ≤ 2) (hlength : start + 30 ≤ rom.length) :
      BmpPointer rom start major .ddrSequence (start + 28)
  | block {table : TableId} {place : Nat} (hlength : start + 87 ≤ rom.length)
      (hblock : Layout.BlockPointer (start + 75) table place) :
      BmpPointer rom start major table place
  | limits (hlength : start + 144 ≤ rom.length) :
      BmpPointer rom start major .pllLimits (start + 142)

def bmpLayout (rom : Rom) (start : Nat) (major : UInt8) : Layout :=
  ⟨BmpPointer rom start major, fun _ => False⟩

variable {rom : Rom}

/-- No part of a BMP header is read unless it is inside the image. -/
theorem inside_bmpLayout (rom : Rom) (start : Nat) (major : UInt8) :
    (bmpLayout rom start major).Inside rom := by
  refine ⟨fun table place h => ?_, nofun⟩
  cases h with
  | block hlength hblock => cases hblock <;> omega
  | _ => omega

theorem Loads.within {layout : Layout} {part : Directory → Except ImageError Directory}
    (h : Loads rom layout part) (header : BmpHeader) (size : Nat) :
    Loads rom (layout.onlyIf (header.offset + size ≤ rom.length))
      (loadWithin rom header size part) :=
  Loads.onlyIf fun _ => h

def legacyTables : List TableId := [.memInit, .sdrSequence, .ddrSequence]

theorem Layout.BlockPointer.notMem {base place : Nat} {table : TableId}
    (h : BlockPointer base table place) : table ∉ legacyTables := by
  cases h <;> decide

def loadBmp (rom : Rom) (header : BmpHeader) (before : Directory) : Except ImageError Directory :=
  (if header.isLegacy then
    loadWithin rom header 30 (loadAll rom legacyTables (header.offset + 24)) before
  else .ok before) >>= fun directory =>
    loadWithin rom header 87 (loadAll rom TableId.pointerBlock (header.offset + 75)) directory >>=
      loadWithin rom header 144 (load rom .pllLimits (header.offset + 142))

theorem ofBmp_eq (rom : Rom) (header : BmpHeader) :
    ofBmp rom header = loadBmp rom header { empty with isLegacy := header.isLegacy } := by
  unfold ofBmp loadBmp
  split <;> rfl

theorem loads_loadBmp (header : BmpHeader) :
    Loads rom (bmpLayout rom header.offset header.major) (loadBmp rom header) := by
  have hlegacy : Loads rom _ fun before =>
      if header.isLegacy = true then
        loadWithin rom header 30 (loadAll rom legacyTables (header.offset + 24)) before
      else .ok before :=
    Loads.onlyIf fun _ => (loads_loadAll (by decide) _).within header 30
  have hpointers : Loads rom (.block TableId.pointerBlock (header.offset + 75))
      (loadAll rom TableId.pointerBlock (header.offset + 75)) :=
    loads_loadAll (by decide) _
  have hblock := hpointers.within header 87
  have hlimit : Loads rom (.single .pllLimits (header.offset + 142))
      (load rom .pllLimits (header.offset + 142)) :=
    loads_load _ _
  have hlimits := hlimit.within header 144
  refine (hlegacy.bind (hblock.bind hlimits ⟨?_, nofun⟩) ⟨?_, nofun⟩).congr ?_ ?_
  · rintro table place place' ⟨-, k, hk, -⟩ ⟨-, rfl, -⟩
    exact absurd (List.mem_of_getElem? hk) (by decide)
  · rintro table place place' ⟨-, -, k, hk, -⟩ (⟨-, hblock⟩ | ⟨-, rfl, -⟩)
    · exact ((Layout.block_pointerBlock_iff _ _ _).mp hblock).notMem (List.mem_of_getElem? hk)
    · exact absurd (List.mem_of_getElem? hk) (by decide)
  · intro table place
    constructor
    · rintro (⟨hlegacy, hlength, k, hk, rfl⟩ | ⟨hlength, hblock⟩ | ⟨hlength, rfl, rfl⟩)
      · have hmajor := header.isLegacy_iff.mp hlegacy
        match k, hk with
        | 0, rfl => exact .memInit hmajor hlength
        | 1, rfl => exact .sdrSequence hmajor hlength
        | 2, rfl => exact .ddrSequence hmajor hlength
      · exact .block hlength ((Layout.block_pointerBlock_iff _ _ _).mp hblock)
      · exact .limits hlength
    · intro h
      cases h with
      | memInit hm hl => exact .inl ⟨header.isLegacy_iff.mpr hm, hl, 0, rfl, rfl⟩
      | sdrSequence hm hl => exact .inl ⟨header.isLegacy_iff.mpr hm, hl, 1, rfl, rfl⟩
      | ddrSequence hm hl => exact .inl ⟨header.isLegacy_iff.mpr hm, hl, 2, rfl, rfl⟩
      | block hl hblock =>
        exact .inr (.inl ⟨hl, (Layout.block_pointerBlock_iff _ _ _).mpr hblock⟩)
      | limits hl => exact .inr (.inr ⟨hl, rfl, rfl⟩)
  · simp [Layout.union, Layout.onlyIf, Layout.block, Layout.single, bmpLayout]

end Directory

namespace Image

open Directory

variable {rom : Rom} {start : Nat} {image : Image}

theorem resolve_eq_of_bmp (hbit : ∀ offset, ¬ rom.Occurs bitSignature offset)
    (h : rom.FirstAt bmpSignature start) :
    resolve rom = do
      let header ← BmpHeader.read rom start
      let directory ← loadBmp rom header { empty with isLegacy := header.isLegacy }
      return { rom, format := .bmp header, directory } := by
  rw [resolve, (Rom.find?_eq_none_iff (by decide)).mpr hbit,
    (Rom.find?_eq_some_iff (by decide)).mpr h]
  simp only [ofBmp_eq]

theorem failsOutside_resolve (hbit : ∀ offset, ¬ rom.Occurs bitSignature offset)
    (h : rom.FirstAt bmpSignature start) : rom.FailsOutside (resolve rom) := by
  rw [resolve_eq_of_bmp hbit h]
  exact BmpHeader.failsOutside_read.bind fun header =>
    ((loads_loadBmp header).fails _).bind fun _ => Rom.failsOutside_ok _

theorem resolve_noHeader_iff (hbit : ∀ offset, ¬ rom.Occurs bitSignature offset) :
    resolve rom = .error (.noHeader rom.length) ↔ ∀ offset, ¬ rom.Occurs bmpSignature offset := by
  rw [← Rom.find?_eq_none_iff (by decide)]
  constructor
  · intro herror
    cases hfind : rom.find? bmpSignature with
    | none => rfl
    | some start =>
      have hfirst := (Rom.find?_eq_some_iff (by decide)).mp hfind
      obtain ⟨offset, width, houtside⟩ := failsOutside_resolve hbit hfirst _ herror
      cases houtside
  · intro hnone
    rw [resolve, (Rom.find?_eq_none_iff (by decide)).mpr hbit, hnone]

/-- Without a BIT signature, the first BMP signature decides: seven bytes of the header must
be there, and every pointer part that is inside the image is taken. -/
theorem resolve_of_bmp (hbit : ∀ offset, ¬ rom.Occurs bitSignature offset)
    (h : rom.FirstAt bmpSignature start) :
    ((∃ image, resolve rom = .ok image) ↔ start + 7 ≤ rom.length) ∧
    ∀ image, resolve rom = .ok image → ∃ header, image.format = .bmp header ∧
      header.offset = start ∧ rom.byte (start + 5) = .ok header.major ∧
        (bmpLayout rom start header.major).Describes rom image.directory ∧
          image.directory.ramGroups = 0 := by
  rw [resolve_eq_of_bmp hbit h]
  constructor
  · simp only [exists_bind_eq_ok_iff, pure_eq_ok_iff, exists_eq', and_true,
      (loads_loadBmp _).succeeds, inside_bmpLayout, BmpHeader.exists_read_iff]
  · intro image hok
    obtain ⟨header, hheader, hok⟩ := bind_eq_ok_iff.mp hok
    obtain ⟨directory, hdirectory, hok⟩ := bind_eq_ok_iff.mp hok
    cases hok
    obtain ⟨hoffset, hmajor⟩ := BmpHeader.of_read hheader
    have hdescribes := (loads_loadBmp header).describes (fun _ => rfl) rfl hdirectory
    have hgroups := hdescribes.ramGroups_none fun _ => id
    exact ⟨header, rfl, hoffset, hmajor, hoffset ▸ hdescribes, hgroups⟩

theorem cases_of_resolve (h : resolve rom = .ok image) :
    (∃ start header, BitHeader.read rom start = .ok header ∧ image.format = .bit header ∧
      ofBit rom header = .ok image.directory) ∨
    ∃ header, image.format = .bmp header ∧
      loadBmp rom header { empty with isLegacy := header.isLegacy } = .ok image.directory := by
  cases hbit : rom.find? bitSignature with
  | some start =>
    rw [resolve_eq_of_bit ((Rom.find?_eq_some_iff (by decide)).mp hbit)] at h
    obtain ⟨header, hheader, h⟩ := bind_eq_ok_iff.mp h
    obtain ⟨directory, hdirectory, h⟩ := bind_eq_ok_iff.mp h
    cases h
    exact .inl ⟨start, header, hheader, rfl, hdirectory⟩
  | none =>
    have hbit := (Rom.find?_eq_none_iff (by decide)).mp hbit
    cases hbmp : rom.find? bmpSignature with
    | some start =>
      rw [resolve_eq_of_bmp hbit ((Rom.find?_eq_some_iff (by decide)).mp hbmp)] at h
      obtain ⟨header, -, h⟩ := bind_eq_ok_iff.mp h
      obtain ⟨directory, hdirectory, h⟩ := bind_eq_ok_iff.mp h
      cases h
      exact .inr ⟨header, rfl, hdirectory⟩
    | none =>
      rw [(resolve_noHeader_iff hbit).mpr ((Rom.find?_eq_none_iff (by decide)).mp hbmp)] at h
      cases h

/-- The ways in which an image is made. -/
inductive Built : Image → Prop
  | resolved {rom : Rom} {image : Image} (h : resolve rom = .ok image) : Built image
  | script (rom : Rom) : Built (ofScript rom)
  | tables (rom : Rom) (directory : Directory) : Built (withDirectory rom directory)

theorem Built.isLegacy_eq (h : Built image) : image.isLegacy = image.directory.isLegacy := by
  cases h with
  | resolved h =>
    obtain ⟨_, header, -, hformat, hdirectory⟩ | ⟨header, hformat, hdirectory⟩ :=
      cases_of_resolve h
    · rw [isLegacy, hformat, (loads_bit header).isLegacy _ _ hdirectory]
      rfl
    · rw [isLegacy, hformat, (loads_loadBmp header).isLegacy _ _ hdirectory]
  | script rom => rfl
  | tables rom directory => rfl

/-- Only a legacy header names the tables of the CONFIGURE opcodes. -/
theorem isLegacy_of_get? (h : resolve rom = .ok image) {table : TableId} {value : UInt16}
    (htable : table ∈ legacyTables) (hget : image.directory.get? table = some value) :
    image.isLegacy = true := by
  obtain ⟨start, header, hheader, -, hdirectory⟩ | ⟨header, hformat, hdirectory⟩ :=
    cases_of_resolve h
  · have hdescribes := (loads_ofBit hheader).describes (fun _ => rfl) rfl hdirectory
    obtain ⟨place, hpointer, -⟩ := (hdescribes.get?_iff table value).mp hget
    cases hpointer with
    | block _ _ hblock => exact absurd htable hblock.notMem
    | _ => exact absurd htable (by decide)
  · have hdescribes := (loads_loadBmp header).describes (fun _ => rfl) rfl hdirectory
    obtain ⟨place, hpointer, -⟩ := (hdescribes.get?_iff table value).mp hget
    rw [isLegacy, hformat]
    cases hpointer with
    | memInit hmajor => exact header.isLegacy_iff.mpr hmajor
    | sdrSequence hmajor => exact header.isLegacy_iff.mpr hmajor
    | ddrSequence hmajor => exact header.isLegacy_iff.mpr hmajor
    | block _ hblock => exact absurd htable hblock.notMem
    | limits => exact absurd htable (by decide)

/-- Resolution without a BIT signature, and what the legacy mark says of every image. -/
theorem resolve_bmp_legacy :
    (∀ rom : Rom, (∀ offset, ¬ rom.Occurs [0xff, 0xb8, 0x42, 0x49, 0x54] offset) →
      (resolve rom = .error (.noHeader rom.length) ↔
        ∀ offset, ¬ rom.Occurs [0xff, 0x7f, 0x4e, 0x56, 0x00] offset) ∧
      ∀ start, rom.FirstAt [0xff, 0x7f, 0x4e, 0x56, 0x00] start →
        ((∃ image, resolve rom = .ok image) ↔ start + 7 ≤ rom.length) ∧
        ∀ image, resolve rom = .ok image → ∃ header, image.format = .bmp header ∧
          header.offset = start ∧ rom.byte (start + 5) = .ok header.major ∧
            (bmpLayout rom start header.major).Describes rom image.directory ∧
              image.directory.ramGroups = 0) ∧
    (∀ image, Built image → image.isLegacy = image.directory.isLegacy) ∧
    ∀ (rom : Rom) (image : Image), resolve rom = .ok image → ∀ table ∈ legacyTables, ∀ value,
      image.directory.get? table = some value → image.isLegacy = true :=
  ⟨fun _ hbit => ⟨resolve_noHeader_iff hbit, fun _ h => resolve_of_bmp hbit h⟩,
    fun _ h => h.isLegacy_eq, fun _ _ h _ htable _ hget => isLegacy_of_get? h htable hget⟩

/-- A header of major version two behind the first byte, up to the end of its last pointer. One
pointer of the six is zero. -/
def legacyRom : Rom where
  bytes := #[0, 0xff, 0x7f, 0x4e, 0x56, 0, 2, 0, 0, 0, 0, 0, 0, 0, 0, 0, 0, 0, 0, 0, 0, 0, 0, 0, 0,
    0x10, 1, 0x20, 1, 0x30, 1, 0, 0, 0, 0, 0, 0, 0, 0, 0, 0, 0, 0, 0, 0, 0, 0, 0, 0, 0, 0, 0, 0, 0,
    0, 0, 0, 0, 0, 0, 0, 0, 0, 0, 0, 0, 0, 0, 0, 0, 0, 0, 0, 0, 0, 0, 0x40, 1, 0x50, 1, 0x60, 1, 0,
    0, 0x80, 1, 0x90, 1, 0, 0, 0, 0, 0, 0, 0, 0, 0, 0, 0, 0, 0, 0, 0, 0, 0, 0, 0, 0, 0, 0, 0, 0, 0,
    0, 0, 0, 0, 0, 0, 0, 0, 0, 0, 0, 0, 0, 0, 0, 0, 0, 0, 0, 0, 0, 0, 0, 0, 0, 0, 0, 0, 0, 0, 0xa0,
    1]

theorem resolve_legacyRom : (∀ offset, ¬ legacyRom.Occurs [0xff, 0xb8, 0x42, 0x49, 0x54] offset) ∧
    legacyRom.FirstAt [0xff, 0x7f, 0x4e, 0x56, 0x00] 1 ∧
      ∃ image, resolve legacyRom = .ok image ∧
        image.directory.entries = [(.memInit, 0x110), (.sdrSequence, 0x120), (.ddrSequence, 0x130),
          (.initScripts, 0x140), (.macroIndex, 0x150), (.macros, 0x160), (.ioConditions, 0x180),
          (.ioFlagConditions, 0x190), (.pllLimits, 0x1a0)] ∧
        (bmpLayout legacyRom 1 2).Describes legacyRom image.directory ∧
          image.isLegacy = true ∧ image.isLegacy = image.directory.isLegacy := by
  have hbit : ∀ offset, ¬ legacyRom.Occurs [0xff, 0xb8, 0x42, 0x49, 0x54] offset :=
    (Rom.find?_eq_none_iff (by decide)).mp (by decide +kernel)
  have hbmp : legacyRom.FirstAt [0xff, 0x7f, 0x4e, 0x56, 0x00] 1 :=
    (Rom.find?_eq_some_iff (by decide)).mp (by decide +kernel)
  obtain ⟨hresolve, hbuilt, hlegacy⟩ := resolve_bmp_legacy
  obtain ⟨hsucceeds, hdescribed⟩ := (hresolve _ hbit).2 1 hbmp
  obtain ⟨image, hok⟩ := hsucceeds.mpr (by decide +kernel)
  obtain ⟨header, -, -, hmajor, hdescribes, -⟩ := hdescribed image hok
  have hbyte : legacyRom.byte (1 + 5) = .ok 2 := eq_ok_of_toOption (by decide +kernel)
  have htwo : header.major = 2 := Except.ok.inj (hmajor.symm.trans hbyte)
  have hread : (resolve legacyRom).toOption.map (·.directory.entries) =
      some image.directory.entries := by
    rw [hok]
    rfl
  have hentries : image.directory.entries = [(.memInit, 0x110), (.sdrSequence, 0x120),
      (.ddrSequence, 0x130), (.initScripts, 0x140), (.macroIndex, 0x150), (.macros, 0x160),
      (.ioConditions, 0x180), (.ioFlagConditions, 0x190), (.pllLimits, 0x1a0)] :=
    Option.some.inj (hread.symm.trans (by decide +kernel))
  have hget : image.directory.get? .memInit = some 0x110 := by
    show findEntry .memInit image.directory.entries = some 0x110
    rw [hentries]
    rfl
  exact ⟨hbit, hbmp, image, hok, hentries, htwo ▸ hdescribes,
    hlegacy legacyRom image hok .memInit (by decide) 0x110 hget, hbuilt image (.resolved hok)⟩

end Image

end RomScript
