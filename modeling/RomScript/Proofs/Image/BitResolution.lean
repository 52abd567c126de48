import RomScript.Proofs.Image.Loading

/-!
# Resolving a BIT image

A BIT header lists entries at equal distances, and of each kind only the first one counts.
What the directory holds is said by the bytes alone: which entry comes first of its kind,
and at which places behind its target the pointers and the group count stand. Resolution
takes all of them or fails, and it never turns to the other kind of header.
-/

set_option autoImplicit false

namespace RomScript

namespace Rom

variable {rom : Rom} {start k place : Nat} {id : UInt8} {entry : BitEntry}

structure HoldsEntry (rom : Rom) (place : Nat) (entry : BitEntry) : Prop where
  id : rom.byte place = .ok entry.id
  version : rom.byte (place + 1) = .ok entry.version
  length : rom.word (place + 2) = .ok entry.length
  offset : rom.word (place + 4) = .ok entry.offset

/-- Entry `k` of the header at `start` stands at `place`. With a stride below the size of an
entry there is none. -/
def EntryPlace (rom : Rom) (start k place : Nat) : Prop :=
  ∃ stride count, rom.byte (start + 9) = .ok stride ∧ rom.byte (start + 10) = .ok count ∧
    6 ≤ stride.toNat ∧ k < count.toNat ∧ place = start + 12 + k * stride.toNat

def EntryAt (rom : Rom) (start k : Nat) (entry : BitEntry) : Prop :=
  ∃ place, rom.EntryPlace start k place ∧ rom.HoldsEntry place entry

/-- The entry is the first one of its kind in the header at `start`. -/
def FirstEntry (rom : Rom) (start : Nat) (id : UInt8) (entry : BitEntry) : Prop :=
  ∃ k, rom.EntryAt start k entry ∧ entry.id = id ∧
    ∀ before < k, ∀ other, rom.EntryAt start before other → other.id ≠ id

end Rom

namespace BitEntry

variable {rom : Rom} {stride count offset k : Nat} {entries : List BitEntry} {entry : BitEntry}

theorem read_eq_ok_iff : read rom offset = .ok entry ↔ rom.HoldsEntry offset entry := by
  simp only [read, bind_eq_ok_iff, pure_eq_ok_iff]
  constructor
  · rintro ⟨id, hid, version, hversion, length, hlength, target, htarget, rfl⟩
    exact ⟨hid, hversion, hlength, htarget⟩
  · rintro ⟨hid, hversion, hlength, hoffset⟩
    exact ⟨_, hid, _, hversion, _, hlength, _, hoffset, rfl⟩

theorem exists_read_iff : (∃ entry, read rom offset = .ok entry) ↔ offset + 6 ≤ rom.length := by
  simp only [read, exists_bind_eq_ok_iff, pure_eq_ok_iff, exists_eq', and_true, exists_and_right,
    Rom.exists_byte_iff, Rom.exists_word_iff]
  omega

theorem failsOutside_read : rom.FailsOutside (read rom offset) :=
  (Rom.failsOutside_byte _).bind fun _ => (Rom.failsOutside_byte _).bind fun _ =>
    (Rom.failsOutside_word _).bind fun _ => (Rom.failsOutside_word _).bind fun _ =>
      Rom.failsOutside_ok _

theorem exists_readAll_iff : (∃ entries, readAll rom stride count offset = .ok entries) ↔
    ∀ k < count, offset + k * stride + 6 ≤ rom.length := by
  induction count generalizing offset with
  | zero => simp [readAll]
  | succ count ih =>
    simp only [readAll, exists_bind_eq_ok_iff, pure_eq_ok_iff, exists_eq', and_true,
      exists_and_right, exists_read_iff, ih]
    constructor
    · rintro ⟨hfirst, hrest⟩ k hk
      cases k with
      | zero => simpa using hfirst
      | succ k =>
        have h := hrest k (Nat.lt_of_succ_lt_succ hk)
        rw [Nat.succ_mul]
        omega
    · intro h
      refine ⟨by simpa using h 0 (Nat.succ_pos _), fun k hk => ?_⟩
      have hnext := h (k + 1) (Nat.succ_lt_succ hk)
      rw [Nat.succ_mul] at hnext
      omega

theorem failsOutside_readAll : rom.FailsOutside (readAll rom stride count offset) := by
  induction count generalizing offset with
  | zero => exact Rom.failsOutside_ok []
  | succ count ih =>
    exact failsOutside_read.bind fun _ => ih.bind fun _ => Rom.failsOutside_ok _

theorem getElem?_readAll (h : readAll rom stride count offset = .ok entries) :
    entries[k]? = some entry ↔ k < count ∧ rom.HoldsEntry (offset + k * stride) entry := by
  induction count generalizing offset entries k with
  | zero =>
    cases h
    simp
  | succ count ih =>
    obtain ⟨first, hfirst, h⟩ := bind_eq_ok_iff.mp h
    obtain ⟨rest, hrest, h⟩ := bind_eq_ok_iff.mp h
    cases h
    cases k with
    | zero =>
      rw [List.getElem?_cons_zero, Option.some.injEq, Nat.zero_mul, ← read_eq_ok_iff,
        Nat.add_zero offset, hfirst, Except.ok.injEq]
      exact (and_iff_right (Nat.succ_pos count)).symm
    | succ k =>
      have hplace : offset + (k + 1) * stride = offset + stride + k * stride := by
        rw [Nat.succ_mul]
        omega
      rw [List.getElem?_cons_succ, ih hrest, hplace, Nat.succ_lt_succ_iff]

end BitEntry

namespace BitHeader

variable {rom : Rom} {start k : Nat} {header : BitHeader} {id : UInt8} {entry : BitEntry}

def readEntries (rom : Rom) (start : Nat) (stride count : UInt8) :
    Except ImageError (List BitEntry) :=
  if BitEntry.size ≤ stride.toNat then
    BitEntry.readAll rom stride.toNat count.toNat (start + entriesOffset)
  else .ok []

theorem read_eq (rom : Rom) (start : Nat) :
    read rom start = do
      let version ← rom.word (start + 6)
      let headerLength ← rom.byte (start + 8)
      let entryLength ← rom.byte (start + 9)
      let count ← rom.byte (start + 10)
      let entries ← readEntries rom start entryLength count
      return { offset := start, version, headerLength, entryLength, entries } := by
  simp only [read, readEntries]
  refine bind_congr fun version => bind_congr fun headerLength => bind_congr fun entryLength =>
    bind_congr fun count => ?_
  split <;> rfl

theorem exists_readEntries_iff {stride count : UInt8} :
    (∃ entries, readEntries rom start stride count = .ok entries) ↔
      (6 ≤ stride.toNat → ∀ k < count.toNat, start + 12 + k * stride.toNat + 6 ≤ rom.length) := by
  unfold readEntries
  split
  · rename_i hstride
    rw [BitEntry.exists_readAll_iff]
    exact ⟨fun h _ => h, fun h => h hstride⟩
  · rename_i hstride
    exact ⟨fun _ h => absurd h hstride, fun _ => ⟨[], rfl⟩⟩

theorem failsOutside_readEntries {stride count : UInt8} :
    rom.FailsOutside (readEntries rom start stride count) := by
  unfold readEntries
  split
  · exact BitEntry.failsOutside_readAll
  · exact Rom.failsOutside_ok []

theorem getElem?_readEntries {stride count : UInt8} {entries : List BitEntry}
    (h : readEntries rom start stride count = .ok entries) :
    entries[k]? = some entry ↔ 6 ≤ stride.toNat ∧ k < count.toNat ∧
      rom.HoldsEntry (start + 12 + k * stride.toNat) entry := by
  unfold readEntries at h
  split at h
  · rename_i hstride
    rw [BitEntry.getElem?_readAll h]
    exact (and_iff_right hstride).symm
  · rename_i hstride
    cases h
    exact ⟨nofun, fun h => absurd h.1 hstride⟩

theorem of_read (h : read rom start = .ok header) : header.offset = start ∧
    ∃ stride count, rom.byte (start + 9) = .ok stride ∧ rom.byte (start + 10) = .ok count ∧
      readEntries rom start stride count = .ok header.entries := by
  rw [read_eq] at h
  obtain ⟨version, -, h⟩ := bind_eq_ok_iff.mp h
  obtain ⟨headerLength, -, h⟩ := bind_eq_ok_iff.mp h
  obtain ⟨stride, hstride, h⟩ := bind_eq_ok_iff.mp h
  obtain ⟨count, hcount, h⟩ := bind_eq_ok_iff.mp h
  obtain ⟨entries, hentries, h⟩ := bind_eq_ok_iff.mp h
  cases h
  exact ⟨rfl, stride, count, hstride, hcount, hentries⟩

theorem exists_read_iff : (∃ header, read rom start = .ok header) ↔
    start + 11 ≤ rom.length ∧
      ∀ k place, rom.EntryPlace start k place → place + 6 ≤ rom.length := by
  simp only [read_eq, exists_bind_eq_ok_iff, pure_eq_ok_iff, exists_eq', and_true,
    exists_and_right, Rom.exists_byte_iff, Rom.exists_word_iff, exists_readEntries_iff]
  constructor
  · rintro ⟨-, -, stride, hstride, count, hcount, hentries⟩
    have hlast := (rom.exists_byte_iff _).mp ⟨count, hcount⟩
    refine ⟨hlast, ?_⟩
    rintro k place ⟨stride', count', hstride', hcount', hsize, hk, rfl⟩
    cases hstride.symm.trans hstride'
    cases hcount.symm.trans hcount'
    exact hentries hsize k hk
  · rintro ⟨hlength, hplaces⟩
    obtain ⟨stride, hstride⟩ := (rom.exists_byte_iff (start + 9)).mpr (by omega)
    obtain ⟨count, hcount⟩ := (rom.exists_byte_iff (start + 10)).mpr (by omega)
    exact ⟨by omega, by omega, stride, hstride, count, hcount, fun hsize k hk =>
      hplaces k _ ⟨stride, count, hstride, hcount, hsize, hk, rfl⟩⟩

theorem failsOutside_read : rom.FailsOutside (read rom start) := by
  rw [read_eq]
  exact (Rom.failsOutside_word _).bind fun _ => (Rom.failsOutside_byte _).bind fun _ =>
    (Rom.failsOutside_byte _).bind fun _ => (Rom.failsOutside_byte _).bind fun _ =>
      failsOutside_readEntries.bind fun _ => Rom.failsOutside_ok _

theorem getElem?_entries (h : read rom start = .ok header) :
    header.entries[k]? = some entry ↔ rom.EntryAt start k entry := by
  obtain ⟨-, stride, count, hstride, hcount, hentries⟩ := of_read h
  rw [getElem?_readEntries hentries]
  constructor
  · rintro ⟨hsize, hk, hholds⟩
    exact ⟨_, ⟨stride, count, hstride, hcount, hsize, hk, rfl⟩, hholds⟩
  · rintro ⟨_, ⟨stride', count', hstride', hcount', hsize, hk, rfl⟩, hholds⟩
    cases hstride.symm.trans hstride'
    cases hcount.symm.trans hcount'
    exact ⟨hsize, hk, hholds⟩

theorem entry?_eq_some_iff (h : read rom start = .ok header) :
    header.entry? id = some entry ↔ rom.FirstEntry start id entry := by
  have hat {k : Nat} {e : BitEntry} : header.entries[k]? = some e ↔ rom.EntryAt start k e :=
    getElem?_entries h
  unfold entry?
  rw [List.find?_eq_some_iff_getElem]
  simp only [beq_iff_eq, Rom.FirstEntry, Bool.not_eq_true', beq_eq_false_iff_ne]
  constructor
  · rintro ⟨hid, k, hk, hentry, hfirst⟩
    have hplace := hat.mp (List.getElem?_eq_some_iff.mpr ⟨hk, hentry⟩)
    refine ⟨k, hplace, hid, fun before hb other ho => ?_⟩
    obtain ⟨hlt, rfl⟩ := List.getElem?_eq_some_iff.mp (hat.mpr ho)
    exact hfirst before hb
  · rintro ⟨k, hentry, hid, hfirst⟩
    obtain ⟨hk, rfl⟩ := List.getElem?_eq_some_iff.mp (hat.mpr hentry)
    exact ⟨hid, k, hk, rfl, fun before hb =>
      hfirst before hb _ (hat.mp (List.getElem?_eq_getElem (by omega)))⟩

end BitHeader

namespace Directory

/-- Where a BIT header has its pointers, given the entry it names for each kind. -/
inductive BitPointer (named : UInt8 → BitEntry → Prop) : TableId → Nat → Prop
  | block {entry : BitEntry} {table : TableId} {place : Nat} (hentry : named 0x49 entry)
      (hlength : 12 ≤ entry.length.toNat)
      (hblock : Layout.BlockPointer entry.offset.toNat table place) :
      BitPointer named table place
  | xlat {entry : BitEntry} (hentry : named 0x49 entry) (hlength : 16 ≤ entry.length.toNat) :
      BitPointer named .xlat (entry.offset.toNat + 14)
  | strapsFirst {entry : BitEntry} (hentry : named 0x4d entry) (hversion : entry.version = 1)
      (hlength : 5 ≤ entry.length.toNat) :
      BitPointer named .ramRestrict (entry.offset.toNat + 3)
  | strapsSecond {entry : BitEntry} (hentry : named 0x4d entry) (hversion : entry.version = 2)
      (hlength : 3 ≤ entry.length.toNat) :
      BitPointer named .ramRestrict (entry.offset.toNat + 1)
  | limits {entry : BitEntry} (hentry : named 0x43 entry) (hlength : 10 ≤ entry.length.toNat) :
      BitPointer named .pllLimits (entry.offset.toNat + 8)

/-- Where a BIT header has its group count, in the two versions of its entry. -/
inductive BitGroups (named : UInt8 → BitEntry → Prop) : Nat → Prop
  | first {entry : BitEntry} (hentry : named 0x4d entry) (hversion : entry.version = 1)
      (hlength : 5 ≤ entry.length.toNat) : BitGroups named (entry.offset.toNat + 2)
  | second {entry : BitEntry} (hentry : named 0x4d entry) (hversion : entry.version = 2)
      (hlength : 3 ≤ entry.length.toNat) : BitGroups named entry.offset.toNat

def bitLayout (named : UInt8 → BitEntry → Prop) : Layout := ⟨BitPointer named, BitGroups named⟩

section Parts

variable {rom : Rom}

def initLayout (entry : BitEntry) : Layout :=
  ((Layout.block TableId.pointerBlock entry.offset.toNat).union
    ((Layout.single .xlat (entry.offset.toNat + 14)).onlyIf
      ¬ entry.length.toNat < 16)).onlyIf ¬ entry.length.toNat < 12

def strapsLayout (offset : Nat) : Layout :=
  (⟨fun _ _ => False, fun place => place = offset⟩ : Layout).union
    (.single .ramRestrict (offset + 1))

def memoryLayout (entry : BitEntry) : Layout :=
  ((strapsLayout (entry.offset.toNat + 2)).onlyIf
      (entry.version = 1 ∧ 5 ≤ entry.length.toNat)).union
    (((strapsLayout entry.offset.toNat).onlyIf
        (entry.version = 2 ∧ 3 ≤ entry.length.toNat)).onlyIf
      ¬ (entry.version = 1 ∧ 5 ≤ entry.length.toNat))

def clockLayout (entry : BitEntry) : Layout :=
  (Layout.single .pllLimits (entry.offset.toNat + 8)).onlyIf ¬ entry.length.toNat < 10

theorem loads_loadInit (header : BitHeader) :
    Loads rom (.ofEntry (header.entry? 0x49) initLayout) (loadInit rom header) := by
  refine Loads.ofEntry fun entry => ?_
  have hxlat : Loads rom ((Layout.single .xlat (entry.offset.toNat + 14)).onlyIf
      ¬ entry.length.toNat < 16) fun before =>
        if entry.length.toNat < 16 then .ok before
        else load rom .xlat (entry.offset.toNat + 14) before :=
    Loads.unless fun _ => loads_load _ _
  refine Loads.unless fun _ => (loads_loadAll (by decide) _).bind hxlat ⟨?_, nofun⟩
  rintro table place place' ⟨k, hk, -⟩ ⟨-, rfl, -⟩
  exact absurd (List.mem_of_getElem? hk) (by decide)

theorem loads_groups (offset : Nat) :
    Loads rom ⟨fun _ _ => False, fun place => place = offset⟩ fun before =>
      rom.byte offset >>= fun ramGroups => pure { before with ramGroups } where
  succeeds := by
    intro before
    simp only [exists_bind_eq_ok_iff, pure_eq_ok_iff, exists_eq', and_true, Rom.exists_byte_iff]
    exact ⟨fun h => ⟨fun _ _ => False.elim, fun _ hp => hp ▸ h⟩, fun h => h.groups offset rfl⟩
  fails := fun _ => (Rom.failsOutside_byte offset).bind fun _ => Rom.failsOutside_ok _
  get?_iff := by
    intro before after h _ table value
    obtain ⟨ramGroups, -, h⟩ := bind_eq_ok_iff.mp h
    cases h
    simp [get?]
  ramGroups := by
    rintro before after h _ rfl
    obtain ⟨ramGroups, hgroups, h⟩ := bind_eq_ok_iff.mp h
    cases h
    exact hgroups
  ramGroups_none := fun _ _ _ hnone => absurd rfl (hnone offset)
  isLegacy := by
    intro before after h
    obtain ⟨ramGroups, -, h⟩ := bind_eq_ok_iff.mp h
    cases h
    rfl

theorem loads_straps (offset : Nat) :
    Loads rom (strapsLayout offset) fun before => rom.byte offset >>= fun ramGroups =>
      load rom .ramRestrict (offset + 1) { before with ramGroups } := by
  have h : Loads rom (strapsLayout offset) _ :=
    (loads_groups offset).bind (loads_load .ramRestrict (offset + 1)) ⟨nofun, fun _ _ _ => id⟩
  simpa only [bind_assoc, pure_bind] using h

theorem loads_loadMemory (header : BitHeader) :
    Loads rom (.ofEntry (header.entry? 0x4d) memoryLayout) (loadMemory rom header) :=
  Loads.ofEntry fun entry => Loads.ite (fun _ => loads_straps (entry.offset.toNat + 2)) fun _ =>
    Loads.onlyIf fun _ => loads_straps entry.offset.toNat

theorem loads_loadClock (header : BitHeader) :
    Loads rom (.ofEntry (header.entry? 0x43) clockLayout) (loadClock rom header) :=
  Loads.ofEntry fun _ => Loads.unless fun _ => loads_load _ _

theorem ramRestrict_of_memoryLayout {entry : BitEntry} {table : TableId} {place : Nat}
    (h : (memoryLayout entry).pointer table place) : table = .ramRestrict := by
  rcases h with ⟨-, h | ⟨rfl, -⟩⟩ | ⟨-, -, h | ⟨rfl, -⟩⟩
  · exact h.elim
  · rfl
  · exact h.elim
  · rfl

theorem mem_of_initLayout {entry : BitEntry} {table : TableId} {place : Nat}
    (h : (initLayout entry).pointer table place) :
    table ∈ TableId.xlat :: TableId.pointerBlock := by
  obtain ⟨-, ⟨k, hk, -⟩ | ⟨-, rfl, -⟩⟩ := h
  · exact List.mem_cons_of_mem _ (List.mem_of_getElem? hk)
  · exact List.mem_cons_self

/-- The three parts of a BIT directory name different tables, so they add up. -/
theorem loads_parts (header : BitHeader) :
    Loads rom ((Layout.ofEntry (header.entry? 0x49) initLayout).union
        ((Layout.ofEntry (header.entry? 0x4d) memoryLayout).union
          (.ofEntry (header.entry? 0x43) clockLayout))) fun before =>
      loadInit rom header before >>= fun directory =>
        loadMemory rom header directory >>= loadClock rom header := by
  refine (loads_loadInit header).bind
    ((loads_loadMemory header).bind (loads_loadClock header) ⟨?_, ?_⟩) ⟨?_, ?_⟩
  · rintro table place place' ⟨entry, -, hm⟩ ⟨entry', -, -, rfl, -⟩
    cases ramRestrict_of_memoryLayout hm
  · rintro place place' - ⟨entry, -, -, h⟩
    exact h
  · rintro table place place' ⟨entry, -, hi⟩ (⟨entry', -, hm⟩ | ⟨entry', -, -, rfl, -⟩)
    · cases ramRestrict_of_memoryLayout hm
      exact absurd (mem_of_initLayout hi) (by decide)
    · exact absurd (mem_of_initLayout hi) (by decide)
  · rintro place place' ⟨entry, -, -, h | ⟨-, h⟩⟩ -
    · exact h
    · exact h

theorem not_first_of_second {entry : BitEntry} (h : entry.version = 2) :
    ¬ (entry.version = 1 ∧ 5 ≤ entry.length.toNat) := by
  rw [h]
  exact fun h => absurd h.1 (by decide)

theorem loads_bit (header : BitHeader) :
    Loads rom (bitLayout fun id entry => header.entry? id = some entry) fun before =>
      loadInit rom header before >>= fun directory =>
        loadMemory rom header directory >>= loadClock rom header := by
  refine (loads_parts header).congr ?_ ?_
  · intro table place
    constructor
    · rintro (⟨entry, he, hl, hblock | ⟨hl', rfl, rfl⟩⟩ | ⟨entry, he, hm⟩ |
        ⟨entry, he, hl, rfl, rfl⟩)
      · exact .block he (by omega) ((Layout.block_pointerBlock_iff _ _ _).mp hblock)
      · exact .xlat he (by omega)
      · rcases hm with ⟨⟨hv, hl⟩, h | ⟨rfl, rfl⟩⟩ | ⟨-, ⟨hv, hl⟩, h | ⟨rfl, rfl⟩⟩
        · exact h.elim
        · exact .strapsFirst he hv hl
        · exact h.elim
        · exact .strapsSecond he hv hl
      · exact .limits he (by omega)
    · intro h
      cases h with
      | block he hl hblock =>
        exact .inl ⟨_, he, by omega, .inl ((Layout.block_pointerBlock_iff _ _ _).mpr hblock)⟩
      | xlat he hl => exact .inl ⟨_, he, by omega, .inr ⟨by omega, rfl, rfl⟩⟩
      | strapsFirst he hv hl => exact .inr (.inl ⟨_, he, .inl ⟨⟨hv, hl⟩, .inr ⟨rfl, rfl⟩⟩⟩)
      | strapsSecond he hv hl =>
        exact .inr (.inl ⟨_, he, .inr ⟨not_first_of_second hv, ⟨hv, hl⟩, .inr ⟨rfl, rfl⟩⟩⟩)
      | limits he hl => exact .inr (.inr ⟨_, he, by omega, rfl, rfl⟩)
  · intro place
    constructor
    · rintro (⟨entry, he, -, h | ⟨-, h⟩⟩ | ⟨entry, he, hm⟩ | ⟨entry, he, -, h⟩)
      · exact h.elim
      · exact h.elim
      · rcases hm with ⟨⟨hv, hl⟩, rfl | h⟩ | ⟨-, ⟨hv, hl⟩, rfl | h⟩
        · exact .first he hv hl
        · exact h.elim
        · exact .second he hv hl
        · exact h.elim
      · exact h.elim
    · intro h
      cases h with
      | first he hv hl => exact .inr (.inl ⟨_, he, .inl ⟨⟨hv, hl⟩, .inl rfl⟩⟩)
      | second he hv hl =>
        exact .inr (.inl ⟨_, he, .inr ⟨not_first_of_second hv, ⟨hv, hl⟩, .inl rfl⟩⟩)

theorem loads_ofBit {start : Nat} {header : BitHeader} (h : BitHeader.read rom start = .ok header) :
    Loads rom (bitLayout (rom.FirstEntry start)) fun before =>
      loadInit rom header before >>= fun directory =>
        loadMemory rom header directory >>= loadClock rom header := by
  have hnamed : (fun id entry => header.entry? id = some entry) = rom.FirstEntry start :=
    funext fun id => funext fun entry => propext (BitHeader.entry?_eq_some_iff h)
  exact hnamed ▸ loads_bit header

end Parts

end Directory

namespace Image

open Directory

variable {rom : Rom} {start : Nat}

theorem resolve_eq_of_bit (h : rom.FirstAt bitSignature start) :
    resolve rom = do
      let header ← BitHeader.read rom start
      let directory ← ofBit rom header
      return { rom, format := .bit header, directory } := by
  rw [resolve, (Rom.find?_eq_some_iff (by decide)).mpr h]

/-- An image with a BIT signature resolves exactly when its header and everything the header
names is inside, and then to what stands at the places named. It fails only by a read, never
for want of a header. -/
theorem resolve_bit (h : rom.FirstAt [0xff, 0xb8, 0x42, 0x49, 0x54] start) :
    ((∃ image, resolve rom = .ok image) ↔
      start + 11 ≤ rom.length ∧
        (∀ k place, rom.EntryPlace start k place → place + 6 ≤ rom.length) ∧
          (bitLayout (rom.FirstEntry start)).Inside rom) ∧
    rom.FailsOutside (resolve rom) ∧
    ∀ image, resolve rom = .ok image →
      image.rom = rom ∧ (∃ header, image.format = .bit header ∧ header.offset = start) ∧
        (bitLayout (rom.FirstEntry start)).Describes rom image.directory ∧
          image.isLegacy = false ∧ image.directory.isLegacy = false := by
  rw [resolve_eq_of_bit h]
  refine ⟨?_, ?_, ?_⟩
  · simp only [exists_bind_eq_ok_iff, pure_eq_ok_iff, exists_eq', and_true]
    rw [← and_assoc, ← BitHeader.exists_read_iff]
    constructor
    · rintro ⟨header, hheader, hdirectory⟩
      exact ⟨⟨header, hheader⟩, ((loads_ofBit hheader).succeeds empty).mp hdirectory⟩
    · rintro ⟨⟨header, hheader⟩, hinside⟩
      exact ⟨header, hheader, ((loads_ofBit hheader).succeeds empty).mpr hinside⟩
  · exact BitHeader.failsOutside_read.bind fun header =>
      ((loads_bit header).fails empty).bind fun _ => Rom.failsOutside_ok _
  · intro image hok
    obtain ⟨header, hheader, hok⟩ := bind_eq_ok_iff.mp hok
    obtain ⟨directory, hdirectory, hok⟩ := bind_eq_ok_iff.mp hok
    cases hok
    have hloads := loads_ofBit hheader
    exact ⟨rfl, ⟨header, rfl, (BitHeader.of_read hheader).1⟩,
      hloads.describes (fun _ => rfl) rfl hdirectory, rfl,
      hloads.isLegacy empty directory hdirectory⟩

/-- A header behind the first byte, with a stride of seven and every part that one can have. One
pointer of the six is zero, and a second entry of a kind leads nowhere. -/
def fullRom : Rom where
  bytes := #[0, 0xff, 0xb8, 0x42, 0x49, 0x54, 0, 0, 1, 12, 7, 4, 0,
    0x49, 1, 16, 0, 41, 0, 0, 0x4d, 2, 3, 0, 57, 0, 0, 0x43, 1, 10, 0, 52, 0, 0,
    0x49, 1, 16, 0, 0xff, 0xff, 0,
    0x10, 0x01, 0x20, 0x01, 0x30, 0x01, 0, 0, 0x50, 0x01, 0x60, 0x01, 0, 0, 0x70, 0x01,
    4, 0x80, 0x01, 0x90, 0x01]

theorem resolve_fullRom : fullRom.FirstAt [0xff, 0xb8, 0x42, 0x49, 0x54] 1 ∧
    ∃ image, resolve fullRom = .ok image ∧
      image.directory.entries = [(.initScripts, 0x110), (.macroIndex, 0x120), (.macros, 0x130),
        (.ioConditions, 0x150), (.ioFlagConditions, 0x160), (.xlat, 0x170), (.ramRestrict, 0x180),
        (.pllLimits, 0x190)] ∧
      image.directory.ramGroups = 4 ∧
      (bitLayout (fullRom.FirstEntry 1)).Describes fullRom image.directory := by
  have hfirst : fullRom.FirstAt [0xff, 0xb8, 0x42, 0x49, 0x54] 1 :=
    (Rom.find?_eq_some_iff (by decide)).mp (by decide)
  obtain ⟨-, -, hresolved⟩ := resolve_bit hfirst
  have hok : resolve fullRom = .ok _ := rfl
  exact ⟨hfirst, _, hok, rfl, rfl, (hresolved _ hok).2.2.1⟩

end Image

end RomScript
