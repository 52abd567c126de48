import RomScript.Image.Basic
import RomScript.Proofs.Image.Reads

/-!
# How a directory is loaded

A signature is found at its first place. From a header on, everything that is read is a
pointer to a table or the group count, so a part of a header is described by where these
stand. Loading a part succeeds exactly when all of them are inside the image, fails only by
a read that is not, and records the pointers other than zero. Parts that name different
tables add up.
-/

set_option autoImplicit false

namespace RomScript

namespace Rom

variable {rom : Rom} {pattern : List UInt8} {offset : Nat}

def Occurs (rom : Rom) (pattern : List UInt8) (offset : Nat) : Prop :=
  ∀ (k : Nat) (h : k < pattern.length), rom.byte (offset + k) = .ok pattern[k]

structure FirstAt (rom : Rom) (pattern : List UInt8) (offset : Nat) : Prop where
  occurs : rom.Occurs pattern offset
  first : ∀ before < offset, ¬ rom.Occurs pattern before

theorem matchesAt_iff : rom.matchesAt pattern offset = true ↔ rom.Occurs pattern offset := by
  induction pattern generalizing offset with
  | nil => simp [matchesAt, Occurs]
  | cons b rest ih =>
    simp only [matchesAt, Bool.and_eq_true, beq_iff_eq, ← byte_eq_ok_iff, ih, Occurs]
    constructor
    · rintro ⟨hb, hrest⟩ k hk
      cases k with
      | zero => exact hb
      | succ k =>
        have h := hrest k (Nat.lt_of_succ_lt_succ hk)
        rwa [Nat.add_assoc, Nat.add_comm 1 k] at h
    · intro h
      refine ⟨h 0 (Nat.succ_pos _), fun k hk => ?_⟩
      rw [Nat.add_assoc, Nat.add_comm 1 k]
      exact h (k + 1) (Nat.succ_lt_succ hk)

theorem Occurs.lt_length (h : rom.Occurs pattern offset) (hne : pattern ≠ []) :
    offset < rom.length := by
  have hzero := h 0 (List.length_pos_iff.mpr hne)
  exact (rom.exists_byte_iff offset).mp ⟨_, hzero⟩

theorem find?_eq_some_iff (hne : pattern ≠ []) :
    rom.find? pattern = some offset ↔ rom.FirstAt pattern offset := by
  rw [find?, if_neg (by simpa using hne), List.find?_range_eq_some]
  simp only [matchesAt_iff, List.mem_range, Bool.not_eq_true', ← Bool.not_eq_true]
  exact ⟨fun ⟨ho, _, hfirst⟩ => ⟨ho, hfirst⟩, fun ⟨ho, hfirst⟩ => ⟨ho, ho.lt_length hne, hfirst⟩⟩

theorem find?_eq_none_iff (hne : pattern ≠ []) :
    rom.find? pattern = none ↔ ∀ offset, ¬ rom.Occurs pattern offset := by
  rw [find?, if_neg (by simpa using hne), List.find?_eq_none]
  simp only [matchesAt_iff, List.mem_range]
  exact ⟨fun h offset ho => h offset (ho.lt_length hne) ho, fun h offset _ => h offset⟩

/-- Every failure is a read that is not all inside the image. -/
def FailsOutside {α : Type} (rom : Rom) (result : Except ImageError α) : Prop :=
  ∀ cause, result = .error cause → ∃ offset width, cause = rom.outside offset width

section FailsOutside

variable {α β : Type}

theorem failsOutside_ok (value : α) : rom.FailsOutside (.ok value) := by
  intro cause h
  cases h

theorem failsOutside_byte (offset : Nat) : rom.FailsOutside (rom.byte offset) := by
  intro cause h
  exact ⟨offset, 1, rom.byte_refused offset h⟩

theorem failsOutside_word (offset : Nat) : rom.FailsOutside (rom.word offset) := by
  intro cause h
  exact ⟨offset, 2, rom.word_refused offset h⟩

theorem FailsOutside.bind {first : Except ImageError α} {next : α → Except ImageError β}
    (hfirst : rom.FailsOutside first) (hnext : ∀ value, rom.FailsOutside (next value)) :
    rom.FailsOutside (first >>= next) := by
  cases first with
  | error cause =>
    intro cause' h
    cases h
    exact hfirst cause rfl
  | ok value => exact hnext value

end FailsOutside

end Rom

namespace Directory

/-- Where the pointers to tables stand, and where the group count does. -/
structure Layout where
  pointer : TableId → Nat → Prop
  groups : Nat → Prop

namespace Layout

variable {first second : Layout}

protected def empty : Layout := ⟨fun _ _ => False, fun _ => False⟩

def union (first second : Layout) : Layout where
  pointer table place := first.pointer table place ∨ second.pointer table place
  groups place := first.groups place ∨ second.groups place

def onlyIf (condition : Prop) (layout : Layout) : Layout where
  pointer table place := condition ∧ layout.pointer table place
  groups place := condition ∧ layout.groups place

def ofEntry (named : Option BitEntry) (layout : BitEntry → Layout) : Layout where
  pointer table place := ∃ entry, named = some entry ∧ (layout entry).pointer table place
  groups place := ∃ entry, named = some entry ∧ (layout entry).groups place

def single (table : TableId) (offset : Nat) : Layout where
  pointer other place := other = table ∧ place = offset
  groups _ := False

def block (tables : List TableId) (offset : Nat) : Layout where
  pointer table place := ∃ k, tables[k]? = some table ∧ place = offset + 2 * k
  groups _ := False

/-- Where the six pointers stand that either kind of header has side by side. -/
inductive BlockPointer (base : Nat) : TableId → Nat → Prop
  | initScripts : BlockPointer base .initScripts base
  | macroIndex : BlockPointer base .macroIndex (base + 2)
  | macros : BlockPointer base .macros (base + 4)
  | conditions : BlockPointer base .conditions (base + 6)
  | ioConditions : BlockPointer base .ioConditions (base + 8)
  | ioFlagConditions : BlockPointer base .ioFlagConditions (base + 10)

theorem block_pointerBlock_iff (base : Nat) (table : TableId) (place : Nat) :
    (block TableId.pointerBlock base).pointer table place ↔ BlockPointer base table place := by
  constructor
  · rintro ⟨k, hk, rfl⟩
    match k, hk with
    | 0, rfl => exact .initScripts
    | 1, rfl => exact .macroIndex
    | 2, rfl => exact .macros
    | 3, rfl => exact .conditions
    | 4, rfl => exact .ioConditions
    | 5, rfl => exact .ioFlagConditions
  · intro h
    cases h with
    | initScripts => exact ⟨0, rfl, rfl⟩
    | macroIndex => exact ⟨1, rfl, rfl⟩
    | macros => exact ⟨2, rfl, rfl⟩
    | conditions => exact ⟨3, rfl, rfl⟩
    | ioConditions => exact ⟨4, rfl, rfl⟩
    | ioFlagConditions => exact ⟨5, rfl, rfl⟩

structure Inside (layout : Layout) (rom : Rom) : Prop where
  pointer : ∀ table place, layout.pointer table place → place + 2 ≤ rom.length
  groups : ∀ place, layout.groups place → place + 1 ≤ rom.length

/-- No table is named by both, and not both have a group count. -/
structure Apart (first second : Layout) : Prop where
  pointer : ∀ table place place', first.pointer table place → ¬ second.pointer table place'
  groups : ∀ place place', first.groups place → ¬ second.groups place'

end Layout

/-- The directory holds what stands where the layout says, and nothing else. -/
structure Layout.Describes (layout : Layout) (rom : Rom) (directory : Directory) : Prop where
  get?_iff : ∀ table value, directory.get? table = some value ↔
    ∃ place, layout.pointer table place ∧ rom.word place = .ok value ∧ value ≠ 0
  ramGroups : ∀ place, layout.groups place → rom.byte place = .ok directory.ramGroups
  ramGroups_none : (∀ place, ¬ layout.groups place) → directory.ramGroups = 0

/-- Loading reads what the layout says and records the pointers other than zero. -/
structure Loads (rom : Rom) (layout : Layout) (load : Directory → Except ImageError Directory) :
    Prop where
  succeeds : ∀ before, (∃ after, load before = .ok after) ↔ layout.Inside rom
  fails : ∀ before, rom.FailsOutside (load before)
  get?_iff : ∀ before after, load before = .ok after →
    (∀ table place, layout.pointer table place → before.get? table = none) →
      ∀ table value, after.get? table = some value ↔
        (∃ place, layout.pointer table place ∧ rom.word place = .ok value ∧ value ≠ 0) ∨
          before.get? table = some value
  ramGroups : ∀ before after, load before = .ok after →
    ∀ place, layout.groups place → rom.byte place = .ok after.ramGroups
  ramGroups_none : ∀ before after, load before = .ok after →
    (∀ place, ¬ layout.groups place) → after.ramGroups = before.ramGroups
  isLegacy : ∀ before after, load before = .ok after → after.isLegacy = before.isLegacy

section Loads

variable {rom : Rom} {layout first second : Layout}
  {part next : Directory → Except ImageError Directory}

@[simp] theorem ramGroups_insert (directory : Directory) (table : TableId) (offset : UInt16) :
    (directory.insert table offset).ramGroups = directory.ramGroups := by
  unfold insert
  split <;> rfl

@[simp] theorem isLegacy_insert (directory : Directory) (table : TableId) (offset : UInt16) :
    (directory.insert table offset).isLegacy = directory.isLegacy := by
  unfold insert
  split <;> rfl

theorem load_eq_ok_iff {table : TableId} {offset : Nat} {before after : Directory} :
    load rom table offset before = .ok after ↔
      ∃ pointer, rom.word offset = .ok pointer ∧ before.insert table pointer = after := by
  simp only [load, bind_eq_ok_iff, pure_eq_ok_iff]

theorem Loads.congr (h : Loads rom first part)
    (hpointer : ∀ table place, first.pointer table place ↔ second.pointer table place)
    (hgroups : ∀ place, first.groups place ↔ second.groups place) : Loads rom second part := by
  have heq : first = second := by
    cases first
    cases second
    simp_all only [Layout.mk.injEq]
    exact ⟨funext fun t => funext fun p => propext (hpointer t p),
      funext fun p => propext (hgroups p)⟩
  exact heq ▸ h

theorem loads_nothing : Loads rom .empty .ok where
  succeeds := fun before => ⟨fun _ => ⟨nofun, nofun⟩, fun _ => ⟨before, rfl⟩⟩
  fails := fun before => Rom.failsOutside_ok before
  get?_iff := by
    intro before after h _ table value
    cases h
    simp [Layout.empty]
  ramGroups := nofun
  ramGroups_none := by
    intro before after h _
    cases h
    rfl
  isLegacy := by
    intro before after h
    cases h
    rfl

theorem loads_load (table : TableId) (offset : Nat) :
    Loads rom (.single table offset) (load rom table offset) where
  succeeds := by
    intro before
    simp only [load, exists_bind_eq_ok_iff, pure_eq_ok_iff, exists_eq', and_true,
      Rom.exists_word_iff]
    constructor
    · rintro h
      refine ⟨?_, fun _ => False.elim⟩
      rintro _ _ ⟨rfl, rfl⟩
      exact h
    · intro h
      exact h.pointer table offset ⟨rfl, rfl⟩
  fails := fun before => (Rom.failsOutside_word offset).bind fun _ => Rom.failsOutside_ok _
  get?_iff := by
    intro before after h hfresh other value
    obtain ⟨pointer, hpointer, rfl⟩ := load_eq_ok_iff.mp h
    have habsent := hfresh table offset ⟨rfl, rfl⟩
    rw [get?_insert]
    by_cases hother : table = other
    · subst hother
      simp only [Layout.single, habsent, hpointer, true_and, exists_eq_left, Except.ok.injEq,
        reduceCtorEq, or_false]
      by_cases hzero : pointer = 0
      · rw [if_neg fun hne => hne hzero]
        constructor
        · intro h
          cases h
        · rintro ⟨hp, hv⟩
          exact absurd (hp ▸ hzero) hv
      · rw [if_pos hzero, Option.some.injEq]
        exact (and_iff_left_of_imp fun hp => hp ▸ hzero).symm
    · simp [hother, Layout.single, Ne.symm hother]
  ramGroups := fun _ _ _ _ => False.elim
  ramGroups_none := by
    intro before after h _
    obtain ⟨pointer, -, rfl⟩ := load_eq_ok_iff.mp h
    exact ramGroups_insert before table pointer
  isLegacy := by
    intro before after h
    obtain ⟨pointer, -, rfl⟩ := load_eq_ok_iff.mp h
    exact isLegacy_insert before table pointer

theorem Loads.bind (hpart : Loads rom first part) (hnext : Loads rom second next)
    (hapart : first.Apart second) :
    Loads rom (first.union second) fun before => part before >>= next where
  succeeds := by
    intro before
    simp only [exists_bind_eq_ok_iff, hnext.succeeds, exists_and_right, hpart.succeeds]
    constructor
    · rintro ⟨hf, hs⟩
      exact ⟨fun t p h => h.elim (hf.pointer t p) (hs.pointer t p),
        fun p h => h.elim (hf.groups p) (hs.groups p)⟩
    · intro h
      exact ⟨⟨fun t p hp => h.pointer t p (.inl hp), fun p hp => h.groups p (.inl hp)⟩,
        ⟨fun t p hp => h.pointer t p (.inr hp), fun p hp => h.groups p (.inr hp)⟩⟩
  fails := fun before => (hpart.fails before).bind hnext.fails
  get?_iff := by
    intro before after h hfresh table value
    obtain ⟨middle, hm, ha⟩ := bind_eq_ok_iff.mp h
    have hfirst := hpart.get?_iff before middle hm fun t p hp => hfresh t p (.inl hp)
    -- a table of the second part is new to the first one too
    have hnew : ∀ t p, second.pointer t p → middle.get? t = none := by
      intro t p hp
      refine Option.eq_none_iff_forall_ne_some.mpr fun v hv => ?_
      obtain ⟨place, hplace, -⟩ | hold := (hfirst t v).mp hv
      · exact hapart.pointer t place p hplace hp
      · simp [hfresh t p (.inr hp)] at hold
    rw [hnext.get?_iff middle after ha hnew, hfirst]
    simp only [Layout.union, or_and_right, exists_or]
    rw [or_left_comm, or_assoc]
  ramGroups := by
    intro before after h place hplace
    obtain ⟨middle, hm, ha⟩ := bind_eq_ok_iff.mp h
    obtain hplace | hplace := hplace
    · rw [hnext.ramGroups_none middle after ha fun p => hapart.groups place p hplace]
      exact hpart.ramGroups before middle hm place hplace
    · exact hnext.ramGroups middle after ha place hplace
  ramGroups_none := by
    intro before after h hnone
    obtain ⟨middle, hm, ha⟩ := bind_eq_ok_iff.mp h
    rw [hnext.ramGroups_none middle after ha fun p hp => hnone p (.inr hp),
      hpart.ramGroups_none before middle hm fun p hp => hnone p (.inl hp)]
  isLegacy := by
    intro before after h
    obtain ⟨middle, hm, ha⟩ := bind_eq_ok_iff.mp h
    rw [hnext.isLegacy middle after ha, hpart.isLegacy before middle hm]

theorem loads_loadAll {tables : List TableId} (hnodup : tables.Nodup) (offset : Nat) :
    Loads rom (.block tables offset) (loadAll rom tables offset) := by
  induction tables generalizing offset with
  | nil => exact loads_nothing.congr (by simp [Layout.block, Layout.empty]) fun _ => Iff.rfl
  | cons table rest ih =>
    obtain ⟨hnew, hrest⟩ := List.nodup_cons.mp hnodup
    have hapart : (Layout.single table offset).Apart (.block rest (offset + 2)) := by
      refine ⟨?_, nofun⟩
      rintro _ _ _ ⟨rfl, rfl⟩ ⟨k, hk, -⟩
      exact hnew (List.mem_of_getElem? hk)
    refine ((loads_load table offset).bind (ih hrest (offset + 2)) hapart).congr ?_ (by
      simp [Layout.union, Layout.block, Layout.single])
    intro t place
    constructor
    · rintro (⟨rfl, rfl⟩ | ⟨k, hk, rfl⟩)
      · exact ⟨0, rfl, rfl⟩
      · exact ⟨k + 1, hk, by omega⟩
    · rintro ⟨k, hk, rfl⟩
      cases k with
      | zero => exact .inl ⟨(Option.some.inj hk).symm, rfl⟩
      | succ k => exact .inr ⟨k, hk, by omega⟩

theorem Loads.ite {condition : Prop} [Decidable condition]
    (hpart : condition → Loads rom first part) (hnext : ¬ condition → Loads rom second next) :
    Loads rom ((first.onlyIf condition).union (second.onlyIf ¬ condition)) fun before =>
      if condition then part before else next before := by
  by_cases hc : condition
  · simp only [hc, if_true]
    exact (hpart hc).congr (by simp [Layout.union, Layout.onlyIf])
      (by simp [Layout.union, Layout.onlyIf])
  · simp only [hc, if_false]
    exact (hnext hc).congr (by simp [Layout.union, Layout.onlyIf])
      (by simp [Layout.union, Layout.onlyIf])

theorem Loads.onlyIf {condition : Prop} [Decidable condition]
    (h : condition → Loads rom layout part) :
    Loads rom (layout.onlyIf condition) fun before =>
      if condition then part before else .ok before :=
  (Loads.ite h fun _ => loads_nothing).congr
    (by simp [Layout.union, Layout.onlyIf, Layout.empty])
    (by simp [Layout.union, Layout.onlyIf, Layout.empty])

theorem Loads.unless {condition : Prop} [Decidable condition]
    (h : ¬ condition → Loads rom layout part) :
    Loads rom (layout.onlyIf ¬ condition) fun before =>
      if condition then .ok before else part before :=
  (Loads.ite (fun _ => loads_nothing) h).congr
    (by simp [Layout.union, Layout.onlyIf, Layout.empty])
    (by simp [Layout.union, Layout.onlyIf, Layout.empty])

theorem Loads.ofEntry {named : Option BitEntry} {layout : BitEntry → Layout}
    {part : BitEntry → Directory → Except ImageError Directory}
    (h : ∀ entry, Loads rom (layout entry) (part entry)) :
    Loads rom (.ofEntry named layout) fun before =>
      match named with
      | none => .ok before
      | some entry => part entry before := by
  cases named with
  | none =>
    exact loads_nothing.congr (by simp [Layout.ofEntry, Layout.empty])
      (by simp [Layout.ofEntry, Layout.empty])
  | some entry => exact (h entry).congr (by simp [Layout.ofEntry]) (by simp [Layout.ofEntry])

theorem Loads.describes (h : Loads rom layout part) {before after : Directory}
    (htables : ∀ table, before.get? table = none) (hgroups : before.ramGroups = 0)
    (hok : part before = .ok after) : layout.Describes rom after where
  get?_iff := by
    intro table value
    rw [h.get?_iff before after hok fun t _ _ => htables t]
    simp [htables table]
  ramGroups := h.ramGroups before after hok
  ramGroups_none := fun hnone => (h.ramGroups_none before after hok hnone).trans hgroups

end Loads

end Directory

end RomScript
