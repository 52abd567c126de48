import Mathlib.Data.List.Forall2
import RomScript.Proofs.Batch.Attribution
import RomScript.Proofs.Engine.Endings

/-!
# The table of scripts

The pointer table ends at its first zero, where the image ends, or behind 256 pointers. Read as a
whole it has the pointers that are read one by one from there, in the same order, so the scripts
that a batch of all scripts runs are those that are selected by their index. A listed script is at
no zero offset, so it is a script, however it ends.
-/

set_option autoImplicit false

namespace RomScript

namespace Image

variable (image : Image)

theorem word_of_ge {offset : Nat} (h : ¬offset + 2 ≤ image.length) :
    image.word offset = .error (.outOfBounds offset 2 image.length) := by
  cases hw : image.word offset with
  | ok pointer => exact absurd ((image.exists_word_iff offset).mp ⟨pointer, hw⟩) h
  | error cause => exact congrArg Except.error (image.rom.word_refused offset hw)

/-- The table has no pointer at the index, nor any behind it. -/
def EndsTable (base index : Nat) : Prop :=
  index = 256 ∨ ¬base + 2 * index + 2 ≤ image.length ∨ image.word (base + 2 * index) = .ok 0

section

variable {count offset : Nat}

theorem length_pointersFrom_le : (image.pointersFrom count offset).length ≤ count := by
  induction count generalizing offset with
  | zero => exact Nat.le_refl 0
  | succ count ih =>
    unfold pointersFrom
    cases image.word offset with
    | error cause => exact Nat.zero_le _
    | ok pointer =>
      by_cases hz : pointer = 0
      · simp [hz]
      · simpa [hz] using ih

theorem word_of_pointersFrom {index : Nat} {pointer : UInt16}
    (h : (image.pointersFrom count offset)[index]? = some pointer) :
    image.word (offset + 2 * index) = .ok pointer ∧ pointer ≠ 0 := by
  induction count generalizing offset index with
  | zero => cases h
  | succ count ih =>
    unfold pointersFrom at h
    cases hw : image.word offset with
    | error cause => simp [hw] at h
    | ok first =>
      by_cases hz : first = 0
      · simp [hw, hz] at h
      · simp only [hw, if_neg hz] at h
        cases index with
        | zero =>
          obtain rfl := Option.some.inj h
          exact ⟨hw, hz⟩
        | succ index =>
          rw [Nat.mul_succ, Nat.add_comm (2 * index), ← Nat.add_assoc]
          exact ih h

theorem word_behind_pointersFrom (h : (image.pointersFrom count offset).length < count)
    {pointer : UInt16}
    (hw : image.word (offset + 2 * (image.pointersFrom count offset).length) = .ok pointer) :
    pointer = 0 := by
  induction count generalizing offset with
  | zero => exact absurd h (Nat.not_lt_zero _)
  | succ count ih =>
    unfold pointersFrom at h hw
    cases hfirst : image.word offset with
    | error cause =>
      simp only [hfirst] at hw
      cases hfirst.symm.trans hw
    | ok first =>
      by_cases hz : first = 0
      · simp only [hfirst, if_pos hz] at hw
        exact (Except.ok.inj (hfirst.symm.trans hw)).symm.trans hz
      · simp only [hfirst, if_neg hz, List.length_cons] at h hw
        rw [Nat.mul_succ, Nat.add_comm (2 * _), ← Nat.add_assoc] at hw
        exact ih (Nat.lt_of_succ_lt_succ h) hw

end

variable {image} {base : Nat}

theorem scriptPointers_of_table (hb : image.table .initScripts = .ok base) :
    image.scriptPointers = .ok (image.pointersFrom 256 base) := by
  rw [scriptPointers, hb]
  rfl

theorem scriptPointer_of_table (hb : image.table .initScripts = .ok base) (index : UInt8) :
    image.scriptPointer index = image.word (base + 2 * index.toNat) := by
  rw [scriptPointer, entryOffset, hb, Nat.mul_comm]
  rfl

theorem endsTable_length : image.EndsTable base (image.pointersFrom 256 base).length := by
  rcases Nat.lt_or_ge (image.pointersFrom 256 base).length 256 with hlt | hge
  · cases hw : image.word (base + 2 * (image.pointersFrom 256 base).length) with
    | ok pointer =>
      obtain rfl := image.word_behind_pointersFrom hlt hw
      exact .inr (.inr hw)
    | error cause =>
      refine .inr (.inl fun hinside => ?_)
      obtain ⟨pointer, hw'⟩ := (image.exists_word_iff _).mpr hinside
      cases hw.symm.trans hw'
  · exact .inl (Nat.le_antisymm image.length_pointersFrom_le hge)

theorem not_endsTable_of_lt {index : Nat} (h : index < (image.pointersFrom 256 base).length) :
    ¬image.EndsTable base index := by
  obtain ⟨hw, hz⟩ := image.word_of_pointersFrom (List.getElem?_eq_getElem h)
  rintro (hfull | houtside | hzero)
  · exact absurd (Nat.lt_of_lt_of_le h image.length_pointersFrom_le) (hfull ▸ Nat.lt_irrefl _)
  · exact houtside ((image.exists_word_iff _).mp ⟨_, hw⟩)
  · exact hz (Except.ok.inj (hw.symm.trans hzero))

end Image

namespace Selection

open Engine

variable {image : Image}

theorem targets_all {pointers : List UInt16} (h : image.scriptPointers = .ok pointers) :
    all.targets image = .ok (pointers.zipIdx.map targetOf) := by
  rw [targets, h]
  rfl

theorem targets_listed {index : UInt8} {pointer : UInt16}
    (h : image.scriptPointer index = .ok pointer) :
    (listed index).targets image = .ok [targetOf (pointer, index.toNat)] := by
  rw [targets, h]
  rfl

end Selection

namespace MachineM

variable {δ τ α β : Type}

/-- What an action gives for an item on every machine, it gives where the item comes to its
turn. -/
theorem forall₂_mapM {R : α → β → Prop} {items : List α} {action : α → MachineM δ τ β}
    (h : ∀ item ∈ items, ∀ machine, R item (action item machine).1) (machine : Machine δ τ) :
    List.Forall₂ R items (items.mapM action machine).1 := by
  induction items generalizing machine with
  | nil => exact .nil
  | cons item rest ih =>
    simp only [List.mapM_cons, MachineM.bind_apply, MachineM.pure_apply]
    obtain ⟨hitem, hrest⟩ := List.forall_mem_cons.mp h
    exact .cons (hitem machine) (ih hrest _)

end MachineM

def RanScript (outcome : Outcome) : Prop :=
  ∀ report, outcome = .ok report → report.exit ≠ .noScript

def ScriptRun.IsOf (run : ScriptRun) (target : Target) : Prop :=
  run.target = target ∧ RanScript run.outcome

def InitRun.IsOf (run : InitRun) (target : Target) : Prop :=
  Engine.targetOf (run.start, run.index) = target ∧ RanScript run.outcome

theorem Image.Justifies.exit_ne {image : Image} {maxOps : Nat} {repeating : Bool}
    {taken : List Nat} {report : Report} (h : image.Justifies maxOps repeating taken report) :
    report.exit ≠ .noScript := by
  cases h with
  | stop | cutOff | pastEnd | runaway => exact nofun

namespace Engine

section

variable {δ τ : Type} (engine : Engine δ τ) {start : Nat} (hs : start ≠ 0)

include hs

theorem ranScript_runScript (machine : Machine δ τ) :
    RanScript (engine.runScript start machine).1 := by
  intro report hreport
  obtain ⟨-, -, hjust, -⟩ := (engine.runScript_ends machine hs).report report hreport
  exact hjust.exit_ne

theorem ranScript_runFresh (output : Output) (announcement : Event) (machine : Machine δ τ) :
    RanScript (engine.runFresh output announcement start machine).1 :=
  engine.ranScript_runScript hs
    (engine.note 0 announcement { machine with state := .fresh output }).2

end

theorem runBatch_isOf {τ : Type} (engine : Engine SimulatedDevice τ) {selection : Selection}
    {targets : List Target} (ht : selection.targets engine.image = .ok targets)
    (hs : ∀ target ∈ targets, target.start ≠ 0) (output : Output)
    (machine : Machine SimulatedDevice τ) :
    ∃ runs, (engine.runBatch output selection machine).1 = .ok runs ∧
      List.Forall₂ ScriptRun.IsOf runs targets := by
  rw [runBatch, ht]
  refine ⟨_, rfl, List.Forall₂.flip (MachineM.forall₂_mapM (fun target ht machine => ?_) machine)⟩
  exact ⟨rfl, engine.ranScript_runFresh (hs target ht) output _ machine⟩

theorem runInitTables_isOf {δ τ : Type} (engine : Engine δ τ) {pointers : List UInt16}
    (hp : engine.image.scriptPointers = .ok pointers)
    (hs : ∀ pointer ∈ pointers, pointer.toNat ≠ 0) (output : Output) (machine : Machine δ τ) :
    ∃ runs, (engine.runInitTables output machine).1 = .ok runs ∧
      List.Forall₂ InitRun.IsOf runs (pointers.zipIdx.map targetOf) := by
  rw [runInitTables, hp]
  refine ⟨_, rfl, List.forall₂_map_right_iff.mpr
    (List.Forall₂.flip (MachineM.forall₂_mapM (fun entry he machine => ?_) machine))⟩
  have hstart : entry.1.toNat ≠ 0 := hs entry.1 (List.fst_mem_of_mem_zipIdx he)
  exact ⟨rfl, engine.ranScript_runFresh hstart output _ machine⟩

end Engine

theorem exists_toNat_eq {index : Nat} (h : index < 256) : ∃ place : UInt8, place.toNat = index :=
  ⟨UInt8.ofNat index, UInt8.toNat_ofNat_of_lt' h⟩

open Engine in
/-- Where the table of scripts is there, the list of its pointers ends at the first index at which
the table ends, and each pointer of it is the one that is read by its index: the selection of all
scripts has, at that place, the only target of the selection of this script. The pointer is not
zero, so the script is run, under whatever limits, and by itself as in a batch of listed scripts
or in the run of the whole table. -/
theorem script_table_agrees {image : Image} {base : Nat}
    (hb : image.table .initScripts = .ok base) :
    ∃ pointers targets,
      image.scriptPointers = .ok pointers ∧ Selection.all.targets image = .ok targets ∧
      (pointers.length ≤ 256 ∧ image.EndsTable base pointers.length ∧
        ∀ index < pointers.length, ¬image.EndsTable base index) ∧
      targets.length = pointers.length ∧
      (∀ (index : Nat) (pointer : UInt16), pointers[index]? = some pointer →
        pointer ≠ 0 ∧ ∃ (place : UInt8) (target : Target), place.toNat = index ∧
          image.scriptPointer place = .ok pointer ∧ targets[index]? = some target ∧
          (Selection.listed place).targets image = .ok [target] ∧
          target = { index := some index, start := pointer.toNat }) ∧
      (pointers.length < 256 → ∃ place : UInt8, place.toNat = pointers.length ∧
        (image.scriptPointer place = .ok 0 ∨ image.scriptPointer place =
          .error (.outOfBounds (base + 2 * pointers.length) 2 image.length))) ∧
      (∀ (δ τ : Type) (engine : Engine δ τ), engine.image = image →
        (∀ pointer ∈ pointers, ∀ machine,
          RanScript (engine.runScript pointer.toNat machine).1) ∧
        ∀ output machine, ∃ runs, (engine.runInitTables output machine).1 = .ok runs ∧
          List.Forall₂ InitRun.IsOf runs targets) ∧
      (∀ (τ : Type) (engine : Engine SimulatedDevice τ), engine.image = image →
        ∀ selection chosen, selection.targets image = .ok chosen → chosen ⊆ targets →
          ∀ output machine, ∃ runs, (engine.runBatch output selection machine).1 = .ok runs ∧
            List.Forall₂ ScriptRun.IsOf runs chosen) := by
  obtain ⟨pointers, hpointers⟩ : ∃ pointers, pointers = image.pointersFrom 256 base := ⟨_, rfl⟩
  have hp : image.scriptPointers = .ok pointers := hpointers ▸ Image.scriptPointers_of_table hb
  have hlength : pointers.length ≤ 256 := hpointers ▸ image.length_pointersFrom_le
  have hends : image.EndsTable base pointers.length := hpointers ▸ Image.endsTable_length
  have hwithin : ∀ index < pointers.length, ¬image.EndsTable base index := by
    subst hpointers
    exact fun index => Image.not_endsTable_of_lt
  have hword (index : Nat) (pointer : UInt16) (h : pointers[index]? = some pointer) :
      image.word (base + 2 * index) = .ok pointer ∧ pointer ≠ 0 :=
    image.word_of_pointersFrom (hpointers ▸ h)
  have hstart (pointer : UInt16) (h : pointer ∈ pointers) : pointer.toNat ≠ 0 := by
    obtain ⟨index, hindex⟩ := List.getElem?_of_mem h
    exact fun hz => (hword index pointer hindex).2 (UInt16.toNat_inj.mp hz)
  refine ⟨pointers, pointers.zipIdx.map targetOf, hp, Selection.targets_all hp,
    ⟨hlength, hends, hwithin⟩, by simp, fun index pointer h => ?listed, fun hlt => ?behind,
    fun δ τ engine himage => ?runs, fun τ engine himage selection chosen hchosen hsub => ?batch⟩
  case listed =>
    obtain ⟨hw, hz⟩ := hword index pointer h
    have hindex : index < pointers.length := (List.getElem?_eq_some_iff.mp h).1
    obtain ⟨place, rfl⟩ := exists_toNat_eq (Nat.lt_of_lt_of_le hindex hlength)
    have hpointer : image.scriptPointer place = .ok pointer :=
      (Image.scriptPointer_of_table hb place).trans hw
    refine ⟨hz, place, targetOf (pointer, place.toNat), rfl, hpointer, ?_,
      Selection.targets_listed hpointer, rfl⟩
    simp [h]
  case behind =>
    obtain ⟨place, hplace⟩ := exists_toNat_eq hlt
    refine ⟨place, hplace, ?_⟩
    rw [Image.scriptPointer_of_table hb, hplace]
    rcases hends with hfull | houtside | hzero
    · exact absurd hfull (Nat.ne_of_lt hlt)
    · exact .inr (image.word_of_ge houtside)
    · exact .inl hzero
  case runs =>
    subst himage
    exact ⟨fun pointer h => engine.ranScript_runScript (hstart pointer h),
      engine.runInitTables_isOf hp hstart⟩
  case batch =>
    subst himage
    refine engine.runBatch_isOf hchosen fun target h => ?_
    obtain ⟨entry, hentry, rfl⟩ := List.mem_map.mp (hsub h)
    exact hstart entry.1 (List.fst_mem_of_mem_zipIdx hentry)

/-- The table runs into the end of the image. Its two scripts are scripts also where no instruction
is allowed. -/
theorem script_table_agrees_at_image_end :
    let image := Image.withDirectory ⟨#[0, 0x71, 1, 0, 1, 0, 9]⟩
      (.ofList [(.initScripts, 2)] 0 false)
    let engine : Engine SimulatedDevice Unit :=
      { image, facade := SimulatedDevice.facade, observer := .silent, limits := { maxOps := 0 } }
    let machine : Machine SimulatedDevice Unit := .start .blank {} ()
    image.table .initScripts = .ok 2 ∧
      image.scriptPointer 1 = .ok 1 ∧
      image.scriptPointer 2 = .error (.outOfBounds 6 2 7) ∧
      Selection.all.targets image = .ok [⟨some 0, 1⟩, ⟨some 1, 1⟩] ∧
      (Selection.listed 1).targets image = .ok [⟨some 1, 1⟩] ∧
      ∃ runs, (engine.runBatch {} .all machine).1 = .ok runs ∧
        List.Forall₂ ScriptRun.IsOf runs [⟨some 0, 1⟩, ⟨some 1, 1⟩] := by
  intro image engine machine
  have hb : image.table .initScripts = .ok 2 := rfl
  obtain ⟨pointers, targets, hp, ht, -, -, hlisted, hbehind, -, hbatch⟩ := script_table_agrees hb
  obtain rfl : pointers = [1, 1] := Except.ok.inj (hp.symm.trans rfl)
  obtain rfl : targets = [⟨some 0, 1⟩, ⟨some 1, 1⟩] := Except.ok.inj (ht.symm.trans rfl)
  obtain ⟨-, place, target, hplace, hpointer, -, hsingle, rfl⟩ := hlisted 1 1 rfl
  obtain rfl : place = 1 := UInt8.toNat_inj.mp hplace
  obtain ⟨place, hplace, hlast⟩ := hbehind (by decide)
  obtain rfl : place = 2 := UInt8.toNat_inj.mp hplace
  have houtside : image.scriptPointer 2 = .error (.outOfBounds 6 2 7) :=
    hlast.resolve_left nofun
  exact ⟨hb, hpointer, houtside, ht, hsingle,
    hbatch Unit engine rfl .all _ ht (List.Subset.refl _) {} machine⟩

end RomScript
