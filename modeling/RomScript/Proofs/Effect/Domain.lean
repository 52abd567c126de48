import Mathlib.Algebra.Group.Nat.Defs
import RomScript.Effect.Board
import RomScript.Effect.Clocks
import RomScript.Effect.Registers

/-!
# Effects on fixed-width numbers

Some operations on machine numbers are only right within a domain: a product or a sum has to
fit thirty-two bits, a list is cut into rows of at least one element, and an index has to be
inside its row. Here each of them is written with its test, and a failed test ends in a fault,
which may be any effect at all. The effects with the tests are the effects without them, so no
answer of a device and no remembered column leads to a fault.
-/

set_option autoImplicit false

namespace RomScript

/-! ## Numbers of thirty-two bits -/

def mul? (a b : UInt32) : Option UInt32 :=
  if a.toNat * b.toNat < 2 ^ 32 then some (a * b) else none

def add? (a b : UInt32) : Option UInt32 :=
  if a.toNat + b.toNat < 2 ^ 32 then some (a + b) else none

theorem mul?_of_lt {a b : UInt32} (h : a.toNat * b.toNat < 2 ^ 32) : mul? a b = some (a * b) :=
  if_pos h

theorem add?_of_lt {a b : UInt32} (h : a.toNat + b.toNat < 2 ^ 32) : add? a b = some (a + b) :=
  if_pos h

theorem mul?_khz (tens : UInt16) : mul? tens.toUInt32 10 = some (tens.toUInt32 * 10) := by
  have htens := tens.toNat_lt
  refine mul?_of_lt ?_
  simp only [UInt16.toNat_toUInt32, UInt32.reduceToNat]
  omega

theorem mul?_doubled (tens : UInt16) :
    mul? (tens.toUInt32 * 10) 2 = some (tens.toUInt32 * 10 * 2) := by
  have htens := tens.toNat_lt
  have hfits : tens.toNat * 10 < 2 ^ 32 := by omega
  refine mul?_of_lt ?_
  simp only [UInt32.toNat_mul, UInt16.toNat_toUInt32, UInt32.reduceToNat, Nat.mod_eq_of_lt hfits]
  omega

theorem add?_rounding (micros : UInt16) :
    add? micros.toUInt32 900 = some (micros.toUInt32 + 900) := by
  have hmicros := micros.toNat_lt
  refine add?_of_lt ?_
  simp only [UInt16.toNat_toUInt32, UInt32.reduceToNat]
  omega

namespace Effect

variable (fault : Effect Unit)

def within (number : Option UInt32) (next : UInt32 → Effect Unit) : Effect Unit :=
  match number with
  | some number => next number
  | none => fault

/-- The rows of a table with the given number of columns, which cannot be zero. What is left
of the table behind its last full row is in none of them. -/
def rows? (columns : Nat) (values : List UInt32) : Option (List (List UInt32)) :=
  if columns = 0 then none
  else some ((List.range (values.length / columns)).map fun row =>
    (values.drop (row * columns)).take columns)

def writeColumn (column : Nat) (stride : UInt32) : UInt32 → List (List UInt32) → Effect Unit
  | _, [] => .done ()
  | reg, row :: rest =>
    match row[column]? with
    | none => fault
    | some value => do
      writeReg reg value
      writeColumn column stride (reg + stride) rest

/-- The column of this board is one of those that the image has, remembered or not. -/
theorem ramColumn_lt {δ : Type} {image : Image} {facade : Facade δ} {bench after : Bench δ}
    {column : Nat} (h : (ramColumn image).run facade bench = (.ok column, after)) :
    column < image.ramGroups := by
  rw [ramColumn, run_bind] at h
  split at h
  · split at h
    · cases h
      assumption
    · cases h
  · cases h

theorem ramColumn_bind_congr {image : Image} {next next' : Nat → Effect Unit}
    (h : ∀ column < image.ramGroups, next column = next' column) :
    ramColumn image >>= next = ramColumn image >>= next' := by
  rw [ramColumn, LawfulMonad.bind_assoc, LawfulMonad.bind_assoc]
  refine bind_congr fun column => ?_
  split
  · rename_i hcolumn
    exact h column.toNat hcolumn
  · rfl

theorem writeColumn_rows {columns column : Nat} (hcolumn : column < columns) {stride : UInt32}
    {values : List UInt32} (rows : List Nat) (hrows : ∀ row ∈ rows, row < values.length / columns)
    (reg : UInt32) :
    writeColumn fault column stride reg
        (rows.map fun row => (values.drop (row * columns)).take columns) =
      writeRegs stride reg (rows.filterMap fun row => values[row * columns + column]?) := by
  induction rows generalizing reg with
  | nil => rfl
  | cons row rows ih =>
    have hrow : row * columns + columns ≤ values.length := by
      have hlt := hrows row List.mem_cons_self
      have hle := Nat.mul_le_mul_right columns (Nat.succ_le_of_lt hlt)
      rw [Nat.succ_mul] at hle
      exact Nat.le_trans hle (Nat.div_mul_le_self _ _)
    have hvalue : values[row * columns + column]? = some _ :=
      List.getElem?_eq_getElem (by omega)
    have hindex : ((values.drop (row * columns)).take columns)[column]? =
        values[row * columns + column]? := by
      rw [List.getElem?_take_of_lt hcolumn, List.getElem?_drop]
    rw [List.map_cons, List.filterMap_cons, writeColumn, hindex, hvalue]
    simp only [writeRegs, ih (fun r hr => hrows r (List.mem_cons_of_mem _ hr))]

end Effect

open Effect

def RegisterOp.checked (image : Image) (fault : Effect Unit) : RegisterOp → Effect Unit
  | .ramRestrictZmRegGroup reg increment _ values => do
    let column ← ramColumn image
    match rows? image.ramGroups values with
    | none => fault
    | some rows => writeColumn fault column increment.toUInt32 reg rows
  | op => op.run image

def ClockOp.checked (image : Image) (fault : Effect Unit) : ClockOp → Effect Unit
  | .pll reg tensOfKhz => within fault (mul? tensOfKhz.toUInt32 10) (setPll reg)
  | .ioRestrictPll field flagCondition reg tensOfKhz => do
    let tens ← selectByPort field tensOfKhz
    within fault (mul? tens.toUInt32 10) fun khz => do
      let doubled ← isDoubled image flagCondition
      within fault (if doubled then mul? khz 2 else some khz) (setPll reg)
  | .time micros =>
    let micros := micros.toUInt32
    if micros < 1000 then sleepMicros micros
    else within fault (add? micros 900) fun rounded => sleepMillis (rounded / 1000)
  | op => op.run image

def BoardOp.checked (image : Image) (fault : Effect Unit) : BoardOp → Effect Unit
  | .configureClk => do
    let entry ← memoryEntry image
    within fault (mul? entry.mpll.toUInt32 10) fun memory =>
      within fault (if entry.isDdr then mul? memory 2 else some memory) fun memory =>
        within fault (mul? entry.nvpll.toUInt32 10) fun core => do
          let core ← programPll coreClockReg core
          let memory ← programPll memoryClockReg memory
          ofPll core
          ofPll memory
  | op => op.run image

section Checked

variable (image : Image) (fault : Effect Unit)

theorem ClockOp.checked_eq (op : ClockOp) : op.checked image fault = op.run image := by
  cases op with
  | pll reg tensOfKhz => simp only [checked, run, mul?_khz, within]
  | ioRestrictPll field flagCondition reg tensOfKhz =>
    simp only [checked, run, mul?_khz, within]
    refine bind_congr fun tens => bind_congr fun doubled => ?_
    cases doubled with
    | false => rfl
    | true => simp only [if_true, mul?_doubled]
  | time micros => simp only [checked, run, add?_rounding, within]
  | _ => rfl

theorem BoardOp.checked_eq (op : BoardOp) : op.checked image fault = op.run image := by
  cases op with
  | configureClk =>
    simp only [checked, run, mul?_khz, within]
    refine bind_congr fun entry => ?_
    cases entry.isDdr with
    | false => rfl
    | true => simp only [if_true, mul?_doubled]
  | _ => rfl

theorem RegisterOp.checked_eq (op : RegisterOp) : op.checked image fault = op.run image := by
  cases op with
  | ramRestrictZmRegGroup reg increment count values =>
    refine ramColumn_bind_congr fun column hcolumn => ?_
    have hgroups : image.ramGroups ≠ 0 := Nat.ne_zero_of_lt hcolumn
    simp only [rows?, hgroups, if_false]
    exact writeColumn_rows fault hcolumn _ (fun _ => List.mem_range.mp) reg
  | _ => rfl

end Checked

end RomScript
