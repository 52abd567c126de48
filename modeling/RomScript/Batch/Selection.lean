import RomScript.Image.Entries

/-!
# Selecting scripts
-/

set_option autoImplicit false

namespace RomScript

inductive Selection
  | all
  | listed (index : UInt8)
  | placed (offset : UInt32)
  deriving DecidableEq, Repr, Inhabited

/-- A script to run, with its index if it is from the pointer table. -/
structure Target where
  index : Option Nat
  start : Nat
  deriving DecidableEq, Repr

/-- The scripts that are selected, in the order of the pointer table. -/
def Selection.targets (selection : Selection) (image : Image) :
    Except ImageError (List Target) :=
  match selection with
  | .all => do
    let pointers ← image.scriptPointers
    return pointers.zipIdx.map fun entry => { index := some entry.2, start := entry.1.toNat }
  | .listed index => do
    let pointer ← image.scriptPointer index
    return [{ index := some index.toNat, start := pointer.toNat }]
  | .placed offset => .ok [{ index := none, start := offset.toNat }]

end RomScript
