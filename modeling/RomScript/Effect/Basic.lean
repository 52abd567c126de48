import RomScript.Device.Request
import RomScript.Effect.Error

/-!
# Effects

What an instruction does is a tree: it asks the device and goes on with the answer,
gets or sets the RAM column that it knows of the board, and ends with a value or a
failure. Running an effect follows one path of the tree. A failure ends the path and
leaves what was done before it.
-/

set_option autoImplicit false

namespace RomScript

inductive Effect (α : Type)
  | done (value : α)
  | fail (cause : InstructionError)
  | ask (request : Request) (next : request.Answer → Effect α)
  | getColumn (next : Option UInt8 → Effect α)
  | setColumn (column : UInt8) (next : Effect α)

namespace Effect

variable {α β γ : Type}

def bind : Effect α → (α → Effect β) → Effect β
  | .done value, next => next value
  | .fail cause, _ => .fail cause
  | .ask request rest, next => .ask request fun answer => (rest answer).bind next
  | .getColumn rest, next => .getColumn fun column => (rest column).bind next
  | .setColumn column rest, next => .setColumn column (rest.bind next)

instance : Monad Effect where
  pure := .done
  bind := .bind

theorem bind_done (effect : Effect α) : effect.bind .done = effect := by
  induction effect with
  | done | fail => rfl
  | ask request rest ih => simp [bind, ih]
  | getColumn rest ih => simp [bind, ih]
  | setColumn column rest ih => simp [bind, ih]

theorem bind_assoc (effect : Effect α) (f : α → Effect β) (g : β → Effect γ) :
    (effect.bind f).bind g = effect.bind fun value => (f value).bind g := by
  induction effect with
  | done | fail => rfl
  | ask request rest ih => simp [bind, ih]
  | getColumn rest ih => simp [bind, ih]
  | setColumn column rest ih => simp [bind, ih]

instance : LawfulMonad Effect :=
  LawfulMonad.mk' Effect bind_done (fun _ _ => rfl) bind_assoc

end Effect

/-- The device with the RAM column of its board, once a script has found it out. -/
structure Bench (δ : Type) where
  device : δ
  column : Option UInt8

namespace Effect

variable {α β δ : Type}

def run (facade : Facade δ) : Effect α → Bench δ → Except InstructionError α × Bench δ
  | .done value, bench => (.ok value, bench)
  | .fail cause, bench => (.error cause, bench)
  | .ask request next, ⟨device, column⟩ =>
    let answered := facade.answer request device
    (next answered.1).run facade ⟨answered.2, column⟩
  | .getColumn next, bench => (next bench.column).run facade bench
  | .setColumn column next, ⟨device, _⟩ => next.run facade ⟨device, some column⟩

theorem run_bind (facade : Facade δ) (effect : Effect α) (next : α → Effect β)
    (bench : Bench δ) :
    (effect >>= next).run facade bench =
      match effect.run facade bench with
      | (.ok value, bench) => (next value).run facade bench
      | (.error cause, bench) => (.error cause, bench) := by
  induction effect generalizing bench with
  | done | fail => rfl
  | ask request rest ih => exact ih _ _
  | getColumn rest ih => exact ih _ _
  | setColumn column rest ih => exact ih _

def ofExcept {ε : Type} (wrap : ε → InstructionError) : Except ε α → Effect α
  | .ok value => .done value
  | .error cause => .fail (wrap cause)

def ofImage : Except ImageError α → Effect α := ofExcept .image

def ofTransfer : Except TransferError α → Effect α := ofExcept .transfer

def ofPll : Except PllError α → Effect α := ofExcept .pll

/-! ## Requests -/

def request (request : Request) : Effect request.Answer := .ask request .done

def readReg (reg : UInt32) : Effect UInt32 := request (.readReg reg)

def writeReg (reg value : UInt32) : Effect Unit := request (.writeReg reg value)

def readIndexed (port : UInt16) (index : UInt8) : Effect UInt8 := request (.readIndexed port index)

def writeIndexed (port : UInt16) (index value : UInt8) : Effect Unit :=
  request (.writeIndexed port index value)

def readPort (port : UInt16) : Effect UInt8 := request (.readPort port)

def writePort (port : UInt16) (value : UInt8) : Effect Unit := request (.writePort port value)

def i2cWrite (bus addr : UInt8) (message : List UInt8) : Effect (Except TransferError Unit) :=
  request (.i2cWrite bus addr message)

def i2cFetch (bus addr : UInt8) (message : List UInt8) : Effect (Except TransferError UInt8) := do
  let answer ← request (.i2cWriteRead bus addr message [0])
  return answer.map fun bytes => bytes.headD 0

def i2cReadByte (bus addr reg : UInt8) : Effect (Except TransferError UInt8) :=
  i2cFetch bus addr [reg]

def i2cWriteByte (bus addr reg value : UInt8) : Effect (Except TransferError Unit) :=
  i2cWrite bus addr [reg, value]

def auxReadByte (bus : UInt8) (addr : UInt32) : Effect (Except TransferError UInt8) := do
  let answer ← request (.auxRead bus addr [0])
  return answer.map fun bytes => bytes.headD 0

def auxWriteByte (bus : UInt8) (addr : UInt32) (value : UInt8) :
    Effect (Except TransferError Unit) :=
  request (.auxWrite bus addr [value])

def programPll (reg khz : UInt32) : Effect (Except PllError Unit) :=
  request (.programPll reg khz)

def programPllId (id : UInt8) (khz : UInt32) : Effect (Except PllError Unit) :=
  request (.programPllId id khz)

def sleepMicros (micros : UInt32) : Effect Unit := request (.sleepMicros micros)

def sleepMillis (millis : UInt32) : Effect Unit := request (.sleepMillis millis)

def tmdsRegister (link : UInt8) (output : Output) : Effect (Option UInt32) :=
  request (.tmdsRegister link output)

end Effect

end RomScript
