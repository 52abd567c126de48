import RomScript.Device.Simulated
import RomScript.Proofs.Engine.Passage

/-!
# Replaying the record

The record of a simulated device explains what the device answered. Each request but a look-up
of a link leaves one call; the calls that count as writes, issued again from the start, bring
the contents to where they were at each point; and there they answer as recorded.
-/

set_option autoImplicit false

namespace RomScript

structure Exchange where
  request : Request
  answer : request.Answer

def Request.isLinkLookup : Request → Bool
  | .tmdsRegister .. => true
  | _ => false

/-- The recorded call of an exchange; a failed read is recorded with its buffer. -/
def Exchange.call? : Exchange → Option Call
  | ⟨.readReg reg, value⟩ => some (.readReg reg value)
  | ⟨.writeReg reg value, _⟩ => some (.writeReg reg value)
  | ⟨.readIndexed port index, value⟩ => some (.readIndexed port index value)
  | ⟨.writeIndexed port index value, _⟩ => some (.writeIndexed port index value)
  | ⟨.readPort port, value⟩ => some (.readPort port value)
  | ⟨.writePort port value, _⟩ => some (.writePort port value)
  | ⟨.i2cWrite bus addr message, result⟩ => some (.i2cWrite bus addr message result.isOk)
  | ⟨.i2cWriteRead bus addr message buffer, result⟩ =>
    some (.i2cWriteRead bus addr message (result.toOption.getD buffer) result.isOk)
  | ⟨.auxRead bus addr buffer, result⟩ =>
    some (.auxRead bus addr (result.toOption.getD buffer) result.isOk)
  | ⟨.auxWrite bus addr data, result⟩ => some (.auxWrite bus addr data result.isOk)
  | ⟨.programPll reg khz, result⟩ => some (.programPll reg khz result.isOk)
  | ⟨.programPllId id khz, _⟩ => some (.programPllId id khz)
  | ⟨.sleepMicros micros, _⟩ => some (.sleepMicros micros)
  | ⟨.sleepMillis millis, _⟩ => some (.sleepMillis millis)
  | ⟨.computeMemory, _⟩ => some .computeMemory
  | ⟨.resetGpios excluded, _⟩ => some (.resetGpios excluded)
  | ⟨.tmdsRegister .., _⟩ => none

/-- Issues a recorded call again. Of a buffer only the length matters to a read. -/
def Call.request : Call → Request
  | .readReg reg _ => .readReg reg
  | .writeReg reg value => .writeReg reg value
  | .readIndexed port index _ => .readIndexed port index
  | .writeIndexed port index value => .writeIndexed port index value
  | .readPort port _ => .readPort port
  | .writePort port value => .writePort port value
  | .i2cWrite bus addr data _ => .i2cWrite bus addr data
  | .i2cWriteRead bus addr write read _ => .i2cWriteRead bus addr write read
  | .auxRead bus addr data _ => .auxRead bus addr data
  | .auxWrite bus addr data _ => .auxWrite bus addr data
  | .programPll reg khz _ => .programPll reg khz
  | .programPllId id khz => .programPllId id khz
  | .sleepMicros micros => .sleepMicros micros
  | .sleepMillis millis => .sleepMillis millis
  | .computeMemory => .computeMemory
  | .resetGpios excluded => .resetGpios excluded

def Call.isFailed : Call → Bool
  | .i2cWrite _ _ _ ok | .i2cWriteRead _ _ _ _ ok | .auxRead _ _ _ ok | .auxWrite _ _ _ ok => !ok
  | _ => false

def writesOf (calls : List Call) : List Request := (calls.filter Call.isWrite).map Call.request

theorem writesOf_append (calls rest : List Call) :
    writesOf (calls ++ rest) = writesOf calls ++ writesOf rest := by
  simp [writesOf]

namespace Facade

variable {δ : Type} (facade : Facade δ)

def issue (requests : List Request) (device : δ) : δ :=
  requests.foldl (fun device request => (facade.answer request device).2) device

def exchanges : List Request → δ → List Exchange
  | [], _ => []
  | request :: rest, device =>
    ⟨request, (facade.answer request device).1⟩ ::
      exchanges rest (facade.answer request device).2

def callsOf (requests : List Request) (device : δ) : List Call :=
  (facade.exchanges requests device).filterMap Exchange.call?

theorem callsOf_cons (request : Request) (rest : List Request) (device : δ) :
    facade.callsOf (request :: rest) device =
      (Exchange.call? ⟨request, (facade.answer request device).1⟩).toList ++
        facade.callsOf rest (facade.answer request device).2 := by
  simp only [callsOf, exchanges, List.filterMap_cons]
  cases Exchange.call? ⟨request, (facade.answer request device).1⟩ <;> rfl

theorem issue_append (requests rest : List Request) (device : δ) :
    facade.issue (requests ++ rest) device = facade.issue rest (facade.issue requests device) :=
  List.foldl_append

end Facade

def Effect.requests {δ α : Type} (facade : Facade δ) : Effect α → Bench δ → List Request
  | .done _, _ => []
  | .fail _, _ => []
  | .ask request next, ⟨device, column⟩ =>
    let answered := facade.answer request device
    request :: (next answered.1).requests facade ⟨answered.2, column⟩
  | .getColumn next, bench => (next bench.column).requests facade bench
  | .setColumn column next, ⟨device, _⟩ => next.requests facade ⟨device, some column⟩

/-- What an effect does to a device is what its requests do to it. -/
theorem Effect.device_run {δ α : Type} (facade : Facade δ) (effect : Effect α)
    (bench : Bench δ) : (effect.run facade bench).2.device =
      facade.issue (effect.requests facade bench) bench.device := by
  induction effect generalizing bench with
  | done value => rfl
  | fail cause => rfl
  | ask request next ih => exact ih _ _
  | getColumn next ih => exact ih bench.column bench
  | setColumn column next ih => exact ih ⟨bench.device, some column⟩

theorem Passage.exists_issue {δ : Type} {facade : Facade δ} {depth : Nat} {first last : Scene δ}
    {events : Chronicle} (h : Passage facade depth first events last) :
    ∃ requests, last.bench.device = facade.issue requests first.bench.device := by
  induction h with
  | none depth scene => exact ⟨[], rfl⟩
  | append _ _ ihb iha =>
    obtain ⟨before, hb⟩ := ihb
    obtain ⟨after, ha⟩ := iha
    exact ⟨before ++ after, by rw [Facade.issue_append, ← hb, ha]⟩
  | note depth scene _ => exact ⟨[], rfl⟩
  | perform effect depth scene => exact ⟨_, effect.device_run facade scene.bench⟩
  | flag execute depth scene => exact ⟨[], rfl⟩
  | call target _ ih => exact ih
  | repeated _ ih => exact ih

namespace SimulatedDevice

/-- All that a device holds apart from its record. -/
def contents (device : SimulatedDevice) : SimulatedDevice := { device with calls := #[] }

def withCalls (device : SimulatedDevice) (calls : Array Call) : SimulatedDevice :=
  { device with calls }

theorem withCalls_of_contents {device other : SimulatedDevice}
    (h : device.contents = other.contents) : device = other.withCalls device.calls :=
  congrArg (fun contents => contents.withCalls device.calls) h

theorem answer_withCalls (request : Request) (device : SimulatedDevice) (calls : Array Call) :
    facade.answer request (device.withCalls calls) =
      ((facade.answer request device).1,
        (facade.answer request device).2.withCalls
          (calls ++ (Exchange.call? ⟨request, (facade.answer request device).1⟩).toArray)) := by
  cases request with
  | i2cWrite bus addr message =>
    have ht : (device.withCalls calls).i2cTarget bus addr = device.i2cTarget bus addr := rfl
    simp only [facade, i2cWrite, ht]
    cases device.i2cTarget bus addr <;> rfl
  | i2cWriteRead bus addr message buffer =>
    have ht : (device.withCalls calls).i2cTarget bus addr = device.i2cTarget bus addr := rfl
    simp only [facade, i2cWriteRead, ht]
    cases device.i2cTarget bus addr <;> rfl
  | auxRead bus addr buffer =>
    have ht : (device.withCalls calls).auxTarget bus addr = device.auxTarget bus addr := rfl
    simp only [facade, auxRead, ht]
    cases device.auxTarget bus addr <;> rfl
  | auxWrite bus addr data =>
    have ht : (device.withCalls calls).auxTarget bus addr = device.auxTarget bus addr := rfl
    simp only [facade, auxWrite, ht]
    cases device.auxTarget bus addr <;> rfl
  | programPll reg khz =>
    have hm : (device.withCalls calls).failingPlls = device.failingPlls := rfl
    simp only [facade, programPll, hm]
    by_cases h : reg ∈ device.failingPlls
    · simp only [if_pos h]
      rfl
    · simp only [if_neg h]
      rfl
  | _ => rfl

/-- Issued again on the device, the call has the recorded outcome. What a read is given to fill
does not matter. -/
def Confirms (device : SimulatedDevice) : Call → Prop
  | .readReg reg value => (facade.answer (.readReg reg) device).1 = value
  | .readIndexed port index value => (facade.answer (.readIndexed port index) device).1 = value
  | .readPort port value => (facade.answer (.readPort port) device).1 = value
  | .i2cWriteRead bus addr message bytes true => ∀ buffer, buffer.length = bytes.length →
      (facade.answer (.i2cWriteRead bus addr message buffer) device).1 = .ok bytes
  | .auxRead bus addr bytes true => ∀ buffer, buffer.length = bytes.length →
      (facade.answer (.auxRead bus addr buffer) device).1 = .ok bytes
  | call => Exchange.call? ⟨call.request, (facade.answer call.request device).1⟩ = some call

theorem confirms_of_contents {device other : SimulatedDevice} {call : Call}
    (h : device.contents = other.contents) (hc : other.Confirms call) : device.Confirms call := by
  have ha (request : Request) :
      (facade.answer request device).1 = (facade.answer request other).1 := by
    rw [withCalls_of_contents h, answer_withCalls]
  unfold Confirms at hc ⊢
  split at hc <;> simp only [ha] <;> exact hc

structure Records (device : SimulatedDevice) (request : Request) (call : Call) : Prop where
  confirms : device.Confirms call
  request_of_write : call.isWrite = true → call.request = request
  contents_of_read : call.isWrite = false →
    (facade.answer request device).2.contents = device.contents
  contents_of_failed : call.isFailed = true →
    (facade.answer request device).2.contents = device.contents

theorem contents_i2cWriteRead (device : SimulatedDevice) (bus addr : UInt8)
    (message buffer : List UInt8) :
    (facade.answer (.i2cWriteRead bus addr message buffer) device).2.contents =
      device.contents := by
  simp only [facade, i2cWriteRead]
  cases device.i2cTarget bus addr <;> rfl

theorem contents_auxRead (device : SimulatedDevice) (bus : UInt8) (addr : UInt32)
    (buffer : List UInt8) :
    (facade.answer (.auxRead bus addr buffer) device).2.contents = device.contents := by
  simp only [facade, auxRead]
  cases device.auxTarget bus addr <;> rfl

theorem confirms_i2cWriteRead {device : SimulatedDevice} {bus addr : UInt8}
    {message buffer : List UInt8} {call : Call}
    (h : Exchange.call? ⟨.i2cWriteRead bus addr message buffer,
      (facade.answer (.i2cWriteRead bus addr message buffer) device).1⟩ = some call) :
    device.Confirms call := by
  cases ht : device.i2cTarget bus addr with
  | error cause =>
    have ha : (facade.answer (.i2cWriteRead bus addr message buffer) device).1 =
        .error cause := by
      simp only [facade, i2cWriteRead, ht]
    rw [ha] at h
    obtain rfl : call = .i2cWriteRead bus addr message buffer false := (Option.some.inj h).symm
    simp only [Confirms, Call.request, ha]
    rfl
  | ok target =>
    have ha (filled : List UInt8) :
        (facade.answer (.i2cWriteRead bus addr message filled) device).1 =
          .ok (target.answer message filled.length) := by
      simp only [facade, i2cWriteRead, ht]
    rw [ha] at h
    obtain rfl := Option.some.inj h
    intro filled hl
    have hl : filled.length = buffer.length := hl.trans (length_loadRun _ _ _ _)
    rw [ha, hl]
    rfl

theorem confirms_auxRead {device : SimulatedDevice} {bus : UInt8} {addr : UInt32}
    {buffer : List UInt8} {call : Call} (h : Exchange.call? ⟨.auxRead bus addr buffer,
      (facade.answer (.auxRead bus addr buffer) device).1⟩ = some call) :
    device.Confirms call := by
  cases ht : device.auxTarget bus addr with
  | error cause =>
    have ha : (facade.answer (.auxRead bus addr buffer) device).1 = .error cause := by
      simp only [facade, auxRead, ht]
    rw [ha] at h
    obtain rfl : call = .auxRead bus addr buffer false := (Option.some.inj h).symm
    simp only [Confirms, Call.request, ha]
    rfl
  | ok channel =>
    have ha (filled : List UInt8) : (facade.answer (.auxRead bus addr filled) device).1 =
        .ok (loadRun (· + 1) channel addr filled.length) := by
      simp only [facade, auxRead, ht]
    rw [ha] at h
    obtain rfl := Option.some.inj h
    intro filled hl
    have hl : filled.length = buffer.length := hl.trans (length_loadRun _ _ _ _)
    rw [ha, hl]
    rfl

theorem contents_i2cWrite_of_failed {device : SimulatedDevice} {bus addr : UInt8}
    {message : List UInt8}
    (h : (!(facade.answer (.i2cWrite bus addr message) device).1.isOk) = true) :
    (facade.answer (.i2cWrite bus addr message) device).2.contents = device.contents := by
  simp only [facade, i2cWrite] at h ⊢
  cases ht : device.i2cTarget bus addr with
  | error cause => rfl
  | ok target =>
    rw [ht] at h
    cases h

theorem contents_auxWrite_of_failed {device : SimulatedDevice} {bus : UInt8} {addr : UInt32}
    {data : List UInt8}
    (h : (!(facade.answer (.auxWrite bus addr data) device).1.isOk) = true) :
    (facade.answer (.auxWrite bus addr data) device).2.contents = device.contents := by
  simp only [facade, auxWrite] at h ⊢
  cases ht : device.auxTarget bus addr with
  | error cause => rfl
  | ok channel =>
    rw [ht] at h
    cases h

theorem records_of_call? {device : SimulatedDevice} {request : Request} {call : Call}
    (h : Exchange.call? ⟨request, (facade.answer request device).1⟩ = some call) :
    device.Records request call := by
  cases request with
  | i2cWriteRead bus addr message buffer =>
    have hconfirms := confirms_i2cWriteRead h
    have hcontents := contents_i2cWriteRead device bus addr message buffer
    obtain rfl := Option.some.inj h
    exact ⟨hconfirms, nofun, fun _ => hcontents, fun _ => hcontents⟩
  | auxRead bus addr buffer =>
    have hconfirms := confirms_auxRead h
    have hcontents := contents_auxRead device bus addr buffer
    obtain rfl := Option.some.inj h
    exact ⟨hconfirms, nofun, fun _ => hcontents, fun _ => hcontents⟩
  | i2cWrite bus addr message =>
    obtain rfl := Option.some.inj h
    exact ⟨rfl, fun _ => rfl, nofun, contents_i2cWrite_of_failed⟩
  | auxWrite bus addr data =>
    obtain rfl := Option.some.inj h
    exact ⟨rfl, fun _ => rfl, nofun, contents_auxWrite_of_failed⟩
  | readReg | readIndexed | readPort | sleepMicros | sleepMillis | computeMemory | resetGpios =>
    obtain rfl := Option.some.inj h
    exact ⟨rfl, nofun, fun _ => rfl, nofun⟩
  | writeReg | writeIndexed | writePort | programPll | programPllId =>
    obtain rfl := Option.some.inj h
    exact ⟨rfl, fun _ => rfl, nofun, nofun⟩
  | tmdsRegister link output => cases h

/-! ## Replay -/

theorem calls_answer (request : Request) (device : SimulatedDevice) :
    (facade.answer request device).2.calls.toList = device.calls.toList ++
      (Exchange.call? ⟨request, (facade.answer request device).1⟩).toList := by
  have hc := congrArg (·.2.calls.toList) (answer_withCalls request device device.calls)
  simpa [withCalls] using hc

theorem calls_issue (requests : List Request) (device : SimulatedDevice) :
    (facade.issue requests device).calls.toList =
      device.calls.toList ++ facade.callsOf requests device := by
  induction requests generalizing device with
  | nil => exact (List.append_nil _).symm
  | cons request rest ih =>
    rw [Facade.callsOf_cons, ← List.append_assoc, ← calls_answer]
    exact ih (facade.answer request device).2

theorem call?_eq_none_iff (exchange : Exchange) :
    exchange.call? = none ↔ exchange.request.isLinkLookup = true := by
  obtain ⟨request, answer⟩ := exchange
  cases request <;> simp [Exchange.call?, Request.isLinkLookup]

theorem length_callsOf (requests : List Request) (device : SimulatedDevice) :
    (facade.callsOf requests device).length =
      requests.countP fun request => !request.isLinkLookup := by
  induction requests generalizing device with
  | nil => rfl
  | cons request rest ih =>
    have hn := call?_eq_none_iff ⟨request, (facade.answer request device).1⟩
    rw [Facade.callsOf_cons, List.length_append, ih, List.countP_cons, Nat.add_comm]
    congr 1
    cases hc : Exchange.call? ⟨request, (facade.answer request device).1⟩ with
    | none => simp [hn.mp hc]
    | some call =>
      have hl : request.isLinkLookup = false := by
        simpa [hc] using hn
      simp [hl]

/-- Contents that are equal before a request are equal behind it, although the replay makes the
request only if it counts as a write. -/
theorem contents_replay_one (request : Request) {device replayed : SimulatedDevice}
    (h : replayed.contents = device.contents) :
    (facade.issue (writesOf
        (Exchange.call? ⟨request, (facade.answer request device).1⟩).toList) replayed).contents =
      (facade.answer request device).2.contents := by
  cases hq : Exchange.call? ⟨request, (facade.answer request device).1⟩ with
  | none =>
    have hl := (call?_eq_none_iff _).mp hq
    cases request with
    | tmdsRegister link output => exact h
    | _ => cases hl
  | some call =>
    have hr := records_of_call? hq
    cases hw : call.isWrite with
    | true =>
      have hone : writesOf [call] = [request] := by
        simp [writesOf, hw, hr.request_of_write hw]
      show (facade.issue (writesOf [call]) replayed).contents = _
      rw [hone, withCalls_of_contents h]
      show (facade.answer request (device.withCalls replayed.calls)).2.contents = _
      rw [answer_withCalls]
      rfl
    | false =>
      have hnone : writesOf [call] = [] := by
        simp [writesOf, hw]
      show (facade.issue (writesOf [call]) replayed).contents = _
      rw [hnone, hr.contents_of_read hw]
      exact h

/-- Issued again, the writes bring the contents to where the requests brought them; and at each
point between them, the next call is answered as recorded. -/
theorem replay_writes (requests : List Request) {device replayed : SimulatedDevice}
    (h : replayed.contents = device.contents) :
    (facade.issue (writesOf (facade.callsOf requests device)) replayed).contents =
        (facade.issue requests device).contents ∧
      ∀ before call rest, facade.callsOf requests device = before ++ call :: rest →
        (facade.issue (writesOf before) replayed).Confirms call := by
  induction requests generalizing device replayed with
  | nil =>
    refine ⟨h, fun before call rest hs => ?_⟩
    cases List.append_ne_nil_of_right_ne_nil before (List.cons_ne_nil call rest) hs.symm
  | cons request rest ih =>
    obtain ⟨hend, hconfirms⟩ := ih (contents_replay_one request h)
    rw [Facade.callsOf_cons, writesOf_append, Facade.issue_append]
    refine ⟨hend, fun before call later hs => ?_⟩
    cases hq : Exchange.call? ⟨request, (facade.answer request device).1⟩ with
    | none =>
      rw [hq] at hs hconfirms
      exact hconfirms before call later hs
    | some first =>
      rw [hq] at hs hconfirms
      -- the call is the one of this request, or one of those behind it
      cases before with
      | nil =>
        obtain ⟨rfl, -⟩ := List.cons.inj hs
        exact confirms_of_contents h (records_of_call? hq).confirms
      | cons _ before =>
        obtain ⟨rfl, htail⟩ := List.cons.inj hs
        have hb : writesOf (first :: before) = writesOf [first] ++ writesOf before :=
          writesOf_append [first] before
        rw [hb, Facade.issue_append]
        exact hconfirms before call later htail

structure Agrees (device other : SimulatedDevice) : Prop where
  reg (reg : UInt32) : device.reg reg = other.reg reg
  indexed (port : UInt16) (index : UInt8) : device.indexed port index = other.indexed port index
  port (port : UInt16) : device.port port = other.port port
  i2cRegister (bus addr : UInt8) (reg : UInt16) :
    device.i2cRegister bus addr reg = other.i2cRegister bus addr reg
  auxByte (bus : UInt8) (addr : UInt32) : device.auxByte bus addr = other.auxByte bus addr

theorem agrees_of_contents {device other : SimulatedDevice}
    (h : device.contents = other.contents) : device.Agrees other := by
  rw [withCalls_of_contents h]
  exact ⟨fun _ => rfl, fun _ _ => rfl, fun _ => rfl, fun _ _ _ => rfl, fun _ _ => rfl⟩

/-- Each request but a look-up of a link leaves one call behind the record so far. A replay of the
writes alone leads to a device with the same values, and answers each read between them as
recorded. A failed transfer changes nothing. What a script does to a device is to make requests. -/
theorem record_replays :
    (∀ requests device,
      let after := facade.issue requests device
      let calls := facade.callsOf requests device
      after.calls.toList = device.calls.toList ++ calls ∧
        calls.length = (requests.countP fun request => !request.isLinkLookup) ∧
        (facade.issue (writesOf calls) device).Agrees after ∧
        ∀ before call rest, calls = before ++ call :: rest →
          (facade.issue (writesOf before) device).Confirms call) ∧
    (∀ request device call,
      Exchange.call? ⟨request, (facade.answer request device).1⟩ = some call →
        call.isFailed = true → (facade.answer request device).2.contents = device.contents) ∧
    ∀ {τ : Type} (image : Image) (observer : Observer τ) (limits : Limits) start machine,
      let engine : Engine SimulatedDevice τ := { image, facade, observer, limits }
      ∃ requests,
        (engine.runScript start machine).2.device = facade.issue requests machine.device := by
  refine ⟨fun requests device => ?_, fun request device call h => ?_, ?_⟩
  · obtain ⟨hend, hconfirms⟩ := replay_writes requests (rfl : device.contents = device.contents)
    exact ⟨calls_issue requests device, length_callsOf requests device, agrees_of_contents hend,
      hconfirms⟩
  · exact (records_of_call? h).contents_of_failed
  · intro τ image observer limits start machine engine
    obtain ⟨events, -, hp, -⟩ := engine.chronicle_runScript start machine
    exact hp.exists_issue

/-- Of two writes the first finds no device; what the second one wrote is read back. -/
theorem record_replays_of_transfers :
    let device := blank.withI2cDevice 1 0x50
    let requests : List Request := [.i2cWrite 0 0x50 [1, 2], .i2cWrite 1 0x50 [0xff, 7, 8],
      .tmdsRegister 0 {}, .i2cWriteRead 1 0x50 [0xff] [0, 0]]
    let before : List Call :=
      [.i2cWrite 0 0x50 [1, 2] false, .i2cWrite 1 0x50 [0xff, 7, 8] true]
    let call : Call := .i2cWriteRead 1 0x50 [0xff] [7, 8] true
    facade.callsOf requests device = before ++ call :: [] ∧
      (facade.issue (writesOf before) device).Confirms call := by
  intro device requests before call
  have hcalls : facade.callsOf requests device = before ++ call :: [] := by decide +kernel
  exact ⟨hcalls, (record_replays.1 requests device).2.2.2 before call [] hcalls⟩

end SimulatedDevice

end RomScript
