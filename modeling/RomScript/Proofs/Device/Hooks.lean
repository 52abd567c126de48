import RomScript.Proofs.Device.Replay
import RomScript.Proofs.Engine.Lockstep

/-!
# Boards without hooks

A board may have no memory probe, no GPIO reset and no TMDS links. No script can tell such a
board from a device without links: the probe and the reset answer nothing, and a link that is
missing is missing on both. Only the calls of the probe and of the reset are not in its record.
-/

set_option autoImplicit false

namespace RomScript

def Request.isHook : Request → Bool
  | .computeMemory | .resetGpios _ | .tmdsRegister .. => true
  | _ => false

def Call.isHook : Call → Bool
  | .computeMemory | .resetGpios _ => true
  | _ => false

def withoutHooks (calls : List Call) : List Call := calls.filter fun call => !call.isHook

theorem withoutHooks_append (calls rest : List Call) :
    withoutHooks (calls ++ rest) = withoutHooks calls ++ withoutHooks rest :=
  List.filter_append calls rest

theorem withoutHooks_eq_self {calls : List Call} (h : ∀ call ∈ calls, call.isHook = false) :
    withoutHooks calls = calls :=
  List.filter_eq_self.mpr fun call hc => by rw [h call hc]; rfl

theorem Exchange.isHook_of_call? {exchange : Exchange} {call : Call}
    (h : exchange.call? = some call) (hr : exchange.request.isHook = false) :
    call.isHook = false := by
  obtain ⟨request, answer⟩ := exchange
  cases request <;> first | (cases Option.some.inj h; rfl) | cases hr

theorem Facade.answer_bare {δ : Type} (facade : Facade δ) {request : Request}
    (h : request.isHook = false) : facade.bare.answer request = facade.answer request := by
  cases request <;> first | rfl | cases h

namespace SimulatedDevice

structure Linkless (device : SimulatedDevice) : Prop where
  tmds : device.tmds = .empty
  headTmds : device.headTmds = .empty

theorem Linkless.answer {device : SimulatedDevice} (h : device.Linkless) (request : Request) :
    (facade.answer request device).2.Linkless := by
  have hsame : (facade.answer request device).2.tmds = device.tmds ∧
      (facade.answer request device).2.headTmds = device.headTmds := by
    cases request with
    | i2cWrite bus addr message =>
      simp only [facade, i2cWrite]
      cases device.i2cTarget bus addr <;> exact ⟨rfl, rfl⟩
    | i2cWriteRead bus addr message buffer =>
      simp only [facade, i2cWriteRead]
      cases device.i2cTarget bus addr <;> exact ⟨rfl, rfl⟩
    | auxRead bus addr buffer =>
      simp only [facade, auxRead]
      cases device.auxTarget bus addr <;> exact ⟨rfl, rfl⟩
    | auxWrite bus addr data =>
      simp only [facade, auxWrite]
      cases device.auxTarget bus addr <;> exact ⟨rfl, rfl⟩
    | programPll reg khz =>
      simp only [facade, programPll]
      by_cases hr : reg ∈ device.failingPlls
      · rw [if_pos hr]
        exact ⟨rfl, rfl⟩
      · rw [if_neg hr]
        exact ⟨rfl, rfl⟩
    | _ => exact ⟨rfl, rfl⟩
  exact ⟨hsame.1.trans h.tmds, hsame.2.trans h.headTmds⟩

theorem Linkless.tmdsLink {device : SimulatedDevice} (h : device.Linkless) (link : UInt8)
    (output : Output) : device.tmdsLink link output = none := by
  rw [SimulatedDevice.tmdsLink, h.tmds, h.headTmds]
  rfl

/-- A device without links and the bare board of the same contents. Behind the past calls, the
board has recorded what the device has, but for its hooks. -/
structure Stripped (past : List Call) (device board : SimulatedDevice) : Prop where
  contents : board.contents = device.contents
  linkless : device.Linkless
  calls : ∃ calls, device.calls.toList = past ++ calls ∧
    board.calls.toList = past ++ withoutHooks calls

theorem stripped_self {device : SimulatedDevice} (h : device.Linkless) :
    Stripped device.calls.toList device device :=
  ⟨rfl, h, [], (List.append_nil _).symm, (List.append_nil _).symm⟩

section Stripped

variable {past : List Call} {device board : SimulatedDevice} {request : Request}

/-- A hook is recorded by the device alone, and changes nothing else. -/
theorem Stripped.record (h : Stripped past device board) {call : Call} (hc : call.isHook = true) :
    Stripped past (device.record call) board := by
  obtain ⟨calls, hd, hb⟩ := h.calls
  refine ⟨h.contents, ⟨h.linkless.tmds, h.linkless.headTmds⟩, calls ++ [call], ?_, ?_⟩
  · rw [toList_calls_record, hd, List.append_assoc]
  · have hnone : withoutHooks [call] = [] := by simp [withoutHooks, hc]
    rw [withoutHooks_append, hnone, List.append_nil, hb]

theorem Stripped.answer (h : Stripped past device board) (hr : request.isHook = false) :
    (facade.answer request board).1 = (facade.answer request device).1 ∧
      Stripped past (facade.answer request device).2 (facade.answer request board).2 := by
  have hanswer := answer_withCalls request device board.calls
  rw [← withCalls_of_contents h.contents] at hanswer
  have hsame : (facade.answer request board).1 = (facade.answer request device).1 := by
    rw [hanswer]
  have hcontents : (facade.answer request board).2.contents =
      (facade.answer request device).2.contents := by
    rw [hanswer]
    rfl
  obtain ⟨calls, hd, hb⟩ := h.calls
  let added := (Exchange.call? ⟨request, (facade.answer request device).1⟩).toList
  have hadded : withoutHooks added = added :=
    withoutHooks_eq_self fun call hc => Exchange.isHook_of_call? (Option.mem_toList.mp hc) hr
  refine ⟨hsame, hcontents, h.linkless.answer request, calls ++ added, ?_, ?_⟩
  · rw [calls_answer, hd, List.append_assoc]
  · rw [calls_answer, hsame, hb, withoutHooks_append, hadded, List.append_assoc]

end Stripped

theorem agrees_bare (past : List Call) : facade.Agrees facade.bare (Stripped past) := by
  intro request device board h
  cases hr : request.isHook with
  | false =>
    rw [facade.answer_bare hr]
    exact h.answer hr
  | true =>
    cases request with
    | computeMemory => exact ⟨rfl, h.record rfl⟩
    | resetGpios excluded => exact ⟨rfl, h.record rfl⟩
    | tmdsRegister link output => exact ⟨(h.linkless.tmdsLink link output).symm, h⟩
    | _ => cases hr

end SimulatedDevice

open SimulatedDevice

namespace Engine

def onBareBoard {δ τ : Type} (engine : Engine δ τ) : Engine δ τ :=
  engine.elsewhere engine.facade.bare engine.observer

variable {τ : Type} (engine : Engine SimulatedDevice τ) (start : Nat)
  (machine : Machine SimulatedDevice τ)

/-- On a bare board and on a device without links a script ends alike, in the same state and with
the same events shown, and leaves the same contents. The calls that it adds to the record of the
board are those that it adds to the record of the device, without the probes and the resets. -/
theorem hooks_unnoticed (hf : engine.facade = SimulatedDevice.facade)
    (ht : machine.device.tmds = .empty) (hh : machine.device.headTmds = .empty) :
    let ran := engine.runScript start machine
    let bare := engine.onBareBoard.runScript start machine
    bare.1 = ran.1 ∧ bare.2.state = ran.2.state ∧ bare.2.notes = ran.2.notes ∧
    chronicle (engine.onBareBoard.recorded.runScript start) machine =
      chronicle (engine.recorded.runScript start) machine ∧
    bare.2.device.contents = ran.2.device.contents ∧ bare.2.device.Agrees ran.2.device ∧
    (∃ calls, ran.2.device.calls.toList = machine.device.calls.toList ++ calls ∧
      bare.2.device.calls.toList = machine.device.calls.toList ++ withoutHooks calls) ∧
    ((∀ call ∈ machine.device.calls.toList, call.isHook = false) →
      bare.2.device.calls.toList = withoutHooks ran.2.device.calls.toList) := by
  intro ran bare
  have hagrees : engine.facade.Agrees engine.facade.bare
      (Stripped machine.device.calls.toList) := hf ▸ agrees_bare _
  have hrecords : engine.recorded.facade.Agrees engine.facade.bare
      (Stripped machine.device.calls.toList) := hagrees
  have hsame {υ : Type} (observer : Observer υ) : observer.Agrees observer Eq :=
    fun moment event _ _ h => congrArg (observer.note moment event) h
  have hstripped := stripped_self ⟨ht, hh⟩
  obtain ⟨hvalue, htied⟩ := lockstep_runScript hagrees (hsame engine.observer) start machine
    machine ⟨hstripped, rfl, rfl, rfl⟩
  obtain ⟨-, hrecorded⟩ := lockstep_runScript hrecords (hsame engine.recorded.observer) start
    { machine with notes := (machine.notes, []) } { machine with notes := (machine.notes, []) }
    ⟨hstripped, rfl, rfl, rfl⟩
  have hcontents : bare.2.device.contents = ran.2.device.contents := htied.device.contents
  obtain ⟨calls, hran, hbare⟩ : ∃ calls,
    ran.2.device.calls.toList = machine.device.calls.toList ++ calls ∧
      bare.2.device.calls.toList = machine.device.calls.toList ++ withoutHooks calls :=
    htied.device.calls
  refine ⟨hvalue, htied.state, htied.notes.symm, ?_, hcontents, agrees_of_contents hcontents,
    ⟨calls, hran, hbare⟩, fun hpast => ?_⟩
  · exact congrArg (fun notes : τ × Chronicle => notes.2.reverse) hrecorded.notes.symm
  · rw [hran, hbare, withoutHooks_append, withoutHooks_eq_self hpast]

/-- A probe, a reset, a link that is missing, and a write. -/
theorem hooks_unnoticed_of_missing_link :
    let engine : Engine SimulatedDevice Unit :=
      { image := .ofScript
          ⟨#[0, 0x63, 0xa9, 1, 7, 0x4f, 0, 1, 2, 3, 0x7a, 0x10, 0, 0, 0, 1, 0, 0, 0, 0x71]⟩
        facade := SimulatedDevice.facade
        observer := .silent
        limits := {} }
    let machine : Machine SimulatedDevice Unit := .start .blank {} ()
    machine.device.tmds = .empty ∧ machine.device.headTmds = .empty ∧
      (engine.runScript 1 machine).2.device.calls.toList =
        [.computeMemory, .resetGpios [7], .writeReg 0x10 1] ∧
      (engine.onBareBoard.runScript 1 machine).2.device.calls.toList = [.writeReg 0x10 1] ∧
      (engine.onBareBoard.runScript 1 machine).1 = (engine.runScript 1 machine).1 := by
  intro engine machine
  obtain ⟨hvalue, -, -, -, -, -, -, hcalls⟩ := hooks_unnoticed engine 1 machine rfl rfl rfl
  have hran : (engine.runScript 1 machine).2.device.calls.toList =
      [.computeMemory, .resetGpios [7], .writeReg 0x10 1] := by decide +kernel
  refine ⟨rfl, rfl, hran, ?_, hvalue⟩
  rw [hcalls nofun, hran]
  rfl

end Engine

end RomScript
