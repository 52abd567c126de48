import RomScript.Proofs.Effect.Requests
import RomScript.Proofs.Engine.Action

/-!
# Polled conditions

A polled condition reads its register until the entry holds, and pauses between two reads. The
device may answer each read as it likes: the poll ends with the first read at which the entry
holds, or with the last one that the retries allow, and there is no pause behind it.
-/

set_option autoImplicit false

namespace RomScript

namespace ConditionEntry

variable {δ : Type} (entry : ConditionEntry) (facade : Facade δ) (device : δ)

/-- The value of the register in a round of a poll, if the poll goes on up to there. -/
def sample (round : Nat) : UInt32 :=
  (facade.answer (.readReg entry.reg) ((entry.round facade)^[round] device)).1

/-- Reads with a pause of twenty milliseconds behind each but the last one. -/
def polling (pauses : Nat) : List Request :=
  (List.replicate pauses [.readReg entry.reg, .sleepMillis 20]).flatten ++ [.readReg entry.reg]

theorem polling_succ (pauses : Nat) :
    entry.polling (pauses + 1) = .readReg entry.reg :: .sleepMillis 20 :: entry.polling pauses := by
  simp [polling, List.replicate_succ]

end ConditionEntry

namespace Condition

variable {δ : Type} (image : Image) (facade : Facade δ) {index : UInt8}

theorem requests_poll_of_error {cause : ImageError} (h : image.condition index = .error cause)
    (further : Nat) (bench : Bench δ) :
    (poll (registerMet image index) further).requests facade bench = [] ∧
      (poll (registerMet image index) further).run facade bench =
        (.error (.image cause), bench) := by
  cases further <;> unfold poll registerMet <;> rw [h] <;> exact ⟨rfl, rfl⟩

section

variable {image} {entry : ConditionEntry} (h : image.condition index = .ok entry)
  (bench : Bench δ)

include h

theorem requests_registerMet_bind {β : Type} (next : Bool → Effect β) :
    (registerMet image index >>= next).requests facade bench =
      .readReg entry.reg :: (next (decide (entry.Holds facade bench.device))).requests facade
        { bench with device := (facade.answer (.readReg entry.reg) bench.device).2 } := by
  unfold registerMet
  rw [h]
  rfl

theorem requests_registerMet : (registerMet image index).requests facade bench =
    [.readReg entry.reg] := by
  have hbind := requests_registerMet_bind facade h bench pure
  rwa [bind_pure] at hbind

theorem poll_of_holds (further : Nat) (hold : entry.Holds facade bench.device) :
    (poll (registerMet image index) further).requests facade bench = [.readReg entry.reg] ∧
      ((poll (registerMet image index) further).run facade bench).1 = .ok true := by
  cases further with
  | zero =>
    unfold poll
    rw [registerMet_of_entry image facade bench h, decide_eq_true hold]
    exact ⟨requests_registerMet facade h bench, rfl⟩
  | succ further =>
    unfold poll
    rw [requests_registerMet_bind facade h bench, Effect.run_bind,
      registerMet_of_entry image facade bench h, decide_eq_true hold]
    exact ⟨rfl, rfl⟩

theorem poll_of_not_holds (further : Nat) (hold : ¬entry.Holds facade bench.device) :
    let rest := poll (registerMet image index) further
    let paused : Bench δ := { bench with device := entry.round facade bench.device }
    (poll (registerMet image index) (further + 1)).requests facade bench =
        .readReg entry.reg :: .sleepMillis 20 :: rest.requests facade paused ∧
      (poll (registerMet image index) (further + 1)).run facade bench = rest.run facade paused := by
  intro rest paused
  unfold poll
  rw [requests_registerMet_bind facade h bench, Effect.run_bind,
    registerMet_of_entry image facade bench h, decide_eq_false hold]
  exact ⟨rfl, rfl⟩

theorem poll_of_first {pauses further : Nat} (hle : pauses ≤ further)
    (hmet : entry.Holds facade ((entry.round facade)^[pauses] bench.device))
    (hfirst : ∀ past < pauses, ¬entry.Holds facade ((entry.round facade)^[past] bench.device)) :
    (poll (registerMet image index) further).requests facade bench = entry.polling pauses ∧
      ((poll (registerMet image index) further).run facade bench).1 = .ok true := by
  induction pauses generalizing further bench with
  | zero => exact poll_of_holds facade h bench further hmet
  | succ pauses ih =>
    cases further with
    | zero => exact absurd hle (Nat.not_succ_le_zero pauses)
    | succ further =>
      have hold : ¬entry.Holds facade bench.device := hfirst 0 (Nat.succ_pos _)
      obtain ⟨hrequests, hrun⟩ := poll_of_not_holds facade h bench further hold
      rw [hrequests, hrun, entry.polling_succ]
      obtain ⟨hrest, hvalue⟩ :=
        ih { bench with device := entry.round facade bench.device }
          (Nat.le_of_succ_le_succ hle) hmet
          fun past hlt => hfirst (past + 1) (Nat.succ_lt_succ hlt)
      exact ⟨by rw [hrest], hvalue⟩

theorem poll_of_never {further : Nat}
    (hnever : ∀ past < further + 1,
      ¬entry.Holds facade ((entry.round facade)^[past] bench.device)) :
    (poll (registerMet image index) further).requests facade bench = entry.polling further ∧
      ((poll (registerMet image index) further).run facade bench).1 = .ok false := by
  induction further generalizing bench with
  | zero =>
    have hold : ¬entry.Holds facade bench.device := hnever 0 (Nat.succ_pos _)
    unfold poll
    rw [registerMet_of_entry image facade bench h, decide_eq_false hold]
    exact ⟨requests_registerMet facade h bench, rfl⟩
  | succ further ih =>
    have hold : ¬entry.Holds facade bench.device := hnever 0 (Nat.succ_pos _)
    obtain ⟨hrequests, hrun⟩ := poll_of_not_holds facade h bench further hold
    rw [hrequests, hrun, entry.polling_succ]
    obtain ⟨hrest, hvalue⟩ := ih { bench with device := entry.round facade bench.device }
      fun past hlt => hnever (past + 1) (Nat.succ_lt_succ hlt)
    exact ⟨by rw [hrest], hvalue⟩

end

end Condition

namespace Engine

variable {δ τ : Type} (engine : Engine δ τ) (nesting : Nesting δ τ) (offset : Nat)
  (machine : Machine δ τ)

theorem flagBehind_of_condition {op : Condition} (hu : op.unsupported? = none) (scene : Scene δ) :
    let tested := (op.test engine.image scene.state.output).run engine.facade scene.bench
    (tested.1 = .ok true → engine.flagBehind scene (.condition op) = scene.state.execute) ∧
      (tested.1 ≠ .ok true → engine.flagBehind scene (.condition op) = false) := by
  intro tested
  simp only [flagBehind, hu, Option.isSome_none, Bool.false_eq_true, if_false]
  split
  · next hmet => exact ⟨fun _ => rfl, fun hunmet => absurd hmet hunmet⟩
  · next hunmet => exact ⟨fun hmet => absurd hmet hunmet, fun _ => rfl⟩

theorem step_of_condition {op : Condition}
    (hd : Instruction.decode engine.image offset = .ok (.condition op))
    (hu : op.unsupported? = none) (he : machine.state.execute = true) :
    let tested := (op.test engine.image machine.state.output).run engine.facade machine.bench
    let ended := (engine.step nesting offset machine).2
    ended.bench = tested.2 ∧ (tested.1 = .ok true → ended.state = machine.state) ∧
      (tested.1 ≠ .ok true → ended.state = { machine.state with execute := false }) := by
  intro tested ended
  have hn : (Instruction.condition op).opcode.nests = false := by cases op <;> rfl
  have hs : engine.image.Supports (Instruction.condition op).opcode := by cases op <;> exact nofun
  have hscene := engine.step_take nesting offset machine hd hn
  rw [take, if_pos ⟨hs, .inl he⟩] at hscene
  have hstate : ended.state =
      { machine.state with execute := engine.flagBehind machine.scene (.condition op) } :=
    congrArg Scene.state hscene
  obtain ⟨hmet, hunmet⟩ := engine.flagBehind_of_condition hu machine.scene
  refine ⟨?_, fun h => ?_, fun h => ?_⟩
  · have hbench : ended.bench = (engine.act (.condition op) machine.scene).bench :=
      congrArg Scene.bench hscene
    simp only [act, Instruction.effect, hu, Option.isSome_none, Bool.false_eq_true, if_false,
      Effect.run_silently] at hbench
    exact hbench
  · rw [hstate, hmet h]
    rfl
  · rw [hstate, hunmet h]

variable {index retries : UInt8}

/-- With the execute flag on, a polled condition reads its register up to the first round in
which the entry holds, with a pause between two reads, and the flag stays on. If the entry holds
in none of the rounds that the retries allow, it is read in all of them, there is no pause behind
the last one, and the flag goes off. If there is no entry, nothing is asked and the flag goes
off. -/
theorem poll_ends_at_first_success
    (hd : Instruction.decode engine.image offset = .ok (.condition (.polled index retries)))
    (he : machine.state.execute = true) :
    let test := (Condition.polled index retries).test engine.image machine.state.output
    let asked := test.requests engine.facade machine.bench
    let ended := (engine.step nesting offset machine).2
    let attempts := min (max retries.toNat 1) 100
    ended.bench = (test.run engine.facade machine.bench).2 ∧
    ended.device = engine.facade.issue asked machine.device ∧
    (∀ cause, engine.image.condition index = .error cause →
      asked = [] ∧ ended.bench = machine.bench ∧
        ended.state = { machine.state with execute := false }) ∧
    ∀ entry, engine.image.condition index = .ok entry →
      let met (round : Nat) : Prop :=
        entry.sample engine.facade machine.device round &&& entry.mask = entry.value
      (∀ first < attempts, met first → (∀ past < first, ¬met past) →
        asked = entry.polling first ∧ ended.state = machine.state) ∧
      ((∀ past < attempts, ¬met past) →
        asked = entry.polling (attempts - 1) ∧
          ended.state = { machine.state with execute := false }) := by
  intro test asked ended attempts
  obtain ⟨hbench, hmet, hunmet⟩ := engine.step_of_condition nesting offset machine hd rfl he
  have hattempts : attempts = Condition.furtherTests retries + 1 := by
    unfold attempts Condition.furtherTests
    omega
  refine ⟨hbench, ?_, fun cause h => ?_, fun entry h => ?_⟩
  · show ended.bench.device = _
    rw [show ended.bench = _ from hbench]
    exact test.device_run engine.facade machine.bench
  · obtain ⟨hasked, hrun⟩ :=
      Condition.requests_poll_of_error engine.image engine.facade h _ machine.bench
    have htested : test.run engine.facade machine.bench = (.error (.image cause), machine.bench) :=
      hrun
    rw [htested] at hbench hunmet
    exact ⟨hasked, hbench, hunmet nofun⟩
  · intro met
    refine ⟨fun first hlt hfirst hpast => ?_, fun hnever => ?_⟩
    · obtain ⟨hasked, hrun⟩ := Condition.poll_of_first engine.facade h machine.bench
        (by omega : first ≤ Condition.furtherTests retries) hfirst hpast
      exact ⟨hasked, hmet hrun⟩
    · rw [hattempts] at hnever ⊢
      obtain ⟨hasked, hrun⟩ := Condition.poll_of_never engine.facade h machine.bench hnever
      exact ⟨hasked, hunmet fun hholds => nomatch hrun.symm.trans hholds⟩

end Engine

/-- A device whose registers count how often they are read. -/
def SimulatedDevice.counting : Facade SimulatedDevice where
  answer
    | .readReg reg => fun device =>
      let value := device.reg reg
      (value, (device.withReg reg (value + 1)).record (.readReg reg value))
    | request => facade.answer request

/-- Of five tests the third one is the first at which the register has counted to two. -/
theorem Engine.poll_ends_at_first_success_of_counter :
    let engine : Engine SimulatedDevice Unit :=
      { image := .withDirectory ⟨#[0x56, 0, 5, 0x10, 0, 0, 0, 0xff, 0, 0, 0, 2, 0, 0, 0]⟩
          (.ofList [(.conditions, 3)] 0 false)
        facade := SimulatedDevice.counting
        observer := .silent
        limits := {} }
    let machine : Machine SimulatedDevice Unit := .start .blank {} ()
    let entry : ConditionEntry := { reg := 0x10, mask := 0xff, value := 2 }
    let ended := (engine.step engine.outermost 0 machine).2
    Instruction.decode engine.image 0 = .ok (.condition (.polled 0 5)) ∧
      machine.state.execute = true ∧ engine.image.condition 0 = .ok entry ∧
      2 < min (max (5 : UInt8).toNat 1) 100 ∧
      entry.sample engine.facade machine.device 2 &&& entry.mask = entry.value ∧
      (∀ past < 2, entry.sample engine.facade machine.device past &&& entry.mask ≠ entry.value) ∧
      ended.device = engine.facade.issue (entry.polling 2) machine.device ∧
      ended.state = machine.state ∧
      ended.device.calls.toList =
        [.readReg 0x10 0, .sleepMillis 20, .readReg 0x10 1, .sleepMillis 20, .readReg 0x10 2] := by
  intro engine machine entry ended
  have hd : Instruction.decode engine.image 0 = .ok (.condition (.polled 0 5)) := rfl
  have he : engine.image.condition 0 = .ok entry := rfl
  have hmet : entry.sample engine.facade machine.device 2 &&& entry.mask = entry.value := by
    decide +kernel
  have hpast : ∀ past < 2,
      entry.sample engine.facade machine.device past &&& entry.mask ≠ entry.value := by
    decide +kernel
  have hlt : 2 < min (max (5 : UInt8).toNat 1) 100 := by decide
  obtain ⟨-, hdevice, -, hentry⟩ :=
    poll_ends_at_first_success engine engine.outermost 0 machine hd rfl
  obtain ⟨hasked, hstate⟩ := (hentry entry he).1 2 hlt hmet hpast
  rw [hasked] at hdevice
  refine ⟨hd, rfl, he, hlt, hmet, hpast, hdevice, hstate, ?_⟩
  rw [show ended.device = _ from hdevice]
  decide +kernel

end RomScript
