import RomScript.Proofs.Engine.Failure

/-!
# Retelling

The execute flag can be told from the events of a run alone. Instructions that turn it show so at
their end at the latest, those that run others included, and nothing is shown in between that
depends on the flag. What is shown of an instruction then fits the flag that is told: it ran, or
it was stepped over.
-/

set_option autoImplicit false

namespace RomScript

/-- The execute flag behind an event, told from the event. -/
def Event.retold (flag : Bool) : Event → Bool
  | .execute flag => flag
  | _ => flag

/-- An instruction that is shown is the one in the image, and runs under the flag; one that is
stepped over is in the image too, and does not. -/
def Event.Suits (image : Image) (flag : Bool) : Event → Prop
  | .instruction offset shown => Instruction.decode image offset = .ok shown ∧
      (flag = true ∨ shown.opcode.runsWhileSkipping = true)
  | .skip offset opcode => image.opcodeAt? offset = some opcode ∧
      flag = false ∧ opcode.runsWhileSkipping = false
  | _ => True

def Event.isPlain : Event → Bool
  | .instruction .. | .skip .. | .execute _ => false
  | _ => true

theorem Opcode.runsWhileSkipping_iff_mem (opcode : Opcode) :
    opcode.runsWhileSkipping = true ↔ opcode ∈ [Opcode.negate, .resume, .endRepeat, .done] := by
  cases opcode with
  | reserved which => cases which <;> decide
  | _ => decide

namespace Chronicle

def retold (flag : Bool) (events : Chronicle) : Bool :=
  events.foldl (fun flag entry => entry.2.retold flag) flag

theorem retold_append (flag : Bool) (events rest : Chronicle) :
    retold flag (events ++ rest) = retold (retold flag events) rest :=
  List.foldl_append

/-- At every event the flag that is told is the one of the moment. -/
def Truthful (image : Image) : Bool → Chronicle → Prop
  | _, [] => True
  | flag, entry :: rest =>
    (entry.2.retold flag = entry.1.execute ∧ entry.2.Suits image entry.1.execute) ∧
      Truthful image (entry.2.retold flag) rest

theorem truthful_append (image : Image) (flag : Bool) (events rest : Chronicle) :
    Truthful image flag (events ++ rest) ↔
      Truthful image flag events ∧ Truthful image (retold flag events) rest := by
  induction events generalizing flag with
  | nil => simp [Truthful, retold]
  | cons entry events ih =>
    simp only [List.cons_append, Truthful, ih, and_assoc]
    rfl

def Suited (image : Image) (events : Chronicle) : Prop :=
  ∀ ⦃entry⦄, entry ∈ events → entry.2.Suits image entry.1.execute

theorem Suited.nil {image : Image} : Suited image [] := fun _ hmem => absurd hmem List.not_mem_nil

theorem Suited.append {image : Image} {events rest : Chronicle} (h : Suited image events)
    (hr : Suited image rest) : Suited image (events ++ rest) :=
  fun _ hmem => (List.mem_append.mp hmem).elim (@h _) (@hr _)

theorem Truthful.suits {image : Image} {flag : Bool} {events : Chronicle}
    (h : Truthful image flag events) : Suited image events := by
  intro entry he
  obtain ⟨before, after, rfl⟩ := List.append_of_mem he
  exact ((truthful_append image flag before (entry :: after)).mp h).2.1.2

structure Tells (image : Image) (flag : Bool) (events : Chronicle) (last : Bool) : Prop where
  truthful : Truthful image flag events
  last : retold flag events = last

namespace Tells

variable {image : Image} {flag middle last : Bool} {events rest : Chronicle}

theorem nil : Tells image flag [] flag := ⟨trivial, rfl⟩

theorem append (h : Tells image flag events middle) (hr : Tells image middle rest last) :
    Tells image flag (events ++ rest) last := by
  obtain ⟨ht, rfl⟩ := h
  exact ⟨(truthful_append image flag events rest).mpr ⟨ht, hr.truthful⟩,
    (retold_append flag events rest).trans hr.last⟩

theorem one {event : Event} (depth : Nat) (hr : event.retold flag = last)
    (hs : event.Suits image last) :
    Tells image flag [({ depth, execute := last }, event)] last :=
  ⟨⟨⟨hr, hs⟩, trivial⟩, hr⟩

theorem plain {event : Event} (depth : Nat) (hp : event.isPlain = true) :
    Tells image flag [({ depth, execute := flag }, event)] flag := by
  apply one depth
  · cases event <;> first | rfl | cases hp
  · cases event <;> first | exact trivial | cases hp

end Tells

end Chronicle

open Chronicle

namespace Engine

variable {δ τ : Type} (engine : Engine δ τ)

def Recounts (machine after : Machine δ τ) : Prop :=
  ∃ events, Tells engine.image machine.state.execute events after.state.execute ∧
    after.notes = engine.observer.replay events machine.notes

section Recounts

variable {engine} {machine middle after : Machine δ τ}

theorem Recounts.trans (h : engine.Recounts machine middle) (ha : engine.Recounts middle after) :
    engine.Recounts machine after := by
  obtain ⟨events, ht, hn⟩ := h
  obtain ⟨rest, hr, hn'⟩ := ha
  refine ⟨events ++ rest, ht.append hr, ?_⟩
  rw [hn', hn, Observer.replay_append]

theorem recounts_still (he : after.state.execute = machine.state.execute)
    (hn : after.notes = machine.notes) : engine.Recounts machine after := by
  refine ⟨[], ?_, hn⟩
  rw [he]
  exact .nil

theorem recounts_note {depth : Nat} {event : Event}
    (hr : event.retold machine.state.execute = machine.state.execute)
    (hs : event.Suits engine.image machine.state.execute) :
    engine.Recounts machine (engine.note depth event machine).2 :=
  ⟨_, .one depth hr hs, rfl⟩

theorem recounts_plain {depth : Nat} {event : Event} (hp : event.isPlain = true) :
    engine.Recounts machine (engine.note depth event machine).2 :=
  ⟨_, .plain depth hp, rfl⟩

theorem recounts_enclosed {α : Type} (depth target : Nat) {run : MachineM δ τ α}
    (hr : ∀ machine, engine.Recounts machine (run machine).2) (machine : Machine δ τ) :
    engine.Recounts machine (engine.enclosed depth target run machine).2 := by
  let called := (engine.note depth (.call target (depth + 1)) machine).2
  have hcalled : engine.Recounts machine called := recounts_plain rfl
  have hreturned : engine.Recounts (run called).2 (engine.note depth .ret (run called).2).2 :=
    recounts_plain rfl
  exact (hcalled.trans (hr called)).trans hreturned

end Recounts

section Steps

variable {engine} {nesting : Nesting δ τ}
  (hi : ∀ run, nesting.inner = some run →
    ∀ target machine, engine.Recounts machine (run target machine).2)

include hi

theorem recounts_call (target : Nat) (machine : Machine δ τ) :
    engine.Recounts machine (engine.call nesting target machine).2 := by
  cases hn : nesting.inner with
  | none =>
    rw [call_of_none engine hn]
    exact recounts_still rfl rfl
  | some run =>
    have hran := recounts_enclosed nesting.depth target (hi run hn target) machine
    rw [call_of_inner engine hn, MachineM.bind_apply]
    cases (engine.enclosed nesting.depth target (run target) machine).1 with
    | ok report => exact hran
    | error cause => exact hran.trans (recounts_plain rfl)

theorem recounts_callTimes (target times : Nat) (machine : Machine δ τ) :
    engine.Recounts machine (engine.callTimes nesting target times machine).2 := by
  induction times generalizing machine with
  | zero => exact recounts_still rfl rfl
  | succ times ih =>
    have hcall := recounts_call hi target machine
    simp only [callTimes, MachineM.bind_apply]
    cases (engine.call nesting target machine).1 with
    | error cause => exact hcall
    | ok _ => exact hcall.trans (ih _)

/-- The flag as it was put back, or the flag itself: an instruction that turns the flag shows
nothing else. -/
theorem recounts_control (offset length : Nat) (op : Control) (machine : Machine δ τ) :
    let after := (engine.control nesting offset length op machine).2
    engine.Recounts machine after ∨
      engine.Recounts machine (MachineM.setExecute machine.state.execute after).2 := by
  intro after
  cases op with
  | repeatBlock count =>
    have hset (flag : Bool) (machine : Machine δ τ) :
        engine.Recounts machine (MachineM.setRepeating flag machine).2 := recounts_still rfl rfl
    have hpasses := recounts_callTimes hi (offset + length) (count.toNat - 1)
      (MachineM.setRepeating true machine).2
    exact .inl (((hset true machine).trans hpasses).trans (hset machine.state.repeating _))
  | sub index =>
    refine .inl ?_
    show engine.Recounts machine (engine.control nesting offset length (.sub index) machine).2
    simp only [control]
    cases engine.image.scriptPointer index with
    | error cause => exact recounts_still rfl rfl
    | ok target => exact recounts_call hi target.toNat machine
  | subDirect target => exact .inl (recounts_call hi target.toNat machine)
  | reserved which => exact .inl (recounts_plain rfl)
  | endRepeat => exact .inl (recounts_still rfl rfl)
  | done => exact .inl (recounts_still rfl rfl)
  | jump target => exact .inl (recounts_still rfl rfl)
  | negate => exact .inr (recounts_still rfl rfl)
  | resume => exact .inr (recounts_still rfl rfl)

omit hi in
theorem recounts_condition (offset : Nat) (op : Condition) (machine : Machine δ τ) :
    engine.Recounts machine (MachineM.setExecute machine.state.execute
      (engine.condition nesting offset op machine).2).2 := by
  unfold condition
  cases op.unsupported? with
  | some cause => exact recounts_still rfl rfl
  | none =>
    have hstate : (engine.perform (op.test engine.image machine.state.output) machine).2.state =
        machine.state := rfl
    have htested : engine.Recounts machine
        (engine.perform (op.test engine.image machine.state.output) machine).2 :=
      recounts_still rfl rfl
    simp only [MachineM.bind_apply, MachineM.state_apply]
    generalize engine.perform (op.test engine.image machine.state.output) machine = tested
      at hstate htested ⊢
    obtain ⟨verdict, behind⟩ := tested
    have hback : machine.state.execute = behind.state.execute :=
      congrArg ScriptState.execute hstate.symm
    have hnoted : engine.Recounts machine
        (engine.note nesting.depth (.verdict offset verdict) behind).2 :=
      htested.trans (recounts_plain rfl)
    rcases verdict with cause | met | met <;> exact hnoted.trans (recounts_still hback rfl)

omit hi in
theorem recounts_bus (offset : Nat) (op : BusOp) (machine : Machine δ τ) :
    engine.Recounts machine (engine.bus nesting offset op machine).2 := by
  have hnotices (notices : List TransferNotice) (machine : Machine δ τ) : engine.Recounts machine
      ((notices.forM fun notice =>
        engine.note nesting.depth (.transfer offset op.opcode notice)) machine).2 := by
    induction notices generalizing machine with
    | nil => exact recounts_still rfl rfl
    | cons notice rest ih => exact (recounts_plain rfl).trans (ih _)
  have hperformed : engine.Recounts machine
      (engine.perform (op.run machine.state.output) machine).2 := recounts_still rfl rfl
  simp only [bus, MachineM.bind_apply, MachineM.state_apply]
  generalize engine.perform (op.run machine.state.output) machine = performed at hperformed ⊢
  obtain ⟨result, behind⟩ := performed
  cases result with
  | error cause => exact hperformed
  | ok notices => exact hperformed.trans (hnotices notices behind)

theorem recounts_execute (offset length : Nat) (instruction : Instruction)
    (machine : Machine δ τ) :
    let after := (engine.execute nesting offset length instruction machine).2
    engine.Recounts machine after ∨
      engine.Recounts machine (MachineM.setExecute machine.state.execute after).2 := by
  cases instruction with
  | control op => exact recounts_control hi offset length op machine
  | condition op => exact .inr (recounts_condition offset op machine)
  | bus op => exact .inl (recounts_bus offset op machine)
  | register op => exact .inl (recounts_still rfl rfl)
  | port op => exact .inl (recounts_still rfl rfl)
  | clock op => exact .inl (recounts_still rfl rfl)
  | board op => exact .inl (recounts_still rfl rfl)

omit hi in
theorem recounts_announce {machine executed : Machine δ τ} (offset : Nat) (opcode : Opcode)
    {result : Except InstructionError Step}
    (hf : ∀ cause, result = .error cause → executed.state = machine.state)
    (h : engine.Recounts machine executed ∨
      engine.Recounts machine (MachineM.setExecute machine.state.execute executed).2) :
    engine.Recounts machine
      (engine.announce nesting offset opcode machine.state.execute result executed).2 := by
  let shown (noted : Machine δ τ) : Machine δ τ :=
    ((if noted.state.execute != machine.state.execute || opcode.isCondition then
      engine.note nesting.depth (.execute noted.state.execute) else pure ()) noted).2
  have hshown (noted : Machine δ τ) (hn : engine.Recounts machine noted) :
      engine.Recounts machine (shown noted) := by
    by_cases hs : noted.state.execute != machine.state.execute || opcode.isCondition
    · simp only [shown, if_pos hs]
      exact hn.trans (recounts_note rfl trivial)
    · simp only [shown, if_neg hs]
      exact hn
  have hput {noted : Machine δ τ} (he : noted.state.execute = machine.state.execute) :
      (MachineM.setExecute machine.state.execute noted).2 = noted := by
    rw [MachineM.setExecute_apply, ← he]
  cases result with
  | error cause =>
    have hsame : executed.state.execute = machine.state.execute :=
      congrArg ScriptState.execute (hf cause rfl)
    rw [hput hsame, or_self] at h
    exact hshown _ (h.trans (recounts_plain rfl))
  | ok next =>
    rcases h with h | h
    · exact hshown executed h
    · -- the flag that was put back is not the one behind the instruction, unless this is shown
      show engine.Recounts machine (shown executed)
      by_cases hs : executed.state.execute != machine.state.execute || opcode.isCondition
      · simp only [shown, if_pos hs]
        have hturned : engine.Recounts (MachineM.setExecute machine.state.execute executed).2
            (engine.note nesting.depth (.execute executed.state.execute) executed).2 :=
          ⟨[({ depth := nesting.depth, execute := executed.state.execute },
            .execute executed.state.execute)], .one nesting.depth rfl trivial, rfl⟩
        exact h.trans hturned
      · simp only [shown, if_neg hs]
        rw [hput (by simp at hs; exact hs.1)] at h
        exact h

theorem recounts_runInstruction (offset length : Nat) (instruction : Instruction)
    (machine : Machine δ τ)
    (hs : (Event.instruction offset instruction).Suits engine.image machine.state.execute) :
    engine.Recounts machine (engine.runInstruction nesting offset length instruction.opcode
      instruction machine).2 := by
  let noted := (engine.note nesting.depth (.instruction offset instruction) machine).2
  have hnoted : engine.Recounts machine noted := recounts_note rfl hs
  have hfailed (cause : InstructionError)
      (h : (engine.execute nesting offset length instruction noted).1 = .error cause) :
      (engine.execute nesting offset length instruction noted).2.state = noted.state :=
    (engine.execute_of_error nesting offset length noted h).1
  exact hnoted.trans (recounts_announce offset instruction.opcode hfailed
    (recounts_execute hi offset length instruction noted))

theorem recounts_stepKnown (offset length : Nat) {opcode : Opcode} (machine : Machine δ τ)
    (ho : engine.image.opcodeAt? offset = some opcode) :
    engine.Recounts machine (engine.stepKnown nesting offset length opcode machine).2 := by
  rcases engine.stepKnown_cases nesting offset length machine opcode with
    ⟨he, hw, hk⟩ | ⟨he, ⟨cause, -, hk⟩ | ⟨instruction, hd, hk⟩⟩
  · rw [hk]
    exact recounts_note rfl ⟨ho, he, hw⟩
  · rw [hk]
    exact recounts_plain rfl
  · rw [hk]
    obtain rfl := Option.some.inj (ho.symm.trans (Instruction.decode_opcode hd).1)
    exact recounts_runInstruction hi offset length instruction machine ⟨hd, he⟩

theorem recounts_step (offset : Nat) (machine : Machine δ τ) :
    engine.Recounts machine (engine.step nesting offset machine).2 := by
  have hdispatched : engine.Recounts machine (engine.dispatched nesting offset machine) :=
    recounts_plain rfl
  rcases engine.step_cases nesting offset machine with ⟨-, hs⟩ | ⟨id, -, -, hs⟩ |
    ⟨opcode, ho, ⟨-, hs⟩ | ⟨-, ⟨cause, -, hs⟩ | ⟨length, next, after, -, hk, hs⟩⟩⟩
  · rw [hs]
    exact hdispatched
  · rw [hs]
    exact hdispatched.trans (recounts_plain rfl)
  · rw [hs]
    exact hdispatched.trans (recounts_plain rfl)
  · rw [hs]
    exact hdispatched
  · have hknown := recounts_stepKnown hi offset length (engine.dispatched nesting offset machine) ho
    rw [hk] at hknown
    rw [hs]
    exact hdispatched.trans hknown

omit hi in
theorem recounts_proceed (start cursor ops : Nat) {go : Nat → MachineM δ τ Outcome}
    (hg : ∀ next machine, engine.Recounts machine (go next machine).2)
    (next : Except UnknownOpcode Step) (machine : Machine δ τ) :
    engine.Recounts machine
      (engine.proceed nesting.depth start cursor ops go next machine).2 := by
  rcases next with cause | distance | _ | _
  · exact recounts_still rfl rfl
  · simp only [proceed]
    cases advance? cursor distance with
    | some target => exact hg target machine
    | none => exact recounts_plain rfl
  · exact recounts_still rfl rfl
  · exact recounts_plain rfl

theorem recounts_walk (start left cursor : Nat) (machine : Machine δ τ) :
    engine.Recounts machine (engine.walk nesting start left cursor machine).2 := by
  induction left generalizing cursor machine with
  | zero =>
    rcases Nat.lt_or_ge cursor engine.image.length with hlt | hle
    · rw [walk_zero engine nesting machine start cursor hlt]
      exact recounts_plain rfl
    · rw [walk_of_le engine nesting machine start 0 cursor hle]
      exact recounts_plain rfl
  | succ left ih =>
    rcases Nat.lt_or_ge cursor engine.image.length with hlt | hle
    · rw [walk_succ engine nesting start left cursor hlt]
      exact (recounts_step hi cursor machine).trans (recounts_proceed start cursor _ ih _ _)
    · rw [walk_of_le engine nesting machine start (left + 1) cursor hle]
      exact recounts_plain rfl

theorem recounts_runAt (start : Nat) (machine : Machine δ τ) :
    engine.Recounts machine (engine.runAt nesting start machine).2 := by
  unfold runAt
  by_cases h : start = 0
  · rw [if_pos h]
    exact recounts_still rfl rfl
  · rw [if_neg h]
    exact recounts_walk hi start _ start machine

end Steps

section Runs

variable (room start : Nat) (machine : Machine δ τ)

theorem recounts_nesting :
    engine.Recounts machine (engine.runAt (engine.nesting room) start machine).2 := by
  induction room generalizing start machine with
  | zero =>
    refine recounts_runAt (fun run hrun => ?_) start machine
    cases hrun
  | succ room ih =>
    refine recounts_runAt (fun run hrun target machine => ?_) start machine
    cases hrun
    exact ih target machine

theorem recounts_runScript : engine.Recounts machine (engine.runScript start machine).2 := by
  have hcleared : engine.Recounts machine (MachineM.clearColumn machine).2 :=
    recounts_still rfl rfl
  have hbegun : engine.Recounts (MachineM.clearColumn machine).2 (engine.begun machine start) :=
    recounts_plain rfl
  exact (hcleared.trans hbegun).trans (engine.recounts_nesting _ start _)

variable {engine machine} in
theorem tells_chronicle {α : Type} {action : MachineM δ (τ × Chronicle) α}
    (h : engine.recorded.Recounts { machine with notes := (machine.notes, []) }
      (action { machine with notes := (machine.notes, []) }).2) :
    Tells engine.image machine.state.execute (chronicle action machine)
      (action { machine with notes := (machine.notes, []) }).2.state.execute := by
  obtain ⟨events, ht, hn⟩ := h
  rw [engine.chronicle_of_notes hn]
  exact ht

variable {room} in
theorem state_recorded (hr : room ≤ engine.limits.maxDepth) (past : Chronicle) :
    (engine.recorded.runAt (engine.recorded.nesting room) start
        { machine with notes := (machine.notes, past) }).2.state =
      (engine.runAt (engine.nesting room) start machine).2.state := by
  obtain ⟨events, -, -, hsame⟩ :=
    concur_recorded (concur_runAt (engine.matched_recorded hr) start) machine past
  exact congrArg (fun ended => ended.2.state) hsame

variable {room} in
theorem tells_runAt (hr : room ≤ engine.limits.maxDepth) :
    Tells engine.image machine.state.execute
      (chronicle (engine.recorded.runAt (engine.recorded.nesting room) start) machine)
      (engine.runAt (engine.nesting room) start machine).2.state.execute := by
  rw [← engine.state_recorded start machine hr []]
  exact tells_chronicle (engine.recorded.recounts_nesting room start _)

theorem tells_runScript :
    Tells engine.image machine.state.execute (chronicle (engine.recorded.runScript start) machine)
      (engine.runScript start machine).2.state.execute := by
  have hlast := engine.state_recorded start (engine.begun machine start) (Nat.le_refl _)
    [({ depth := 0, execute := machine.state.execute }, .script start)]
  have hlast : (engine.recorded.runScript start
      { machine with notes := (machine.notes, []) }).2.state =
    (engine.runScript start machine).2.state := hlast
  rw [← hlast]
  exact tells_chronicle (engine.recorded.recounts_runScript start _)

end Runs

/-- The execute flag told from the events, beginning with the flag before them, is at each of them
the flag of the moment, and at the end the last one. Instructions are stepped over with the flag
off, and run with the flag on, but for the four that run in any case. -/
structure Faithful (flag : Bool) (events : Chronicle) (last : Bool) : Prop where
  moments : ∀ before moment event after, events = before ++ (moment, event) :: after →
    event.retold (retold flag before) = moment.execute
  last : retold flag events = last
  skips : ∀ moment offset opcode, (moment, Event.skip offset opcode) ∈ events →
    moment.execute = false ∧ opcode ∉ [Opcode.negate, .resume, .endRepeat, .done]
  instructions : ∀ moment offset instruction,
    (moment, Event.instruction offset instruction) ∈ events →
      moment.execute = true ∨ instruction.opcode ∈ [Opcode.negate, .resume, .endRepeat, .done]

theorem faithful_of_tells {image : Image} {flag last : Bool} {events : Chronicle}
    (h : Tells image flag events last) : Faithful flag events last := by
  constructor
  · rintro before moment event after rfl
    exact ((truthful_append image flag before _).mp h.truthful).2.1.1
  · exact h.last
  · intro moment offset opcode hmem
    obtain ⟨-, hoff, hr⟩ := h.truthful.suits hmem
    rw [← Opcode.runsWhileSkipping_iff_mem, hr]
    exact ⟨hoff, nofun⟩
  · intro moment offset instruction hmem
    rw [← Opcode.runsWhileSkipping_iff_mem]
    exact (h.truthful.suits hmem).2

/-- The events of every run, outermost or nested, tell of the execute flag. -/
theorem retelling_faithful :
    (∀ room ≤ engine.limits.maxDepth, ∀ start machine,
      Faithful machine.state.execute
        (chronicle (engine.recorded.runAt (engine.recorded.nesting room) start) machine)
        (engine.runAt (engine.nesting room) start machine).2.state.execute) ∧
    ∀ start machine,
      Faithful machine.state.execute (chronicle (engine.recorded.runScript start) machine)
        (engine.runScript start machine).2.state.execute := by
  constructor
  · intro room hr start machine
    exact faithful_of_tells (engine.tells_runAt start machine hr)
  · intro start machine
    exact faithful_of_tells (engine.tells_runScript start machine)

/-- A called script turns the flag off and meets an unknown opcode; its caller steps over the next
instruction. -/
theorem retelling_faithful_of_aborted :
    let engine : Engine SimulatedDevice Unit :=
      { image := .ofScript ⟨#[0, 0x5b, 0x06, 0x00, 0x74, 0x71, 0x38, 0xff]⟩
        facade := SimulatedDevice.facade
        observer := .silent
        limits := {} }
    let machine : Machine SimulatedDevice Unit := .start .blank {} ()
    let events := chronicle (engine.recorded.runAt (engine.recorded.nesting 1) 1) machine
    1 ≤ engine.limits.maxDepth ∧
      events.filterMap (fun entry => match entry.2 with
        | .execute flag => some flag
        | _ => none) = [false, false] ∧
      Faithful true events false := by
  intro engine machine events
  have hr : 1 ≤ engine.limits.maxDepth := by decide
  have hlast : (engine.runAt (engine.nesting 1) 1 machine).2.state.execute = false := by
    decide +kernel
  have hfaithful := (retelling_faithful engine).1 1 hr 1 machine
  rw [hlast] at hfaithful
  exact ⟨hr, by decide +kernel, hfaithful⟩

end Engine

end RomScript
