import RomScript.Proofs.Engine.Disassembly
import RomScript.Proofs.Engine.Journey
import RomScript.Proofs.Engine.Skipping

/-!
# Runs at rest

The beginnings among the milestones of a run are its dispatches. While no instruction begins that
turns the execute flag on, a run rests from the first milestone with the flag off: at every later
one the flag is off, and the device as it was.
-/

set_option autoImplicit false

namespace RomScript

open Chronicle Milestone

namespace Scene

variable {δ : Type} {scene middle after : Scene δ}

/-- With the execute flag off, it stays off and the device is left alone. -/
def Rests (scene after : Scene δ) : Prop :=
  scene.state.execute = false → after.state.execute = false ∧ after.bench = scene.bench

theorem Rests.trans (h : scene.Rests middle) (ha : middle.Rests after) : scene.Rests after := by
  intro he
  obtain ⟨hm, hb⟩ := h he
  obtain ⟨he, hb'⟩ := ha hm
  exact ⟨he, hb'.trans hb⟩

theorem rests_of_same (he : after.state.execute = scene.state.execute)
    (hb : after.bench = scene.bench) : scene.Rests after :=
  fun h => ⟨he.trans h, hb⟩

def Path : List (Milestone δ) → Scene δ → Scene δ → Prop
  | [], scene, after => scene.Rests after
  | point :: rest, scene, after => scene.Rests point.scene ∧ Path rest point.scene after

theorem Path.append {points rest : List (Milestone δ)} (h : Path points scene middle)
    (hr : Path rest middle after) : Path (points ++ rest) scene after := by
  have hbefore {first : Scene δ} (hf : first.Rests middle) : Path rest first after := by
    cases rest with
    | nil => exact hf.trans hr
    | cons point rest => exact ⟨hf.trans hr.1, hr.2⟩
  induction points generalizing scene with
  | nil => exact hbefore h
  | cons point points ih => exact ⟨h.1, ih h.2⟩

theorem Path.rests {points : List (Milestone δ)} (h : Path points scene after) :
    (∀ point ∈ points, scene.Rests point.scene) ∧ scene.Rests after := by
  induction points generalizing scene with
  | nil => exact ⟨nofun, h⟩
  | cons point points ih =>
    obtain ⟨hp, ha⟩ := ih h.2
    exact ⟨List.forall_mem_cons.mpr ⟨h.1, fun next hn => h.1.trans (hp next hn)⟩, h.1.trans ha⟩

theorem Path.pairwise {points : List (Milestone δ)} (h : Path points scene after) :
    (scene :: points.map Milestone.scene ++ [after]).Pairwise Rests := by
  induction points generalizing scene with
  | nil => exact List.pairwise_pair.mpr h
  | cons point points ih =>
    obtain ⟨hpoints, hafter⟩ := h.rests
    refine List.pairwise_cons.mpr ⟨fun next hn => ?_, ih h.2⟩
    rcases List.mem_append.mp hn with hn | hn
    · obtain ⟨point', hmem, rfl⟩ := List.mem_map.mp hn
      exact hpoints point' hmem
    · obtain rfl := List.mem_singleton.mp hn
      exact hafter

end Scene

namespace Engine

variable {δ τ : Type} (engine : Engine δ τ)

def Sleeps (begun : List (Moment × Nat)) : Prop :=
  ∀ entry ∈ begun, engine.image.wakes entry.2 = false

/-! ## At rest -/

section Rests

variable {engine} {offset : Nat} {scene after : Scene δ}

/-- With the execute flag off, only what turns it on does anything. -/
theorem turn_rests (h : engine.image.wakes offset = false) :
    scene.Rests (engine.turn offset scene) := by
  intro he
  unfold turn
  cases hd : Instruction.decode engine.image offset with
  | error cause => exact ⟨he, rfl⟩
  | ok instruction =>
    have ho := (Instruction.decode_opcode hd).1
    rw [Image.wakes, ho] at h
    simp only [take]
    split
    · rename_i hruns
      have hskip : instruction.opcode.runsWhileSkipping = true := by
        simpa [he] using hruns.2
      obtain ⟨op, hop, -⟩ := engine.decode_of_runsWhileSkipping offset ho hskip
      obtain rfl := Except.ok.inj (hd.symm.trans hop)
      cases op <;> first | exact ⟨he, rfl⟩ | cases h
    · exact ⟨he, rfl⟩

theorem Journey.path {points : List (Milestone δ)} (h : engine.Journey scene points after)
    (hs : engine.Sleeps (beginnings points)) : Scene.Path points scene after := by
  have hsame (scene : Scene δ) : scene.Rests scene := Scene.rests_of_same rfl rfl
  induction h with
  | rest bench execute => exact Scene.rests_of_same execute bench
  | append _ _ ihf ihs =>
    rw [beginnings_append] at hs
    have hs : engine.Sleeps (beginnings _) ∧ engine.Sleeps (beginnings _) :=
      List.forall_mem_append.mp hs
    exact (ihf hs.1).append (ihs hs.2)
  | turn depth offset scene still =>
    exact ⟨hsame scene, turn_rests (hs _ List.mem_cons_self), hsame _⟩
  | @call depth offset scene after points nests inner ih =>
    let ends : Milestone δ := { depth, begins? := none, scene := after }
    have hrest : engine.Sleeps (beginnings (points ++ [ends])) := (List.forall_mem_cons.mp hs).2
    rw [beginnings_append] at hrest
    have hinner : engine.Sleeps (beginnings points) := (List.forall_mem_append.mp hrest).1
    exact ⟨hsame scene, (ih hinner).append ⟨hsame after, hsame after⟩⟩

end Rests

/-! ## Beginnings -/

/-- From one machine to the other the observer is shown events whose dispatches are the beginnings
among the milestones. -/
def Begins (points : List (Milestone δ)) (machine after : Machine δ τ) : Prop :=
  ∃ events, after.notes = engine.observer.replay events machine.notes ∧
    dispatchList events = beginnings points

section Begins

variable {engine} {machine middle after : Machine δ τ} {points rest : List (Milestone δ)}

theorem Begins.append (h : engine.Begins points machine middle)
    (hr : engine.Begins rest middle after) :
    engine.Begins (points ++ rest) machine after := by
  obtain ⟨events, hn, hb⟩ := h
  obtain ⟨events', hn', hb'⟩ := hr
  refine ⟨events ++ events', ?_, ?_⟩
  · rw [hn', hn, Observer.replay_append]
  · rw [dispatchList_append, beginnings_append, hb, hb']

theorem begins_of_costs {α : Type} {action : MachineM δ τ α} {depth own : Nat}
    (h : engine.Costs depth own 0 action) (machine : Machine δ τ) :
    engine.Begins [] machine (action machine).2 := by
  obtain ⟨events, ha, hn⟩ := h machine
  exact ⟨events, hn, dispatchList_of_account ha⟩

theorem begins_note {depth : Nat} {event : Event} (h : event.isDispatch = false) :
    engine.Begins [] machine (engine.note depth event machine).2 := by
  refine ⟨[({ depth, execute := machine.state.execute }, event)], rfl, ?_⟩
  cases event <;> first | rfl | cases h

end Begins

structure Inner (nesting : Nesting δ τ) (inside : Nat → Machine δ τ → List (Milestone δ)) :
    Prop where
  none : nesting.inner = none → ∀ target machine, inside target machine = []
  run : ∀ run, nesting.inner = some run → ∀ target machine,
    engine.Begins (inside target machine) machine (run target machine).2

section Steps

variable {engine} {nesting : Nesting δ τ} {inside : Nat → Machine δ τ → List (Milestone δ)}
  (hi : engine.Inner nesting inside)

include hi

theorem begins_call (target : Nat) (machine : Machine δ τ) :
    engine.Begins (inside target (engine.called nesting target machine)) machine
      (engine.call nesting target machine).2 := by
  cases hn : nesting.inner with
  | none =>
    rw [hi.none hn, call_of_none engine hn]
    exact ⟨[], rfl, rfl⟩
  | some run =>
    have hcalled : engine.Begins [] machine (engine.called nesting target machine) :=
      begins_note rfl
    have hrun := hi.run run hn target (engine.called nesting target machine)
    have hshown (event : Event) (h : event.isDispatch = false) (ended : Machine δ τ) :
        engine.Begins [] ended (engine.note nesting.depth event ended).2 := begins_note h
    have hreturned : engine.Begins (inside target (engine.called nesting target machine)) machine
        (engine.enclosed nesting.depth target (run target) machine).2 := by
      have hall := (hcalled.append hrun).append (hshown .ret rfl _)
      rw [List.append_nil] at hall
      exact hall
    rw [call_of_inner engine hn]
    simp only [MachineM.bind_apply]
    cases (engine.enclosed nesting.depth target (run target) machine).1 with
    | ok report => exact hreturned
    | error cause =>
      have hall := hreturned.append (hshown (.aborted target cause) rfl _)
      rw [List.append_nil] at hall
      exact hall

theorem begins_passes (target times : Nat) (machine : Machine δ τ) :
    engine.Begins (engine.passMilestones nesting inside target times machine) machine
      (engine.callTimes nesting target times machine).2 := by
  induction times generalizing machine with
  | zero => exact ⟨[], rfl, rfl⟩
  | succ times ih =>
    have hcall := begins_call hi target machine
    simp only [passMilestones, callTimes, MachineM.bind_apply]
    cases hr : (engine.call nesting target machine).1 with
    | error cause =>
      rw [passMilestones_of_none _ _ (hi.none (inner_of_call_error engine hr)), List.append_nil]
      exact hcall
    | ok _ => exact hcall.append (ih _)

theorem begins_execute {own : Nat} (hw : engine.Within nesting own) (offset : Nat)
    (instruction : Instruction) (machine : Machine δ τ) :
    engine.Begins (engine.innerMilestones nesting inside offset machine instruction) machine
      (engine.execute nesting offset instruction.size instruction machine).2 := by
  cases instruction with
  | control op =>
    cases op with
    | repeatBlock count =>
      have hset (flag : Bool) (machine : Machine δ τ) :
          engine.Begins [] machine (MachineM.setRepeating flag machine).2 := ⟨[], rfl, rfl⟩
      have hpasses := begins_passes hi (offset + 2) (count.toNat - 1)
        (MachineM.setRepeating true machine).2
      have hall := ((hset true machine).append hpasses).append (hset machine.state.repeating _)
      rw [List.append_nil] at hall
      exact hall
    | sub index =>
      simp only [execute, control, innerMilestones]
      cases engine.image.scriptPointer index with
      | error cause => exact ⟨[], rfl, rfl⟩
      | ok target => exact begins_call hi target.toNat machine
    | subDirect target => exact begins_call hi target.toNat machine
    | reserved which => exact begins_note rfl
    | endRepeat | negate | resume | done | jump => exact ⟨[], rfl, rfl⟩
  | condition op => exact begins_of_costs (costs_bind_pure (costs_condition hw offset op) _) machine
  | bus op => exact begins_of_costs (costs_bind_pure (costs_bus hw offset op) _) machine
  | register op => exact ⟨[], rfl, rfl⟩
  | port op => exact ⟨[], rfl, rfl⟩
  | clock op => exact ⟨[], rfl, rfl⟩
  | board op => exact ⟨[], rfl, rfl⟩

theorem begins_runInstruction {own : Nat} (hw : engine.Within nesting own) (offset : Nat)
    (instruction : Instruction) (machine : Machine δ τ) :
    engine.Begins (engine.innerMilestones nesting inside offset
        (engine.note nesting.depth (.instruction offset instruction) machine).2 instruction)
      machine (engine.runInstruction nesting offset instruction.size instruction.opcode instruction
        machine).2 := by
  let noted := (engine.note nesting.depth (.instruction offset instruction) machine).2
  let executed := engine.execute nesting offset instruction.size instruction noted
  have hnoted : engine.Begins [] machine noted := begins_note rfl
  have hexecuted : engine.Begins (engine.innerMilestones nesting inside offset noted instruction)
      noted executed.2 := begins_execute hi hw offset instruction noted
  have hannounced := begins_of_costs
    (costs_announce hw offset instruction.opcode noted.state.execute executed.1) executed.2
  have hall := (hnoted.append hexecuted).append hannounced
  rw [List.append_nil] at hall
  exact hall

omit hi in
theorem innerMilestones_of_legacy {instruction : Instruction}
    (h : instruction.opcode.legacyOnly = true) (offset : Nat) (machine : Machine δ τ) :
    engine.innerMilestones nesting inside offset machine instruction = [] := by
  cases instruction with
  | control op =>
    cases op with
    | repeatBlock | sub | subDirect => cases h
    | _ => rfl
  | _ => rfl

omit hi in
theorem costs_asleep {own : Nat} (hw : engine.Within nesting own) (offset length : Nat)
    {op : Control} (hr : op.opcode.runsWhileSkipping = true) :
    engine.Costs nesting.depth 0 0
      (engine.runInstruction nesting offset length op.opcode (.control op)) := by
  have hcontrol : engine.Costs nesting.depth 0 0 (engine.control nesting offset length op) := by
    cases op with
    | endRepeat => exact costs_of_notes fun _ => rfl
    | negate => exact costs_of_notes fun _ => rfl
    | resume => exact costs_of_notes fun _ => rfl
    | done => exact costs_of_notes fun _ => rfl
    | reserved which => cases which <;> cases hr
    | _ => cases hr
  have hbehind (before : ScriptState) (result : Except InstructionError Step) :
      engine.Costs nesting.depth 0 0 (do
        engine.announce nesting offset op.opcode before.execute result
        return settle length result) :=
    costs_bind_pure (costs_announce hw offset op.opcode before.execute result) _
  apply costs_note_then hw rfl
  apply costs_bind_of_notes fun _ => rfl
  intro before
  exact costs_bind hcontrol (hbehind before)

omit hi in
theorem begins_unheld {own : Nat} (hw : engine.Within nesting own) (offset : Nat)
    {machine : Machine δ τ} (h : ∀ instruction, Instruction.decode engine.image offset =
      .ok instruction → machine.state.execute = false) :
    engine.Begins [] (engine.dispatched nesting offset machine)
      (engine.step nesting offset machine).2 := by
  rcases engine.step_cases nesting offset machine with ⟨-, hs⟩ | ⟨id, -, -, hs⟩ |
    ⟨opcode, ho, ⟨-, hs⟩ | ⟨-, ⟨cause, -, hs⟩ | ⟨length, next, after, -, hk, hs⟩⟩⟩
  · rw [hs]
    exact ⟨[], rfl, rfl⟩
  · rw [hs]
    exact begins_note rfl
  · rw [hs]
    exact begins_note rfl
  · rw [hs]
    exact ⟨[], rfl, rfl⟩
  · rw [hs]
    obtain rfl : (engine.stepKnown nesting offset length opcode _).2 = after :=
      congrArg Prod.snd hk
    rcases engine.stepKnown_cases nesting offset length
      (engine.dispatched nesting offset machine) opcode with
      ⟨-, -, hk⟩ | ⟨he, ⟨cause, -, hk⟩ | ⟨instruction, hd, hk⟩⟩
    · rw [hk]
      exact begins_note rfl
    · rw [hk]
      exact begins_note rfl
    · have hasleep : (engine.dispatched nesting offset machine).state.execute = false :=
        h instruction hd
      have hr : opcode.runsWhileSkipping = true := by simpa [hasleep] using he
      obtain ⟨op, hop, rfl⟩ := engine.decode_of_runsWhileSkipping offset ho hr
      obtain rfl := Except.ok.inj (hd.symm.trans hop)
      rw [hk]
      exact begins_of_costs (costs_asleep hw offset length hr) _

theorem begins_held {own : Nat} (hw : engine.Within nesting own) (offset : Nat)
    (machine : Machine δ τ) :
    engine.Begins (engine.heldMilestones nesting inside offset machine)
      (engine.dispatched nesting offset machine) (engine.step nesting offset machine).2 := by
  by_cases hnone : ∀ instruction, Instruction.decode engine.image offset = .ok instruction →
    machine.state.execute = false
  · rw [heldMilestones_of_not hnone]
    exact begins_unheld hw offset hnone
  · obtain ⟨instruction, hnone⟩ := Classical.not_forall.mp hnone
    obtain ⟨hd, he⟩ := Classical.not_imp.mp hnone
    have he : machine.state.execute = true := by simpa using he
    rw [heldMilestones_of_ok he hd]
    obtain ⟨ho, hl⟩ := Instruction.decode_opcode hd
    by_cases hs : instruction.opcode.legacyOnly = true → engine.image.isLegacy = true
    · rw [step_of_known nesting offset machine ho hs hl]
      rcases engine.stepKnown_cases nesting offset instruction.size
        (engine.dispatched nesting offset machine) instruction.opcode with
        ⟨hasleep, -, -⟩ | ⟨-, ⟨cause, hc, -⟩ | ⟨decoded, hdecoded, hk⟩⟩
      · cases he.symm.trans hasleep
      · cases hd.symm.trans hc
      · obtain rfl := Except.ok.inj (hd.symm.trans hdecoded)
        rw [hk]
        exact begins_runInstruction hi hw offset instruction _
    · obtain ⟨hl, hi⟩ := Classical.not_imp.mp hs
      rw [step_of_unsupported nesting offset machine ho hl hi, innerMilestones_of_legacy hl]
      exact begins_note rfl

theorem begins_step {own : Nat} (hw : engine.Within nesting own) (offset : Nat)
    (machine : Machine δ τ) :
    engine.Begins (engine.stepMilestones nesting inside offset machine) machine
      (engine.step nesting offset machine).2 := by
  let after := (engine.step nesting offset machine).2
  let begins : Milestone δ :=
    { depth := nesting.depth, begins? := some offset, scene := machine.scene }
  let ends : Milestone δ := { depth := nesting.depth, begins? := none, scene := after.scene }
  have hbegins : engine.Begins [begins] machine (engine.dispatched nesting offset machine) :=
    ⟨[({ depth := nesting.depth, execute := machine.state.execute }, .dispatch offset)], rfl, rfl⟩
  have hends : engine.Begins [ends] after after := ⟨[], rfl, rfl⟩
  exact (hbegins.append (begins_held hi hw offset machine)).append hends

omit hi in
theorem begins_proceed {go : Nat → MachineM δ τ Outcome} {start cursor ops : Nat}
    {points : Nat → Machine δ τ → List (Milestone δ)}
    (hg : ∀ next machine, engine.Begins (points next machine) machine (go next machine).2)
    (next : Except UnknownOpcode Step) (machine : Machine δ τ) :
    engine.Begins (restMilestones cursor points next machine) machine
      (engine.proceed nesting.depth start cursor ops go next machine).2 := by
  rcases next with cause | distance | _ | _
  · exact ⟨[], rfl, rfl⟩
  · simp only [proceed, restMilestones]
    cases advance? cursor distance with
    | some target => exact hg target machine
    | none => exact begins_note rfl
  · exact ⟨[], rfl, rfl⟩
  · exact begins_note rfl

theorem begins_walk {own : Nat} (hw : engine.Within nesting own) (start left cursor : Nat)
    (machine : Machine δ τ) :
    engine.Begins (engine.walkMilestones nesting inside left cursor machine) machine
      (engine.walk nesting start left cursor machine).2 := by
  induction left generalizing cursor machine with
  | zero =>
    rcases Nat.lt_or_ge cursor engine.image.length with hlt | hle
    · rw [walk_zero engine nesting machine start cursor hlt]
      exact begins_note rfl
    · rw [walk_of_le engine nesting machine start 0 cursor hle]
      exact begins_note rfl
  | succ left ih =>
    unfold walkMilestones
    rcases Nat.lt_or_ge cursor engine.image.length with hlt | hle
    · rw [if_neg (Nat.not_le.mpr hlt), walk_succ engine nesting start left cursor hlt]
      exact (begins_step hi hw cursor machine).append (begins_proceed ih _ _)
    · rw [if_pos hle, walk_of_le engine nesting machine start (left + 1) cursor hle]
      exact begins_note rfl

theorem begins_runAt {own : Nat} (hw : engine.Within nesting own) (start : Nat)
    (machine : Machine δ τ) :
    engine.Begins (engine.runMilestones nesting inside start machine) machine
      (engine.runAt nesting start machine).2 := by
  unfold runMilestones runAt
  by_cases h : start = 0
  · rw [if_pos h, if_pos h]
    exact ⟨[], rfl, rfl⟩
  · rw [if_neg h, if_neg h]
    exact begins_walk hi hw start _ start machine

end Steps

section Rooms

variable {room : Nat}

theorem inner_nesting (hr : room ≤ engine.limits.maxDepth) :
    engine.Inner (engine.nesting room) (engine.calledMilestones room) := by
  induction room with
  | zero => exact ⟨fun _ _ _ => rfl, nofun⟩
  | succ room ih =>
    have hless : room ≤ engine.limits.maxDepth := Nat.le_of_lt hr
    refine ⟨nofun, fun run hrun target machine => ?_⟩
    cases hrun
    obtain ⟨own, hw⟩ := engine.within_nesting hless
    exact begins_runAt (ih hless) hw target machine

theorem begins_milestones (hr : room ≤ engine.limits.maxDepth) (start : Nat)
    (machine : Machine δ τ) :
    engine.Begins (engine.milestones room start machine) machine
      (engine.runAt (engine.nesting room) start machine).2 := by
  obtain ⟨own, hw⟩ := engine.within_nesting hr
  exact begins_runAt (engine.inner_nesting hr) hw start machine

end Rooms

end Engine

end RomScript
