import RomScript.Proofs.Engine.Action
import RomScript.Proofs.Engine.Milestones

/-!
# Journeys

What a run does between its milestones is nothing but to turn the repeat flag over: the device
and the execute flag are changed by instructions that run no other ones, between the milestone at
which such an instruction begins and the next one, at which it has ended. So what holds of these
instructions one by one holds along a run, from milestone to milestone at whatever depth.
-/

set_option autoImplicit false

namespace RomScript

namespace Engine

variable {δ τ : Type} (engine : Engine δ τ)

inductive Journey : Scene δ → List (Milestone δ) → Scene δ → Prop
  | rest {scene after : Scene δ} (bench : after.bench = scene.bench)
      (execute : after.state.execute = scene.state.execute) : Journey scene [] after
  | append {scene middle after : Scene δ} {points more : List (Milestone δ)}
      (first : Journey scene points middle) (second : Journey middle more after) :
      Journey scene (points ++ more) after
  | turn (depth offset : Nat) (scene : Scene δ)
      (still : (engine.image.opcodeAt? offset).any Opcode.nests = false) :
      Journey scene
        [{ depth, begins? := some offset, scene },
          { depth, begins? := none, scene := engine.turn offset scene }]
        (engine.turn offset scene)
  | call (depth offset : Nat) {scene after : Scene δ} {points : List (Milestone δ)}
      (nests : (engine.image.opcodeAt? offset).any Opcode.nests = true)
      (inner : Journey scene points after) :
      Journey scene
        ({ depth, begins? := some offset, scene } :: points ++
          [{ depth, begins? := none, scene := after }])
        after

/-- What is inside is what the runs that the nesting calls pass by. -/
structure Travels (nesting : Nesting δ τ) (inside : Nat → Machine δ τ → List (Milestone δ)) :
    Prop where
  none : nesting.inner = none → ∀ target machine, inside target machine = []
  run : ∀ run, nesting.inner = some run → ∀ target machine,
    engine.Journey machine.scene (inside target machine) (run target machine).2.scene

section Steps

variable {engine} {nesting : Nesting δ τ} {inside : Nat → Machine δ τ → List (Milestone δ)}

theorem heldMilestones_of_still {offset : Nat} (machine : Machine δ τ)
    (h : (engine.image.opcodeAt? offset).any Opcode.nests = false) :
    engine.heldMilestones nesting inside offset machine = [] := by
  cases he : machine.state.execute with
  | false => exact heldMilestones_of_not fun _ _ => he
  | true =>
    cases hd : Instruction.decode engine.image offset with
    | error cause => exact heldMilestones_of_not fun _ h => nomatch hd.symm.trans h
    | ok instruction =>
      rw [heldMilestones_of_ok he hd]
      rw [(Instruction.decode_opcode hd).1] at h
      cases instruction with
      | control op => cases op <;> first | rfl | cases h
      | _ => rfl

variable (ht : engine.Travels nesting inside)

include ht

theorem journey_call (target : Nat) (machine : Machine δ τ) :
    engine.Journey machine.scene (inside target (engine.called nesting target machine))
      (engine.call nesting target machine).2.scene := by
  cases hn : nesting.inner with
  | none =>
    rw [ht.none hn, call_of_none engine hn]
    exact .rest rfl rfl
  | some run =>
    have hrun := ht.run run hn target (engine.called nesting target machine)
    rw [call_of_inner engine hn, MachineM.bind_apply]
    cases (engine.enclosed nesting.depth target (run target) machine).1 with
    | ok report => exact hrun
    | error cause => exact hrun

theorem journey_passes (target times : Nat) (machine : Machine δ τ) :
    engine.Journey machine.scene (engine.passMilestones nesting inside target times machine)
      (engine.callTimes nesting target times machine).2.scene := by
  induction times generalizing machine with
  | zero => exact .rest rfl rfl
  | succ times ih =>
    have hcall := journey_call ht target machine
    simp only [passMilestones, callTimes, MachineM.bind_apply]
    cases hr : (engine.call nesting target machine).1 with
    | ok _ => exact hcall.append (ih _)
    | error cause =>
      rw [passMilestones_of_none _ _ (ht.none (inner_of_call_error engine hr)), List.append_nil]
      exact hcall

theorem journey_execute {instruction : Instruction} (hn : instruction.opcode.nests = true)
    (offset : Nat) (machine : Machine δ τ) :
    engine.Journey machine.scene
      (engine.innerMilestones nesting inside offset machine instruction)
      (engine.execute nesting offset instruction.size instruction machine).2.scene := by
  rcases Instruction.cases_of_nests hn with ⟨count, rfl⟩ | ⟨index, rfl⟩ | ⟨target, rfl⟩
  · have hpasses := journey_passes ht (offset + 2) (count.toNat - 1)
      (MachineM.setRepeating true machine).2
    have hflag : engine.Journey machine.scene [] (MachineM.setRepeating true machine).2.scene :=
      .rest rfl rfl
    have hback (machine : Machine δ τ) (flag : Bool) :
        engine.Journey machine.scene [] (MachineM.setRepeating flag machine).2.scene :=
      .rest rfl rfl
    have hall := (hflag.append hpasses).append (hback _ machine.state.repeating)
    rw [List.append_nil] at hall
    exact hall
  · simp only [execute, control, innerMilestones]
    cases engine.image.scriptPointer index with
    | error cause => exact .rest rfl rfl
    | ok target => exact journey_call ht target.toNat machine
  · exact journey_call ht target.toNat machine

theorem journey_held (offset : Nat) (machine : Machine δ τ)
    (hn : (engine.image.opcodeAt? offset).any Opcode.nests = true) :
    engine.Journey machine.scene (engine.heldMilestones nesting inside offset machine)
      (engine.step nesting offset machine).2.scene := by
  cases hd : Instruction.decode engine.image offset with
  | error cause =>
    have hnot (instruction : Instruction) :
        Instruction.decode engine.image offset ≠ .ok instruction := fun h => nomatch hd.symm.trans h
    rw [heldMilestones_of_not fun instruction h => absurd h (hnot instruction)]
    rcases engine.step_scene nesting offset machine with hs | ⟨instruction, hi, -⟩
    · rw [hs]
      exact .rest rfl rfl
    · exact absurd hi (hnot instruction)
  | ok instruction =>
    rw [(Instruction.decode_opcode hd).1] at hn
    have hn : instruction.opcode.nests = true := hn
    have hopcode : instruction.opcode.legacyOnly = false ∧
        instruction.opcode.runsWhileSkipping = false := by
      generalize instruction.opcode = opcode at hn
      cases opcode <;> first | exact ⟨rfl, rfl⟩ | cases hn
    have hsupports : engine.image.Supports instruction.opcode :=
      fun h => nomatch hopcode.1.symm.trans h
    rw [engine.step_scene_of_ok nesting offset machine hd]
    cases he : machine.state.execute with
    | true =>
      rw [heldMilestones_of_ok he hd, if_pos ⟨hsupports, .inl he⟩]
      exact journey_execute ht hn offset (engine.entered nesting offset machine instruction)
    | false =>
      rw [heldMilestones_of_not fun _ _ => he, if_neg]
      · exact .rest rfl rfl
      · rintro ⟨-, hon | hskip⟩
        · cases he.symm.trans hon
        · cases hopcode.2.symm.trans hskip

theorem journey_step (offset : Nat) (machine : Machine δ τ) :
    engine.Journey machine.scene (engine.stepMilestones nesting inside offset machine)
      (engine.step nesting offset machine).2.scene := by
  cases hn : (engine.image.opcodeAt? offset).any Opcode.nests with
  | false =>
    rw [stepMilestones, heldMilestones_of_still machine hn,
      engine.step_turn nesting offset machine hn]
    exact .turn nesting.depth offset machine.scene hn
  | true => exact .call nesting.depth offset hn (journey_held ht offset machine hn)

omit ht in
theorem journey_proceed {go : Nat → MachineM δ τ Outcome} (start cursor ops : Nat)
    {points : Nat → Machine δ τ → List (Milestone δ)}
    (hg : ∀ next machine, engine.Journey machine.scene (points next machine)
      (go next machine).2.scene)
    (next : Except UnknownOpcode Step) (machine : Machine δ τ) :
    engine.Journey machine.scene (restMilestones cursor points next machine)
      (engine.proceed nesting.depth start cursor ops go next machine).2.scene := by
  rcases next with cause | distance | _ | _
  · exact .rest rfl rfl
  · simp only [proceed, restMilestones]
    cases advance? cursor distance with
    | some target => exact hg target machine
    | none => exact .rest rfl rfl
  · exact .rest rfl rfl
  · exact .rest rfl rfl

theorem journey_walk (start left cursor : Nat) (machine : Machine δ τ) :
    engine.Journey machine.scene (engine.walkMilestones nesting inside left cursor machine)
      (engine.walk nesting start left cursor machine).2.scene := by
  induction left generalizing cursor machine with
  | zero =>
    rcases Nat.lt_or_ge cursor engine.image.length with hlt | hle
    · rw [walk_zero engine nesting machine start cursor hlt]
      exact .rest rfl rfl
    · rw [walk_of_le engine nesting machine start 0 cursor hle]
      exact .rest rfl rfl
  | succ left ih =>
    unfold walkMilestones
    rcases Nat.lt_or_ge cursor engine.image.length with hlt | hle
    · rw [if_neg (Nat.not_le.mpr hlt), walk_succ engine nesting start left cursor hlt]
      exact (journey_step ht cursor machine).append (journey_proceed start cursor _ ih _ _)
    · rw [if_pos hle, walk_of_le engine nesting machine start (left + 1) cursor hle]
      exact .rest rfl rfl

theorem journey_runAt (start : Nat) (machine : Machine δ τ) :
    engine.Journey machine.scene (engine.runMilestones nesting inside start machine)
      (engine.runAt nesting start machine).2.scene := by
  unfold runMilestones runAt
  by_cases h : start = 0
  · rw [if_pos h, if_pos h]
    exact .rest rfl rfl
  · rw [if_neg h, if_neg h]
    exact journey_walk ht start _ start machine

end Steps

/-! ## Runs -/

theorem travels_nesting (room : Nat) :
    engine.Travels (engine.nesting room) (engine.calledMilestones room) := by
  induction room with
  | zero => exact ⟨fun _ _ _ => rfl, nofun⟩
  | succ room ih =>
    refine ⟨nofun, fun run hrun target machine => ?_⟩
    cases hrun
    exact journey_runAt ih target machine

theorem journey_milestones (room start : Nat) (machine : Machine δ τ) :
    engine.Journey machine.scene (engine.milestones room start machine)
      (engine.runAt (engine.nesting room) start machine).2.scene :=
  journey_runAt (engine.travels_nesting room) start machine

/-! ## Instructions that run no other ones -/

/-- Where an instruction begins that runs no other ones, the next milestone is its end, and what
was done between the two is told from the scene. -/
def Turned : List (Milestone δ) → Prop
  | [] => True
  | begins :: rest =>
    (∀ offset, begins.begins? = some offset →
      (engine.image.opcodeAt? offset).any Opcode.nests = false →
        ∃ ends more, rest = ends :: more ∧ ends.begins? = none ∧
          ends.scene = engine.turn offset begins.scene) ∧
      Turned rest

section Turned

variable {engine} {points more : List (Milestone δ)}

theorem Turned.append (h : engine.Turned points) (hm : engine.Turned more) :
    engine.Turned (points ++ more) := by
  induction points with
  | nil => exact hm
  | cons begins rest ih =>
    refine ⟨fun offset hb hn => ?_, ih h.2⟩
    obtain ⟨ends, tail, rfl, hends⟩ := h.1 offset hb hn
    exact ⟨ends, tail ++ more, rfl, hends⟩

theorem Journey.turned {scene after : Scene δ} (h : engine.Journey scene points after) :
    engine.Turned points := by
  induction h with
  | rest => trivial
  | append _ _ ihf ihs => exact ihf.append ihs
  | turn depth offset scene still =>
    refine ⟨fun other hb _ => ?_, nofun, trivial⟩
    obtain rfl := Option.some.inj hb
    exact ⟨_, [], rfl, rfl, rfl⟩
  | call depth offset nests inner ih =>
    refine ⟨fun other hb hn => ?_, ih.append ⟨nofun, trivial⟩⟩
    obtain rfl := Option.some.inj hb
    cases nests.symm.trans hn

theorem Turned.ends {before rest : List (Milestone δ)} {begins : Milestone δ} {offset : Nat}
    (h : engine.Turned (before ++ begins :: rest)) (hb : begins.begins? = some offset)
    (hn : (engine.image.opcodeAt? offset).any Opcode.nests = false) :
    ∃ ends more, rest = ends :: more ∧ ends.begins? = none ∧
      ends.scene = engine.turn offset begins.scene := by
  induction before with
  | nil => exact h.1 offset hb hn
  | cons point before ih => exact ih h.2

end Turned

end Engine

end RomScript
