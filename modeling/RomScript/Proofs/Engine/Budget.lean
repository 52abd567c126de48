import RomScript.Proofs.Engine.Termination
import RomScript.Proofs.Engine.Chronicle

/-!
# The budget of a run

Each run, outermost or nested, takes at most the allowed number of instructions of its own,
and each of them can call at most 254 runs. With the room for nested runs this bounds what
an outermost run can take in all, although no single guard counts it.
-/

set_option autoImplicit false

namespace RomScript

/-- The number of instructions that a run with the given room for nested runs can take in all. -/
def Limits.budget (limits : Limits) : Nat → Nat
  | 0 => limits.maxOps
  | room + 1 => limits.maxOps * (1 + 254 * limits.budget room)

def Event.isDispatch : Event → Bool
  | .dispatch _ => true
  | _ => false

def Event.isQuiet : Event → Bool
  | .dispatch _ | .call .. => false
  | _ => true

def reach (entry : Moment × Event) : Nat :=
  match entry.2 with
  | .call _ below => max entry.1.depth below
  | _ => entry.1.depth

namespace Chronicle

def dispatches (events : Chronicle) : Nat := events.countP fun entry => entry.2.isDispatch

def dispatchesAt (depth : Nat) (events : Chronicle) : Nat :=
  events.countP fun entry => entry.1.depth == depth && entry.2.isDispatch

end Chronicle

open Chronicle

/-- Events of an action at a depth, with bounds on the instructions taken there and in all. -/
structure Account (limits : Limits) (depth own total : Nat) (events : Chronicle) : Prop where
  depths : ∀ entry ∈ events, depth ≤ entry.1.depth ∧ reach entry ≤ limits.maxDepth
  own : dispatchesAt depth events ≤ own
  total : dispatches events ≤ total

namespace Account

variable {limits : Limits} {depth own own' total total' : Nat} {events rest : Chronicle}

theorem nil : Account limits depth own total [] :=
  ⟨fun _ h => absurd h List.not_mem_nil, Nat.zero_le _, Nat.zero_le _⟩

theorem mono (h : Account limits depth own total events) (ho : own ≤ own') (ht : total ≤ total') :
    Account limits depth own' total' events :=
  ⟨h.depths, Nat.le_trans h.own ho, Nat.le_trans h.total ht⟩

theorem append (h : Account limits depth own total events)
    (hr : Account limits depth own' total' rest) :
    Account limits depth (own + own') (total + total') (events ++ rest) := by
  constructor
  · intro entry he
    rcases List.mem_append.mp he with he | he
    · exact h.depths entry he
    · exact hr.depths entry he
  · rw [dispatchesAt, List.countP_append]
    exact Nat.add_le_add h.own hr.own
  · rw [dispatches, List.countP_append]
    exact Nat.add_le_add h.total hr.total

/-- What a nested run takes is no instruction of the run around it. -/
theorem nested (h : Account limits (depth + 1) own total events) :
    Account limits depth 0 total events := by
  constructor
  · intro entry he
    obtain ⟨hd, hr⟩ := h.depths entry he
    exact ⟨by omega, hr⟩
  · have hnone : dispatchesAt depth events = 0 := by
      apply List.countP_eq_zero.mpr
      intro entry he
      have hd := (h.depths entry he).1
      have hne : entry.1.depth ≠ depth := by omega
      simp [hne]
    exact Nat.le_of_eq hnone
  · exact h.total

theorem dispatch (hd : depth ≤ limits.maxDepth) (offset : Nat) (execute : Bool) :
    Account limits depth 1 1 [({ depth, execute }, .dispatch offset)] := by
  constructor
  · intro entry he
    obtain rfl := List.mem_singleton.mp he
    exact ⟨Nat.le_refl _, hd⟩
  · exact List.countP_le_length
  · exact List.countP_le_length

theorem call (hd : depth < limits.maxDepth) (target : Nat) (execute : Bool) :
    Account limits depth 0 0 [({ depth, execute }, .call target (depth + 1))] := by
  constructor
  · intro entry he
    obtain rfl := List.mem_singleton.mp he
    have hr : max depth (depth + 1) ≤ limits.maxDepth := by omega
    exact ⟨Nat.le_refl _, hr⟩
  · simp [dispatchesAt, Event.isDispatch]
  · simp [dispatches, Event.isDispatch]

theorem quiet {event : Event} (hq : event.isQuiet = true) (hd : depth ≤ limits.maxDepth)
    (execute : Bool) : Account limits depth 0 0 [({ depth, execute }, event)] := by
  have hr : reach ({ depth, execute }, event) = depth := by
    cases event <;> first | rfl | cases hq
  have hnone : event.isDispatch = false := by
    cases event <;> first | rfl | cases hq
  constructor
  · intro entry he
    obtain rfl := List.mem_singleton.mp he
    rw [hr]
    exact ⟨Nat.le_refl _, hd⟩
  · simp [dispatchesAt, hnone]
  · simp [dispatches, hnone]

end Account

namespace Engine

variable {δ τ α β : Type} (engine : Engine δ τ)

def Costs (depth own total : Nat) (action : MachineM δ τ α) : Prop :=
  engine.Shows (Account engine.limits depth own total) action

section Costs

variable {engine} {depth own own' total total' : Nat} {action : MachineM δ τ α}
  {next : α → MachineM δ τ β}

theorem Costs.mono (h : engine.Costs depth own total action) (ho : own ≤ own')
    (ht : total ≤ total') : engine.Costs depth own' total' action :=
  Shows.mono h fun _ ha => ha.mono ho ht

theorem Costs.nested (h : engine.Costs (depth + 1) own total action) :
    engine.Costs depth 0 total action :=
  Shows.mono h fun _ ha => ha.nested

theorem costs_of_notes (h : ∀ machine, (action machine).2.notes = machine.notes) :
    engine.Costs depth own total action :=
  shows_of_notes Account.nil h

theorem costs_pure (value : α) : engine.Costs depth own total (pure value) :=
  costs_of_notes fun _ => rfl

theorem costs_bind (ha : engine.Costs depth own total action)
    (hn : ∀ value, engine.Costs depth own' total' (next value)) :
    engine.Costs depth (own + own') (total + total') (action >>= next) :=
  shows_bind ha hn fun _ _ he hr => he.append hr

theorem costs_bind_rest (ha : engine.Costs depth 0 0 action)
    (hn : ∀ value, engine.Costs depth own total (next value)) :
    engine.Costs depth own total (action >>= next) :=
  (costs_bind ha hn).mono (by omega) (by omega)

theorem costs_bind_of_notes (ha : ∀ machine, (action machine).2.notes = machine.notes)
    (hn : ∀ value, engine.Costs depth own total (next value)) :
    engine.Costs depth own total (action >>= next) :=
  costs_bind_rest (costs_of_notes ha) hn

theorem costs_bind_free (ha : engine.Costs depth own total action)
    (hn : ∀ value, engine.Costs depth 0 0 (next value)) :
    engine.Costs depth own total (action >>= next) :=
  costs_bind ha hn

theorem costs_bind_pure (ha : engine.Costs depth own total action) (f : α → β) :
    engine.Costs depth own total (action >>= fun value => pure (f value)) :=
  costs_bind_free ha fun value => costs_pure (f value)

end Costs

/-- The nesting is within the limits, and each run inside it takes at most `inner`
instructions in all. -/
structure Within (nesting : Nesting δ τ) (inner : Nat) : Prop where
  depth : nesting.depth ≤ engine.limits.maxDepth
  run : ∀ run, nesting.inner = some run → nesting.depth < engine.limits.maxDepth ∧
    ∀ target, ∃ own, engine.Costs (nesting.depth + 1) own inner (run target)

section Steps

variable {engine} {nesting : Nesting δ τ} {inner : Nat} (hw : engine.Within nesting inner)

include hw

theorem costs_note {event : Event} (hq : event.isQuiet = true) :
    engine.Costs nesting.depth 0 0 (engine.note nesting.depth event) :=
  shows_note fun execute => .quiet hq hw.depth execute

theorem costs_note_then {own total : Nat} {event : Event} {rest : MachineM δ τ α}
    (hq : event.isQuiet = true) (hr : engine.Costs nesting.depth own total rest) :
    engine.Costs nesting.depth own total (engine.note nesting.depth event >>= fun _ => rest) :=
  costs_bind_rest (costs_note hw hq) fun _ => hr

theorem costs_call (target : Nat) :
    engine.Costs nesting.depth 0 inner (engine.call nesting target) := by
  unfold call
  cases hr : nesting.inner with
  | none => exact costs_pure _
  | some run =>
    obtain ⟨hd, hrun⟩ := hw.run run hr
    obtain ⟨own, ht⟩ := hrun target
    apply costs_bind_rest (shows_note fun execute => .call hd target execute)
    intro _
    apply costs_bind_free ht.nested
    intro outcome
    apply costs_note_then hw rfl
    cases outcome with
    | ok report => exact costs_pure _
    | error cause => exact costs_note_then hw rfl (costs_pure _)

theorem costs_callTimes (target times : Nat) :
    engine.Costs nesting.depth 0 (times * inner) (engine.callTimes nesting target times) := by
  induction times with
  | zero => exact costs_pure _
  | succ times ih =>
    have hsum : inner + times * inner = (times + 1) * inner := by
      rw [Nat.succ_mul, Nat.add_comm]
    have hall : engine.Costs nesting.depth (0 + 0) (inner + times * inner)
        (engine.callTimes nesting target (times + 1)) := by
      unfold callTimes
      apply costs_bind (costs_call hw target)
      intro result
      cases result with
      | error cause => exact costs_pure _
      | ok _ => exact ih
    exact hall.mono (Nat.le_refl _) (Nat.le_of_eq hsum)

/-- The count of a repeated block is a byte, and its last pass is no call. -/
theorem costs_passes (target : Nat) (count : UInt8) :
    engine.Costs nesting.depth 0 (254 * inner)
      (MachineM.whileRepeating (engine.callTimes nesting target (count.toNat - 1))) := by
  have hc := count.toNat_lt
  have htimes : (count.toNat - 1) * inner ≤ 254 * inner :=
    Nat.mul_le_mul_right inner (by omega)
  have hpasses : engine.Costs nesting.depth 0 (254 * inner)
      (engine.callTimes nesting target (count.toNat - 1)) :=
    (costs_callTimes hw target _).mono (Nat.le_refl _) htimes
  have hback (former : ScriptState) (result : Except InstructionError Unit) :
      engine.Costs nesting.depth 0 0 (do
        MachineM.setRepeating former.repeating
        return result) :=
    costs_of_notes fun _ => rfl
  apply costs_bind_of_notes fun _ => rfl
  intro former
  apply costs_bind_of_notes fun _ => rfl
  intro _
  exact costs_bind hpasses (hback former)

theorem costs_control (offset length : Nat) (op : Control) :
    engine.Costs nesting.depth 0 (254 * inner) (engine.control nesting offset length op) := by
  have hcall (target : Nat) : engine.Costs nesting.depth 0 (254 * inner)
      (engine.call nesting target) :=
    (costs_call hw target).mono (Nat.le_refl _) (Nat.le_mul_of_pos_left inner (by decide))
  cases op with
  | repeatBlock count => exact costs_bind_pure (costs_passes hw (offset + length) count) _
  | sub index =>
    simp only [control]
    cases engine.image.scriptPointer index with
    | error cause => exact costs_pure _
    | ok target => exact costs_bind_pure (hcall target.toNat) _
  | subDirect target => exact costs_bind_pure (hcall target.toNat) _
  | reserved which => exact costs_note_then hw rfl (costs_pure _)
  | endRepeat => exact costs_of_notes fun _ => rfl
  | negate => exact costs_of_notes fun _ => rfl
  | resume => exact costs_of_notes fun _ => rfl
  | done => exact costs_of_notes fun _ => rfl
  | jump target => exact costs_of_notes fun _ => rfl

theorem costs_condition (offset : Nat) (op : Condition) :
    engine.Costs nesting.depth 0 0 (engine.condition nesting offset op) := by
  unfold condition
  cases op.unsupported? with
  | some cause => exact costs_pure _
  | none =>
    apply costs_bind_of_notes fun _ => rfl
    intro state
    apply costs_bind_of_notes fun _ => rfl
    intro verdict
    apply costs_note_then hw rfl
    rcases verdict with cause | met | met
    · exact costs_of_notes fun _ => rfl
    · exact costs_of_notes fun _ => rfl
    · exact costs_of_notes fun _ => rfl

theorem costs_bus (offset : Nat) (op : BusOp) :
    engine.Costs nesting.depth 0 0 (engine.bus nesting offset op) := by
  have hnotices (notices : List TransferNotice) : engine.Costs nesting.depth 0 0
      (notices.forM fun notice =>
        engine.note nesting.depth (.transfer offset op.opcode notice)) := by
    induction notices with
    | nil => exact costs_pure _
    | cons notice rest ih => exact costs_note_then hw rfl ih
  apply costs_bind_of_notes fun _ => rfl
  intro state
  apply costs_bind_of_notes fun _ => rfl
  intro result
  cases result with
  | error cause => exact costs_pure _
  | ok notices => exact costs_bind_pure (hnotices notices) _

theorem costs_execute (offset length : Nat) (instruction : Instruction) :
    engine.Costs nesting.depth 0 (254 * inner)
      (engine.execute nesting offset length instruction) := by
  have hfree {α : Type} {action : MachineM δ τ α} (h : engine.Costs nesting.depth 0 0 action) :
      engine.Costs nesting.depth 0 (254 * inner) action :=
    h.mono (Nat.le_refl _) (Nat.zero_le _)
  cases instruction with
  | control op => exact costs_control hw offset length op
  | condition op => exact costs_bind_pure (hfree (costs_condition hw offset op)) _
  | bus op => exact costs_bind_pure (hfree (costs_bus hw offset op)) _
  | register op => exact costs_of_notes fun _ => rfl
  | port op => exact costs_of_notes fun _ => rfl
  | clock op => exact costs_of_notes fun _ => rfl
  | board op => exact costs_of_notes fun _ => rfl

theorem costs_announce (offset : Nat) (opcode : Opcode) (before : Bool)
    (result : Except InstructionError Step) :
    engine.Costs nesting.depth 0 0 (engine.announce nesting offset opcode before result) := by
  have hflag : engine.Costs nesting.depth 0 0 (do
      let after ← MachineM.state
      if after.execute != before || opcode.isCondition then
        engine.note nesting.depth (.execute after.execute)) := by
    apply costs_bind_of_notes fun _ => rfl
    intro after
    by_cases h : after.execute != before || opcode.isCondition
    · rw [if_pos h]
      exact costs_note hw rfl
    · rw [if_neg h]
      exact costs_pure _
  cases result with
  | ok next => exact hflag
  | error cause => exact costs_note_then hw rfl hflag

theorem costs_runInstruction (offset length : Nat) (opcode : Opcode) (instruction : Instruction) :
    engine.Costs nesting.depth 0 (254 * inner)
      (engine.runInstruction nesting offset length opcode instruction) := by
  have hbehind (before : ScriptState) (result : Except InstructionError Step) :
      engine.Costs nesting.depth 0 0 (do
        engine.announce nesting offset opcode before.execute result
        return settle length result) :=
    costs_bind_pure (costs_announce hw offset opcode before.execute result) _
  apply costs_note_then hw rfl
  apply costs_bind_of_notes fun _ => rfl
  intro before
  exact costs_bind (costs_execute hw offset length instruction) (hbehind before)

theorem costs_stepKnown (offset length : Nat) (opcode : Opcode) :
    engine.Costs nesting.depth 0 (254 * inner) (engine.stepKnown nesting offset length opcode) := by
  apply costs_bind_of_notes fun _ => rfl
  intro state
  by_cases hs : !state.execute && !opcode.runsWhileSkipping
  · rw [if_pos hs]
    exact costs_note_then hw rfl (costs_pure _)
  · rw [if_neg hs]
    cases Instruction.decode engine.image offset with
    | error cause => exact costs_note_then hw rfl (costs_pure _)
    | ok instruction => exact costs_runInstruction hw offset length opcode instruction

theorem costs_step (offset : Nat) :
    engine.Costs nesting.depth 1 (1 + 254 * inner) (engine.step nesting offset) := by
  have hdispatch : engine.Costs nesting.depth 1 1 (engine.note nesting.depth (.dispatch offset)) :=
    shows_note fun execute => .dispatch hw.depth offset execute
  refine costs_bind hdispatch fun _ => (?_ : engine.Costs nesting.depth 0 (254 * inner) _)
  cases engine.image.byte offset with
  | error cause => exact costs_pure _
  | ok id =>
    cases ho : Opcode.ofByte? id with
    | none =>
      simp only [ho]
      exact costs_note_then hw rfl (costs_pure _)
    | some opcode =>
      simp only [ho]
      by_cases hl : opcode.legacyOnly && !engine.image.isLegacy
      · rw [if_pos hl]
        exact costs_note_then hw rfl (costs_pure _)
      · rw [if_neg hl]
        cases opcode.encodedLength engine.image offset with
        | error cause => exact costs_pure _
        | ok length => exact costs_bind_pure (costs_stepKnown hw offset length opcode) _

theorem costs_walk (start left cursor : Nat) :
    engine.Costs nesting.depth left (left * (1 + 254 * inner))
      (engine.walk nesting start left cursor) := by
  induction left generalizing cursor with
  | zero =>
    unfold walk
    by_cases hle : engine.image.length ≤ cursor
    · rw [if_pos hle]
      exact costs_note_then hw rfl (costs_pure _)
    · rw [if_neg hle]
      exact costs_note_then hw rfl (costs_pure _)
  | succ left ih =>
    have hbehind (ops : Nat) (next : Except UnknownOpcode Step) :
        engine.Costs nesting.depth left (left * (1 + 254 * inner))
          (engine.proceed nesting.depth start cursor ops
            (engine.walk nesting start left) next) := by
      rcases next with cause | distance | _ | _
      · exact costs_pure _
      · simp only [proceed]
        cases advance? cursor distance with
        | some target => exact ih target
        | none => exact costs_note_then hw rfl (costs_pure _)
      · exact costs_pure _
      · exact costs_note_then hw rfl (costs_pure _)
    rcases Nat.lt_or_ge cursor engine.image.length with hlt | hle
    · rw [walk_succ engine nesting start left cursor hlt]
      have hown : 1 + left = left + 1 := Nat.add_comm 1 left
      have hsum : 1 + 254 * inner + left * (1 + 254 * inner) = (left + 1) * (1 + 254 * inner) := by
        rw [Nat.succ_mul left, Nat.add_comm]
      have hturn := costs_bind (costs_step hw cursor)
        (hbehind (engine.limits.maxOps - (left + 1) + 1))
      exact hturn.mono (Nat.le_of_eq hown) (Nat.le_of_eq hsum)
    · unfold walk
      rw [if_pos hle]
      exact costs_note_then hw rfl (costs_pure _)

theorem costs_runAt (start : Nat) :
    engine.Costs nesting.depth engine.limits.maxOps (engine.limits.maxOps * (1 + 254 * inner))
      (engine.runAt nesting start) := by
  unfold runAt
  by_cases h : start = 0
  · rw [if_pos h]
    exact costs_pure _
  · rw [if_neg h]
    exact costs_walk hw start _ start

end Steps

theorem within_zero : engine.Within (engine.nesting 0) 0 := by
  constructor
  · exact Nat.le_refl _
  · intro run h
    cases h

/-- Room for runs inside each other is used up by one with every nested run. -/
theorem within_succ {room inner : Nat} (hr : room < engine.limits.maxDepth)
    (h : ∀ target, ∃ own, engine.Costs (engine.limits.maxDepth - room) own inner
      (engine.runAt (engine.nesting room) target)) :
    engine.Within (engine.nesting (room + 1)) inner := by
  have hd : (engine.nesting (room + 1)).depth + 1 = engine.limits.maxDepth - room := by
    rw [depth_nesting]
    omega
  constructor
  · rw [depth_nesting]
    exact Nat.sub_le _ _
  · intro run hrun
    cases hrun
    rw [hd]
    exact ⟨by omega, h⟩

theorem costs_runAt_nesting {room : Nat} (hr : room ≤ engine.limits.maxDepth) (start : Nat) :
    engine.Costs (engine.limits.maxDepth - room) engine.limits.maxOps (engine.limits.budget room)
      (engine.runAt (engine.nesting room) start) := by
  induction room generalizing start with
  | zero =>
    have hrun := costs_runAt engine.within_zero start
    exact hrun.mono (Nat.le_refl _) (Nat.le_of_eq (Nat.mul_one _))
  | succ room ih =>
    have hw : engine.Within (engine.nesting (room + 1)) (engine.limits.budget room) :=
      engine.within_succ hr fun target => ⟨_, ih (Nat.le_of_lt hr) target⟩
    have hrun := costs_runAt hw start
    rw [depth_nesting] at hrun
    exact hrun

theorem costs_runScript (start : Nat) :
    engine.Costs 0 engine.limits.maxOps (engine.limits.budget engine.limits.maxDepth)
      (engine.runScript start) := by
  have hrun := engine.costs_runAt_nesting (Nat.le_refl _) start
  rw [Nat.sub_self] at hrun
  have hnote : engine.Costs 0 0 0 (engine.note 0 (.script start)) :=
    shows_note fun execute => .quiet rfl (Nat.zero_le _) execute
  apply costs_bind_of_notes fun _ => rfl
  intro _
  apply costs_bind_rest hnote
  intro _
  exact hrun

/-- What a run depends on is well founded, so the recursion has a single solution, and that
is what an outermost run does. In no run the depth goes beyond its limit, a run takes at most
the allowed number of instructions of its own, and together with the runs inside it no more
than its budget. -/
theorem runs_end_within_budget :
    WellFounded engine.limits.Follows ∧
    (∀ self other activation, (∀ next, engine.limits.Follows next activation →
        self next = other next) →
      ∀ start cursor, engine.round self activation start cursor =
        engine.round other activation start cursor) ∧
    (∃ run : Activation → Nat → Nat → MachineM δ τ Outcome, engine.Solves run ∧
      (∀ other, engine.Solves other → ∀ activation, engine.limits.Allows activation →
        other activation = run activation) ∧
      ∀ start, start ≠ 0 → ∀ machine, engine.runScript start machine =
        run { depth := 0, ops := 0 } start start (engine.begun machine start)) ∧
    (∀ room ≤ engine.limits.maxDepth, ∀ start machine,
      Account engine.limits (engine.limits.maxDepth - room) engine.limits.maxOps
        (engine.limits.budget room)
        (chronicle (engine.recorded.runAt (engine.recorded.nesting room) start) machine)) ∧
    ∀ start machine, Account engine.limits 0 engine.limits.maxOps
      (engine.limits.budget engine.limits.maxDepth)
      (chronicle (engine.recorded.runScript start) machine) := by
  have hsolves : engine.Solves engine.underWay := by
    intro activation ha start cursor
    exact engine.underWay_eq_round ha start cursor
  refine ⟨engine.limits.follows_wellFounded, ?_, ⟨engine.underWay, hsolves, ?_, ?_⟩, ?_, ?_⟩
  · intro self other activation h
    exact engine.round_congr h
  · intro other h activation ha
    exact engine.eq_underWay h ha
  · intro start h machine
    exact engine.runScript_eq_underWay h machine
  · intro room hr start machine
    exact engine.chronicle_of_shows (engine.recorded.costs_runAt_nesting hr start) machine
  · intro start machine
    exact engine.chronicle_of_shows (engine.recorded.costs_runScript start) machine

end Engine

end RomScript
