import RomScript.Proofs.Engine.Cases

/-!
# Corresponding engines

The same scripts can run on another device and be shown to another observer. How the actions of
the two engines go together is a relation that the few operations of which actions are made
keep; it then holds between every step, call and run of the one engine and the same of the
other. What is true of two engines is in this way proved for the operations alone.
-/

set_option autoImplicit false

namespace RomScript

/-- Neither begins nor ends a run. -/
def Event.isInner : Event → Bool
  | .script _ | .call .. | .ret => false
  | _ => true

namespace Engine

variable {δ δ' τ τ' α β : Type} (engine : Engine δ τ)

/-- The same scripts under the same limits, on another device and with another observer. -/
abbrev elsewhere (facade : Facade δ') (observer : Observer τ') : Engine δ' τ' where
  image := engine.image
  facade := facade
  observer := observer
  limits := engine.limits

def enclosed (depth target : Nat) (run : MachineM δ τ α) : MachineM δ τ α := do
  engine.note depth (.call target (depth + 1))
  let value ← run
  engine.note depth .ret
  return value

theorem call_of_none {nesting : Nesting δ τ} (h : nesting.inner = none) (target : Nat) :
    engine.call nesting target = pure (.error (.recursionLimit engine.limits.maxDepth)) := by
  unfold call
  rw [h]

theorem call_of_inner {nesting : Nesting δ τ} {run : Nat → MachineM δ τ Outcome}
    (h : nesting.inner = some run) (target : Nat) :
    engine.call nesting target = engine.enclosed nesting.depth target (run target) >>=
      fun outcome => match outcome with
        | .ok _ => return .ok ()
        | .error cause => do
          engine.note nesting.depth (.aborted target cause)
          return .ok () := by
  unfold call
  rw [h]
  rfl

/-- A call is refused only where there is no room for it. -/
theorem inner_of_call_error {nesting : Nesting δ τ} {target : Nat} {machine : Machine δ τ}
    {cause : InstructionError} (h : (engine.call nesting target machine).1 = .error cause) :
    nesting.inner = none := by
  cases hn : nesting.inner with
  | none => rfl
  | some run =>
    rw [call_of_inner engine hn] at h
    simp only [MachineM.bind_apply] at h
    cases hr : (engine.enclosed nesting.depth target (run target) machine).1 with
    | ok report => simp [hr] at h
    | error cause => simp [hr] at h

/-- A relation at each depth between the actions of an engine and those of the engine elsewhere,
which the operations of actions keep. -/
structure Correspondence (facade : Facade δ') (observer : Observer τ') where
  Rel : Nat → {α : Type} → MachineM δ τ α → MachineM δ' τ' α → Prop
  keeps_pure {α : Type} (depth : Nat) (value : α) : Rel depth (pure value) (pure value)
  keeps_bind {α β : Type} {depth : Nat} {action : MachineM δ τ α} {other : MachineM δ' τ' α}
    {next : α → MachineM δ τ β} {next' : α → MachineM δ' τ' β} (first : Rel depth action other)
    (rest : ∀ value, Rel depth (next value) (next' value)) :
    Rel depth (action >>= next) (other >>= next')
  keeps_state (depth : Nat) : Rel depth MachineM.state MachineM.state
  keeps_setExecute (depth : Nat) (flag : Bool) :
    Rel depth (MachineM.setExecute flag) (MachineM.setExecute flag)
  keeps_whileRepeating {α : Type} {depth : Nat} {action : MachineM δ τ α}
    {other : MachineM δ' τ' α} (passes : Rel depth action other) :
    Rel depth (MachineM.whileRepeating action) (MachineM.whileRepeating other)
  keeps_perform {α : Type} (depth : Nat) (effect : Effect α) :
    Rel depth (engine.perform effect) ((engine.elsewhere facade observer).perform effect)
  keeps_note (depth : Nat) {event : Event} (inner : event.isInner = true) :
    Rel depth (engine.note depth event) ((engine.elsewhere facade observer).note depth event)
  keeps_enclosed {α : Type} {depth : Nat} {action : MachineM δ τ α} {other : MachineM δ' τ' α}
    (target : Nat) (run : Rel (depth + 1) action other) :
    Rel depth (engine.enclosed depth target action)
      ((engine.elsewhere facade observer).enclosed depth target other)

namespace Correspondence

variable {engine} {facade : Facade δ'} {observer : Observer τ'}
  (between : engine.Correspondence facade observer)

theorem bind_pure {depth : Nat} {action : MachineM δ τ α} {other : MachineM δ' τ' α}
    (h : between.Rel depth action other) (f : α → β) :
    between.Rel depth (action >>= fun value => pure (f value))
      (other >>= fun value => pure (f value)) :=
  between.keeps_bind h fun value => between.keeps_pure depth (f value)

structure Places (nesting : Nesting δ τ) (other : Nesting δ' τ') : Prop where
  depth : other.depth = nesting.depth
  inner : Option.Rel (fun run run' => ∀ target,
    between.Rel (nesting.depth + 1) (run target) (run' target)) nesting.inner other.inner

namespace Places

variable {between} {nesting : Nesting δ τ} {other : Nesting δ' τ'}
  (places : between.Places nesting other)

include places

theorem note {event : Event} (inner : event.isInner = true) :
    between.Rel nesting.depth (engine.note nesting.depth event)
      ((engine.elsewhere facade observer).note other.depth event) := by
  rw [places.depth]
  exact between.keeps_note nesting.depth inner

theorem note_then {event : Event} {rest : MachineM δ τ α} {rest' : MachineM δ' τ' α}
    (inner : event.isInner = true) (h : between.Rel nesting.depth rest rest') :
    between.Rel nesting.depth (engine.note nesting.depth event >>= fun _ => rest)
      ((engine.elsewhere facade observer).note other.depth event >>= fun _ => rest') :=
  between.keeps_bind (note places inner) fun _ => h

theorem call (target : Nat) : between.Rel nesting.depth (engine.call nesting target)
    ((engine.elsewhere facade observer).call other target) := by
  have hinner := places.inner
  cases hn : nesting.inner with
  | none =>
    cases ho : other.inner with
    | none =>
      rw [call_of_none engine hn, call_of_none _ ho]
      exact between.keeps_pure _ _
    | some run' =>
      rw [hn, ho] at hinner
      cases hinner
  | some run =>
    cases ho : other.inner with
    | none =>
      rw [hn, ho] at hinner
      cases hinner
    | some run' =>
      rw [hn, ho] at hinner
      obtain ⟨hrun⟩ := hinner
      have henclosed := between.keeps_enclosed target (hrun target)
      rw [call_of_inner engine hn, call_of_inner _ ho, places.depth]
      refine between.keeps_bind henclosed fun outcome => ?_
      cases outcome with
      | ok report => exact between.keeps_pure _ _
      | error cause =>
        exact between.bind_pure (between.keeps_note nesting.depth rfl) _

theorem callTimes (target times : Nat) : between.Rel nesting.depth
    (engine.callTimes nesting target times)
    ((engine.elsewhere facade observer).callTimes other target times) := by
  induction times with
  | zero => exact between.keeps_pure _ _
  | succ times ih =>
    refine between.keeps_bind (call places target) fun result => ?_
    cases result with
    | error cause => exact between.keeps_pure _ _
    | ok _ => exact ih

theorem control (offset length : Nat) (op : Control) :
    between.Rel nesting.depth (engine.control nesting offset length op)
      ((engine.elsewhere facade observer).control other offset length op) := by
  cases op with
  | repeatBlock count =>
    have hpasses := callTimes places (offset + length) (count.toNat - 1)
    exact between.bind_pure (between.keeps_whileRepeating hpasses) _
  | endRepeat => exact between.bind_pure (between.keeps_state _) _
  | negate =>
    refine between.keeps_bind (between.keeps_state _) fun state => ?_
    exact between.bind_pure (between.keeps_setExecute _ _) _
  | resume => exact between.bind_pure (between.keeps_setExecute _ true) _
  | done => exact between.keeps_pure _ _
  | jump target => exact between.keeps_pure _ _
  | sub index =>
    simp only [Engine.control]
    cases engine.image.scriptPointer index with
    | error cause => exact between.keeps_pure _ _
    | ok target => exact between.bind_pure (call places target.toNat) _
  | subDirect target => exact between.bind_pure (call places target.toNat) _
  | reserved which => exact note_then places rfl (between.keeps_pure _ _)

theorem condition (offset : Nat) (op : Condition) :
    between.Rel nesting.depth (engine.condition nesting offset op)
      ((engine.elsewhere facade observer).condition other offset op) := by
  unfold Engine.condition
  cases op.unsupported? with
  | some cause => exact between.keeps_pure _ _
  | none =>
    refine between.keeps_bind (between.keeps_state _) fun state => ?_
    refine between.keeps_bind (between.keeps_perform _ _) fun verdict => ?_
    refine note_then places rfl ?_
    rcases verdict with cause | met | met
    · exact between.bind_pure (between.keeps_setExecute _ false) _
    · exact between.bind_pure (between.keeps_setExecute _ false) _
    · exact between.keeps_pure _ _

theorem bus (offset : Nat) (op : BusOp) :
    between.Rel nesting.depth (engine.bus nesting offset op)
      ((engine.elsewhere facade observer).bus other offset op) := by
  have hnotices (notices : List TransferNotice) : between.Rel nesting.depth
      (notices.forM fun notice =>
        engine.note nesting.depth (.transfer offset op.opcode notice))
      (notices.forM fun notice => (engine.elsewhere facade observer).note other.depth
        (.transfer offset op.opcode notice)) := by
    induction notices with
    | nil => exact between.keeps_pure _ _
    | cons notice rest ih => exact note_then places rfl ih
  refine between.keeps_bind (between.keeps_state _) fun state => ?_
  refine between.keeps_bind (between.keeps_perform _ _) fun result => ?_
  cases result with
  | error cause => exact between.keeps_pure _ _
  | ok notices => exact between.bind_pure (hnotices notices) _

theorem execute (offset length : Nat) (instruction : Instruction) :
    between.Rel nesting.depth (engine.execute nesting offset length instruction)
      ((engine.elsewhere facade observer).execute other offset length instruction) := by
  cases instruction with
  | control op => exact control places offset length op
  | condition op => exact between.bind_pure (condition places offset op) _
  | bus op => exact between.bind_pure (bus places offset op) _
  | port op =>
    refine between.keeps_bind (between.keeps_state _) fun state => ?_
    exact between.bind_pure (between.keeps_perform _ _) _
  | register op => exact between.bind_pure (between.keeps_perform _ _) _
  | clock op => exact between.bind_pure (between.keeps_perform _ _) _
  | board op => exact between.bind_pure (between.keeps_perform _ _) _

theorem announce (offset : Nat) (opcode : Opcode) (before : Bool)
    (result : Except InstructionError Step) :
    between.Rel nesting.depth (engine.announce nesting offset opcode before result)
      ((engine.elsewhere facade observer).announce other offset opcode before result) := by
  have hflag : between.Rel nesting.depth
      (do
        let after ← MachineM.state
        if after.execute != before || opcode.isCondition then
          engine.note nesting.depth (.execute after.execute))
      (do
        let after ← MachineM.state
        if after.execute != before || opcode.isCondition then
          (engine.elsewhere facade observer).note other.depth (.execute after.execute)) := by
    refine between.keeps_bind (between.keeps_state _) fun after => ?_
    by_cases h : after.execute != before || opcode.isCondition
    · rw [if_pos h, if_pos h]
      exact note places rfl
    · rw [if_neg h, if_neg h]
      exact between.keeps_pure _ _
  cases result with
  | ok next => exact hflag
  | error cause => exact note_then places rfl hflag

theorem runInstruction (offset length : Nat) (opcode : Opcode) (instruction : Instruction) :
    between.Rel nesting.depth
      (engine.runInstruction nesting offset length opcode instruction)
      ((engine.elsewhere facade observer).runInstruction other offset length opcode
        instruction) := by
  refine note_then places rfl ?_
  refine between.keeps_bind (between.keeps_state _) fun before => ?_
  refine between.keeps_bind (execute places offset length instruction) fun result => ?_
  exact between.bind_pure (announce places offset opcode before.execute result) _

theorem stepKnown (offset length : Nat) (opcode : Opcode) :
    between.Rel nesting.depth (engine.stepKnown nesting offset length opcode)
      ((engine.elsewhere facade observer).stepKnown other offset length opcode) := by
  refine between.keeps_bind (between.keeps_state _) fun state => ?_
  by_cases hs : !state.execute && !opcode.runsWhileSkipping
  · rw [if_pos hs, if_pos hs]
    exact note_then places rfl (between.keeps_pure _ _)
  · rw [if_neg hs, if_neg hs]
    simp only [elsewhere]
    cases Instruction.decode engine.image offset with
    | error cause => exact note_then places rfl (between.keeps_pure _ _)
    | ok instruction => exact runInstruction places offset length opcode instruction

theorem step (offset : Nat) :
    between.Rel nesting.depth (engine.step nesting offset)
      ((engine.elsewhere facade observer).step other offset) := by
  refine note_then places rfl ?_
  simp only [elsewhere]
  cases engine.image.byte offset with
  | error cause => exact between.keeps_pure _ _
  | ok id =>
    cases ho : Opcode.ofByte? id with
    | none =>
      simp only [ho]
      exact note_then places rfl (between.keeps_pure _ _)
    | some opcode =>
      simp only [ho]
      by_cases hl : opcode.legacyOnly && !engine.image.isLegacy
      · rw [if_pos hl, if_pos hl]
        exact note_then places rfl (between.keeps_pure _ _)
      · rw [if_neg hl, if_neg hl]
        cases opcode.encodedLength engine.image offset with
        | error cause => exact between.keeps_pure _ _
        | ok length => exact between.bind_pure (stepKnown places offset length opcode) _

theorem proceed (start cursor ops : Nat) {go : Nat → MachineM δ τ Outcome}
    {go' : Nat → MachineM δ' τ' Outcome}
    (hg : ∀ target, between.Rel nesting.depth (go target) (go' target))
    (next : Except UnknownOpcode Step) :
    between.Rel nesting.depth
      (engine.proceed nesting.depth start cursor ops go next)
      ((engine.elsewhere facade observer).proceed other.depth start cursor ops go' next) := by
  rcases next with cause | distance | _ | _
  · exact between.keeps_pure _ _
  · simp only [Engine.proceed]
    cases advance? cursor distance with
    | some target => exact hg target
    | none => exact note_then places rfl (between.keeps_pure _ _)
  · exact between.keeps_pure _ _
  · exact note_then places rfl (between.keeps_pure _ _)

theorem walk (start left cursor : Nat) :
    between.Rel nesting.depth (engine.walk nesting start left cursor)
      ((engine.elsewhere facade observer).walk other start left cursor) := by
  induction left generalizing cursor with
  | zero =>
    unfold Engine.walk
    by_cases hle : engine.image.length ≤ cursor
    · rw [if_pos hle, if_pos hle]
      exact note_then places rfl (between.keeps_pure _ _)
    · rw [if_neg hle, if_neg hle]
      exact note_then places rfl (between.keeps_pure _ _)
  | succ left ih =>
    rcases Nat.lt_or_ge cursor engine.image.length with hlt | hle
    · rw [walk_succ engine nesting start left cursor hlt,
        walk_succ (engine.elsewhere facade observer) other start left cursor hlt]
      exact between.keeps_bind (step places cursor) (proceed places start cursor _ ih)
    · unfold Engine.walk
      rw [if_pos hle, if_pos hle]
      exact note_then places rfl (between.keeps_pure _ _)

theorem runAt (start : Nat) :
    between.Rel nesting.depth (engine.runAt nesting start)
      ((engine.elsewhere facade observer).runAt other start) := by
  unfold Engine.runAt
  by_cases h : start = 0
  · rw [if_pos h, if_pos h]
    exact between.keeps_pure _ _
  · rw [if_neg h, if_neg h]
    exact walk places start _ start

end Places

theorem places_nesting {room : Nat} (hr : room ≤ engine.limits.maxDepth) :
    between.Places (engine.nesting room) ((engine.elsewhere facade observer).nesting room) := by
  induction room with
  | zero => exact ⟨rfl, .none⟩
  | succ room ih =>
    have hm := ih (Nat.le_of_lt hr)
    have hd : engine.limits.maxDepth - (room + 1) + 1 = (engine.nesting room).depth := by
      rw [depth_nesting]
      omega
    refine ⟨rfl, .some fun target => ?_⟩
    show between.Rel (engine.limits.maxDepth - (room + 1) + 1) _ _
    rw [hd]
    exact hm.runAt target

end Correspondence

end Engine

end RomScript
