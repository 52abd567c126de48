import RomScript.Proofs.Engine.Chronicle
import RomScript.Proofs.Engine.Correspondence

/-!
# Lockstep

Two devices that answer every request alike, as long as they are related, cannot be told apart
by a script: what runs on both makes the same choices, with the same values, and the devices
stay related. So do the notes of two observers, if every event keeps them related.
-/

set_option autoImplicit false

namespace RomScript

variable {δ δ' τ τ' α : Type}

def Facade.Agrees (facade : Facade δ) (other : Facade δ') (R : δ → δ' → Prop) : Prop :=
  ∀ request device device', R device device' →
    (other.answer request device').1 = (facade.answer request device).1 ∧
      R (facade.answer request device).2 (other.answer request device').2

theorem Facade.agrees_same (facade : Facade δ) : facade.Agrees facade Eq := by
  rintro request device _ rfl
  exact ⟨rfl, rfl⟩

def Observer.Agrees (observer : Observer τ) (other : Observer τ') (N : τ → τ' → Prop) : Prop :=
  ∀ moment event notes notes', N notes notes' →
    N (observer.note moment event notes) (other.note moment event notes')

/-- The same but for devices and notes, which are related. -/
structure Machine.Tied (R : δ → δ' → Prop) (N : τ → τ' → Prop) (machine : Machine δ τ)
    (other : Machine δ' τ') : Prop where
  device : R machine.bench.device other.bench.device
  column : other.bench.column = machine.bench.column
  state : other.state = machine.state
  notes : N machine.notes other.notes

theorem Effect.run_agrees {facade : Facade δ} {other : Facade δ'} {R : δ → δ' → Prop}
    (h : facade.Agrees other R) (effect : Effect α) {bench : Bench δ} {bench' : Bench δ'}
    (hd : R bench.device bench'.device) (hc : bench'.column = bench.column) :
    (effect.run other bench').1 = (effect.run facade bench).1 ∧
      R (effect.run facade bench).2.device (effect.run other bench').2.device ∧
      (effect.run other bench').2.column = (effect.run facade bench).2.column := by
  induction effect generalizing bench bench' with
  | done value => exact ⟨rfl, hd, hc⟩
  | fail cause => exact ⟨rfl, hd, hc⟩
  | ask request next ih =>
    obtain ⟨ha, hr⟩ := h request bench.device bench'.device hd
    simp only [run, ha]
    exact ih _ hr hc
  | getColumn next ih =>
    simp only [run, hc]
    exact ih _ hd hc
  | setColumn column next ih => exact ih hd rfl

namespace Engine

variable {β : Type}

def Lockstep (R : δ → δ' → Prop) (N : τ → τ' → Prop) (action : MachineM δ τ α)
    (other : MachineM δ' τ' α) : Prop :=
  ∀ machine machine', machine.Tied R N machine' →
    (other machine').1 = (action machine).1 ∧ (action machine).2.Tied R N (other machine').2

section Lockstep

variable {R : δ → δ' → Prop} {N : τ → τ' → Prop} {action : MachineM δ τ α}
  {other : MachineM δ' τ' α}

theorem lockstep_bind {next : α → MachineM δ τ β} {next' : α → MachineM δ' τ' β}
    (ha : Lockstep R N action other) (hn : ∀ value, Lockstep R N (next value) (next' value)) :
    Lockstep R N (action >>= next) (other >>= next') := by
  intro machine machine' h
  obtain ⟨hv, ht⟩ := ha machine machine' h
  rw [MachineM.bind_apply, MachineM.bind_apply, hv]
  exact hn _ _ _ ht

theorem lockstep_pure (value : α) :
    Lockstep R N (pure value : MachineM δ τ α) (pure value : MachineM δ' τ' α) :=
  fun _ _ h => ⟨rfl, h⟩

theorem lockstep_mapM {γ : Type} {f : γ → MachineM δ τ α} {f' : γ → MachineM δ' τ' α}
    (h : ∀ item, Lockstep R N (f item) (f' item)) (items : List γ) :
    Lockstep R N (items.mapM f) (items.mapM f') := by
  induction items with
  | nil => exact lockstep_pure []
  | cons item rest ih =>
    rw [List.mapM_cons, List.mapM_cons]
    exact lockstep_bind (h item) fun _ => lockstep_bind ih fun _ => lockstep_pure _

/-- With a state of their own, the actions leave the states of the machines as they were. -/
theorem lockstep_withState (ha : Lockstep R N action other) (state : ScriptState) :
    Lockstep R N (MachineM.withState state action) (MachineM.withState state other) := by
  intro machine machine' h
  obtain ⟨hv, ht⟩ := ha { machine with state } { machine' with state }
    ⟨h.device, h.column, rfl, h.notes⟩
  exact ⟨hv, ht.device, ht.column, h.state, ht.notes⟩

theorem lockstep_whileRepeating (ha : Lockstep R N action other) :
    Lockstep R N (MachineM.whileRepeating action) (MachineM.whileRepeating other) := by
  intro machine machine' h
  have hset : ({ machine with state := { machine.state with repeating := true } } :
      Machine δ τ).Tied R N { machine' with state := { machine'.state with repeating := true } } :=
    ⟨h.device, h.column, congrArg (fun state => { state with repeating := true }) h.state, h.notes⟩
  obtain ⟨hv, ht⟩ := ha _ _ hset
  refine ⟨hv, ht.device, ht.column, ?_, ht.notes⟩
  have hrepeating := congrArg ScriptState.repeating h.state
  have hback {state state' : ScriptState} (hs : state' = state) :
      { state' with repeating := machine'.state.repeating } =
        { state with repeating := machine.state.repeating } := by
    rw [hs, hrepeating]
  exact hback ht.state

theorem lockstep_setExecute (flag : Bool) : Lockstep R N
    (MachineM.setExecute flag : MachineM δ τ Unit) (MachineM.setExecute flag) :=
  fun _ _ h => ⟨rfl, h.device, h.column,
    congrArg (fun state => { state with execute := flag }) h.state, h.notes⟩

variable {engine : Engine δ τ} {facade : Facade δ'} {observer : Observer τ'}

theorem lockstep_perform (hf : engine.facade.Agrees facade R) (effect : Effect α) :
    Lockstep R N (engine.perform effect) ((engine.elsewhere facade observer).perform effect) := by
  intro machine machine' h
  obtain ⟨hv, hd, hc⟩ := effect.run_agrees hf h.device h.column
  exact ⟨hv, hd, hc, h.state, h.notes⟩

/-- The events may differ if they keep the notes related. -/
theorem lockstep_note {event event' : Event} (depth : Nat)
    (hn : ∀ moment notes notes', N notes notes' →
      N (engine.observer.note moment event notes) (observer.note moment event' notes')) :
    Lockstep R N (engine.note depth event)
      ((engine.elsewhere facade observer).note depth event') := by
  intro machine machine' h
  refine ⟨rfl, h.device, h.column, h.state, ?_⟩
  simp only [note_apply, h.state]
  exact hn _ _ _ h.notes

/-- Actions in lockstep correspond, so each action of the engine is in lockstep with the same
one elsewhere. -/
def lockstep (hf : engine.facade.Agrees facade R) (ho : engine.observer.Agrees observer N) :
    engine.Correspondence facade observer where
  Rel _ _ action other := Lockstep R N action other
  keeps_pure _ value := lockstep_pure value
  keeps_bind first rest := lockstep_bind first rest
  keeps_state _ _ _ h := ⟨h.state, h⟩
  keeps_setExecute _ flag := lockstep_setExecute flag
  keeps_whileRepeating passes := lockstep_whileRepeating passes
  keeps_perform _ effect := lockstep_perform hf effect
  keeps_note depth event _ := lockstep_note depth fun moment => ho moment event
  keeps_enclosed _ run :=
    lockstep_bind (lockstep_note _ fun moment => ho moment _) fun _ =>
      lockstep_bind run fun value =>
        lockstep_bind (lockstep_note _ fun moment => ho moment .ret) fun _ => lockstep_pure value

theorem lockstep_runScript (hf : engine.facade.Agrees facade R)
    (ho : engine.observer.Agrees observer N) (start : Nat) :
    Lockstep R N (engine.runScript start)
      ((engine.elsewhere facade observer).runScript start) := by
  have hrun := ((lockstep hf ho).places_nesting (Nat.le_refl _)).runAt start
  refine lockstep_bind (fun machine machine' h => ⟨rfl, h.device, rfl, h.state, h.notes⟩) ?_
  exact fun _ => lockstep_bind (lockstep_note 0 fun moment => ho moment _) fun _ => hrun

/-- The runs may be announced differently if the announcements keep the notes related. -/
theorem lockstep_runFresh (hf : engine.facade.Agrees facade R)
    (ho : engine.observer.Agrees observer N) {event event' : Event}
    (hn : ∀ moment notes notes', N notes notes' →
      N (engine.observer.note moment event notes) (observer.note moment event' notes'))
    (output : Output) (start : Nat) :
    Lockstep R N (engine.runFresh output event start)
      ((engine.elsewhere facade observer).runFresh output event' start) :=
  lockstep_withState
    (lockstep_bind (lockstep_note 0 hn) fun _ => lockstep_runScript hf ho start) _

end Lockstep

theorem runScript_of_recorded (engine : Engine δ τ) (start : Nat) (machine : Machine δ τ) :
    let ran := engine.recorded.runScript start { machine with notes := (machine.notes, []) }
    engine.runScript start machine = (ran.1, { ran.2 with notes := ran.2.notes.1 }) := by
  intro ran
  have hagrees : engine.observer.Agrees (engine.observer.both .recorder)
      fun notes both => both.1 = notes :=
    fun moment event _ _ h => congrArg (engine.observer.note moment event) h
  obtain ⟨hvalue, htied⟩ := lockstep_runScript engine.facade.agrees_same hagrees start machine
    { machine with notes := (machine.notes, []) } ⟨rfl, rfl, rfl, rfl⟩
  have hmachine {machine : Machine δ τ} {other : Machine δ (τ × Chronicle)}
      (h : machine.Tied Eq (fun notes both => both.1 = notes) other) :
      machine = { other with notes := other.notes.1 } := by
    obtain ⟨⟨device, column⟩, state, notes⟩ := machine
    obtain ⟨⟨device', column'⟩, state', notes'⟩ := other
    obtain rfl : device = device' := h.device
    obtain rfl : column' = column := h.column
    obtain rfl : state' = state := h.state
    obtain rfl : notes'.1 = notes := h.notes
    rfl
  exact Prod.ext hvalue.symm (hmachine htied)

end Engine

end RomScript
