import RomScript.Proofs.Engine.Chronicle
import RomScript.Proofs.Engine.Correspondence

/-!
# Passages

A passage is what an action does to the device and to the state, with the events that it
shows. It is made of a few kinds of moves, so a fact about every step and every run is proved
by induction on the moves. The observer has no part in it: an action makes the same passage
and has the same value whoever observes it.
-/

set_option autoImplicit false

namespace RomScript

/-- A machine without its notes. -/
structure Scene (δ : Type) where
  bench : Bench δ
  state : ScriptState

namespace Scene

variable {δ τ : Type}

def noted (scene : Scene δ) (notes : τ) : Machine δ τ :=
  { bench := scene.bench, state := scene.state, notes }

def withBench (scene : Scene δ) (bench : Bench δ) : Scene δ := { scene with bench }

def withExecute (scene : Scene δ) (execute : Bool) : Scene δ :=
  { scene with state := { scene.state with execute } }

def withRepeating (scene : Scene δ) (repeating : Bool) : Scene δ :=
  { scene with state := { scene.state with repeating } }

end Scene

def Machine.scene {δ τ : Type} (machine : Machine δ τ) : Scene δ :=
  { bench := machine.bench, state := machine.state }

/-- From a scene to another one at a depth, with the events shown on the way. -/
inductive Passage {δ : Type} (facade : Facade δ) : Nat → Scene δ → Chronicle → Scene δ → Prop
  | none (depth : Nat) (scene : Scene δ) : Passage facade depth scene [] scene
  | append {depth : Nat} {first middle last : Scene δ} {events rest : Chronicle}
      (before : Passage facade depth first events middle)
      (after : Passage facade depth middle rest last) :
      Passage facade depth first (events ++ rest) last
  | note (depth : Nat) (scene : Scene δ) {event : Event} (inner : event.isInner = true) :
      Passage facade depth scene [({ depth, execute := scene.state.execute }, event)] scene
  | perform {α : Type} (effect : Effect α) (depth : Nat) (scene : Scene δ) :
      Passage facade depth scene [] (scene.withBench (effect.run facade scene.bench).2)
  | flag (execute : Bool) (depth : Nat) (scene : Scene δ) :
      Passage facade depth scene [] (scene.withExecute execute)
  | call (target : Nat) {depth : Nat} {first last : Scene δ} {events : Chronicle}
      (run : Passage facade (depth + 1) first events last) :
      Passage facade depth first
        (({ depth, execute := first.state.execute }, .call target (depth + 1)) ::
          events ++ [({ depth, execute := last.state.execute }, .ret)]) last
  /-- With the repeat flag on, and put back at the end. -/
  | repeated {depth : Nat} {first last : Scene δ} {events : Chronicle}
      (passes : Passage facade depth (first.withRepeating true) events last) :
      Passage facade depth first events (last.withRepeating first.state.repeating)

namespace Engine

variable {δ τ υ α β : Type} (engine : Engine δ τ) (observer : Observer υ)

abbrev observedBy : Engine δ υ where
  image := engine.image
  facade := engine.facade
  observer := observer
  limits := engine.limits

/-- From the same scene both actions have the same value and make the same passage. -/
def Concur (depth : Nat) (action : MachineM δ τ α) (observed : MachineM δ υ α) : Prop :=
  ∀ scene notes notes', ∃ value events last, Passage engine.facade depth scene events last ∧
    action (scene.noted notes) = (value, last.noted (engine.observer.replay events notes)) ∧
    observed (scene.noted notes') = (value, last.noted (observer.replay events notes'))

section Concur

variable {engine observer} {depth : Nat} {action : MachineM δ τ α} {observed : MachineM δ υ α}
  {next : α → MachineM δ τ β} {next' : α → MachineM δ υ β}

theorem concur_pure (value : α) : engine.Concur observer depth (pure value) (pure value) :=
  fun scene _ _ => ⟨value, [], scene, .none depth scene, rfl, rfl⟩

theorem concur_bind (ha : engine.Concur observer depth action observed)
    (hn : ∀ value, engine.Concur observer depth (next value) (next' value)) :
    engine.Concur observer depth (action >>= next) (observed >>= next') := by
  intro scene notes notes'
  obtain ⟨value, events, middle, hp, ha, ho⟩ := ha scene notes notes'
  obtain ⟨result, rest, last, hr, hn, hn'⟩ := hn value middle
    (engine.observer.replay events notes) (observer.replay events notes')
  refine ⟨result, events ++ rest, last, hp.append hr, ?_, ?_⟩
  · rw [MachineM.bind_apply, ha, Observer.replay_append]
    exact hn
  · rw [MachineM.bind_apply, ho, Observer.replay_append]
    exact hn'

theorem concur_state : engine.Concur observer depth MachineM.state MachineM.state :=
  fun scene _ _ => ⟨scene.state, [], scene, .none depth scene, rfl, rfl⟩

theorem concur_setExecute (flag : Bool) :
    engine.Concur observer depth (MachineM.setExecute flag) (MachineM.setExecute flag) :=
  fun scene _ _ => ⟨(), [], _, .flag flag depth scene, rfl, rfl⟩

theorem concur_perform (effect : Effect α) :
    engine.Concur observer depth (engine.perform effect)
      ((engine.observedBy observer).perform effect) :=
  fun scene _ _ => ⟨_, [], _, .perform effect depth scene, rfl, rfl⟩

theorem concur_whileRepeating (ha : engine.Concur observer depth action observed) :
    engine.Concur observer depth (MachineM.whileRepeating action)
      (MachineM.whileRepeating observed) := by
  intro scene notes notes'
  obtain ⟨value, events, last, hp, ha, ho⟩ := ha (scene.withRepeating true) notes notes'
  have hback {ρ : Type} {passes : MachineM δ ρ α} {before after : ρ}
      (h : passes ((scene.withRepeating true).noted before) = (value, last.noted after)) :
      MachineM.whileRepeating passes (scene.noted before) =
        (value, (last.withRepeating scene.state.repeating).noted after) := by
    have hw : MachineM.whileRepeating passes (scene.noted before) =
        ((passes ((scene.withRepeating true).noted before)).1,
          (MachineM.setRepeating scene.state.repeating
            (passes ((scene.withRepeating true).noted before)).2).2) := rfl
    rw [hw, h]
    rfl
  exact ⟨value, events, _, .repeated hp, hback ha, hback ho⟩

theorem concur_note {event : Event} (hi : event.isInner = true) :
    engine.Concur observer depth (engine.note depth event)
      ((engine.observedBy observer).note depth event) :=
  fun scene _ _ => ⟨(), _, scene, .note depth scene hi, rfl, rfl⟩

theorem concur_enclosed (target : Nat) (hr : engine.Concur observer (depth + 1) action observed) :
    engine.Concur observer depth (engine.enclosed depth target action)
      ((engine.observedBy observer).enclosed depth target observed) := by
  intro scene notes notes'
  let entry : Moment × Event :=
    ({ depth, execute := scene.state.execute }, .call target (depth + 1))
  obtain ⟨value, events, last, hp, h, h'⟩ := hr scene
    (engine.observer.note entry.1 entry.2 notes) (observer.note entry.1 entry.2 notes')
  have hend {ρ : Type} (other : Engine δ ρ) {inside : MachineM δ ρ α} {notes : ρ}
      (h : inside (scene.noted (other.observer.note entry.1 entry.2 notes)) =
        (value, last.noted (other.observer.replay events
          (other.observer.note entry.1 entry.2 notes)))) :
      other.enclosed depth target inside (scene.noted notes) =
        (value, last.noted (other.observer.replay (entry :: events ++
          [({ depth, execute := last.state.execute }, .ret)]) notes)) := by
    have he : other.enclosed depth target inside (scene.noted notes) =
        ((inside (scene.noted (other.observer.note entry.1 entry.2 notes))).1,
          (other.note depth .ret
            (inside (scene.noted (other.observer.note entry.1 entry.2 notes))).2).2) := rfl
    rw [he, h, Observer.replay_append]
    rfl
  exact ⟨value, _, last, .call target hp, hend engine h, hend (engine.observedBy observer) h'⟩

end Concur

/-- Actions that concur correspond, so each action of the engine concurs with the same one. -/
def concurrence : engine.Correspondence engine.facade observer where
  Rel depth _ action observed := engine.Concur observer depth action observed
  keeps_pure _ value := concur_pure value
  keeps_bind first rest := concur_bind first rest
  keeps_state _ := concur_state
  keeps_setExecute _ flag := concur_setExecute flag
  keeps_whileRepeating passes := concur_whileRepeating passes
  keeps_perform _ effect := concur_perform effect
  keeps_note _ _ inner := concur_note inner
  keeps_enclosed target run := concur_enclosed target run

structure Matched (nesting : Nesting δ τ) (observed : Nesting δ υ) : Prop where
  depth : observed.depth = nesting.depth
  inner : Option.Rel (fun run run' => ∀ target,
    engine.Concur observer (nesting.depth + 1) (run target) (run' target))
    nesting.inner observed.inner

section Steps

variable {engine observer} {nesting : Nesting δ τ} {observed : Nesting δ υ}
  (hm : engine.Matched observer nesting observed)

include hm

theorem places_of_matched : (engine.concurrence observer).Places nesting observed :=
  ⟨hm.depth, hm.inner⟩

theorem concur_call (target : Nat) : engine.Concur observer nesting.depth
    (engine.call nesting target) ((engine.observedBy observer).call observed target) :=
  (places_of_matched hm).call target

theorem concur_step (offset : Nat) :
    engine.Concur observer nesting.depth (engine.step nesting offset)
      ((engine.observedBy observer).step observed offset) :=
  (places_of_matched hm).step offset

theorem concur_proceed (start cursor ops : Nat) {go : Nat → MachineM δ τ Outcome}
    {go' : Nat → MachineM δ υ Outcome}
    (hg : ∀ target, engine.Concur observer nesting.depth (go target) (go' target))
    (next : Except UnknownOpcode Step) :
    engine.Concur observer nesting.depth
      (engine.proceed nesting.depth start cursor ops go next)
      ((engine.observedBy observer).proceed observed.depth start cursor ops go' next) :=
  (places_of_matched hm).proceed start cursor ops hg next

theorem concur_walk (start left cursor : Nat) :
    engine.Concur observer nesting.depth (engine.walk nesting start left cursor)
      ((engine.observedBy observer).walk observed start left cursor) :=
  (places_of_matched hm).walk start left cursor

theorem concur_runAt (start : Nat) :
    engine.Concur observer nesting.depth (engine.runAt nesting start)
      ((engine.observedBy observer).runAt observed start) :=
  (places_of_matched hm).runAt start

end Steps

theorem matched_nesting {room : Nat} (hr : room ≤ engine.limits.maxDepth) :
    engine.Matched observer (engine.nesting room)
      ((engine.observedBy observer).nesting room) :=
  let places := (engine.concurrence observer).places_nesting hr
  ⟨places.depth, places.inner⟩

theorem matched_recorded {room : Nat} (hr : room ≤ engine.limits.maxDepth) :
    engine.Matched (engine.observer.both .recorder) (engine.nesting room)
      (engine.recorded.nesting room) :=
  matched_nesting engine _ hr

/-! ## Chronicles -/

section Recorded

variable {engine} {depth : Nat} {action : MachineM δ τ α}
  {recorded : MachineM δ (τ × Chronicle) α}
  (h : engine.Concur (engine.observer.both .recorder) depth action recorded)

include h

/-- A recorder beside the observer changes neither the value nor the passage, and records what
the observer is shown. -/
theorem concur_recorded (machine : Machine δ τ) (past : Chronicle) :
    ∃ events, Passage engine.facade depth machine.scene events (action machine).2.scene ∧
      (action machine).2.notes = engine.observer.replay events machine.notes ∧
      recorded { machine with notes := (machine.notes, past) } =
        ((action machine).1, { (action machine).2 with
          notes := ((action machine).2.notes, events.reverse ++ past) }) := by
  obtain ⟨value, events, last, hp, ha, hr⟩ :=
    h machine.scene machine.notes (machine.notes, past)
  have ha : action machine = (value, last.noted (engine.observer.replay events machine.notes)) := ha
  rw [Observer.replay_both, Observer.replay_recorder] at hr
  rw [ha]
  exact ⟨events, hp, rfl, hr⟩

theorem chronicle_passage (machine : Machine δ τ) :
    Passage engine.facade depth machine.scene (chronicle recorded machine)
        (action machine).2.scene ∧
      (action machine).2.notes =
        engine.observer.replay (chronicle recorded machine) machine.notes := by
  obtain ⟨events, hp, hn, hr⟩ := concur_recorded h machine []
  have hc : chronicle recorded machine = events := by
    rw [chronicle, hr, List.append_nil, List.reverse_reverse]
  rw [hc]
  exact ⟨hp, hn⟩

end Recorded

/-- An outermost run shows its beginning, and then makes a passage at depth zero. -/
theorem chronicle_runScript (start : Nat) (machine : Machine δ τ) :
    ∃ events, chronicle (engine.recorded.runScript start) machine =
        ({ depth := 0, execute := machine.state.execute }, .script start) :: events ∧
      Passage engine.facade 0 (engine.begun machine start).scene events
        (engine.runScript start machine).2.scene ∧
      (engine.runScript start machine).2.notes =
        engine.observer.replay events (engine.begun machine start).notes ∧
      (engine.recorded.runScript start { machine with notes := (machine.notes, []) }).1 =
        (engine.runScript start machine).1 := by
  have hc := concur_runAt (engine.matched_recorded (Nat.le_refl _)) start
  rw [depth_nesting, Nat.sub_self] at hc
  obtain ⟨events, hp, hn, hr⟩ := concur_recorded hc (engine.begun machine start)
    [({ depth := 0, execute := machine.state.execute }, .script start)]
  have hr : engine.recorded.runScript start { machine with notes := (machine.notes, []) } = _ := hr
  refine ⟨events, ?_, hp, hn, congrArg Prod.fst hr⟩
  rw [chronicle, hr, List.reverse_append, List.reverse_reverse]
  rfl

end Engine

end RomScript
