import RomScript.Device.Simulated
import RomScript.Proofs.Engine.Passage
import RomScript.Trace

/-!
# Balance

Whatever happens in it, an action puts back the repeat flag and the output, and returns from
every run that it calls. Its calls and returns are therefore balanced like brackets, and each
event is shown at the depth that the open brackets before it give. A trace counts the brackets,
so its lines are set in by the number of runs under way.
-/

set_option autoImplicit false

namespace RomScript

/-- Every call has its return, and all other events are shown at the depth of the open calls. -/
inductive Balanced : Nat → Chronicle → Prop
  | nil (depth : Nat) : Balanced depth []
  | inner {depth : Nat} {event : Event} {rest : Chronicle} (execute : Bool)
      (inner : event.isInner = true) (after : Balanced depth rest) :
      Balanced depth (({ depth, execute }, event) :: rest)
  | call {depth : Nat} {events rest : Chronicle} (target : Nat) (before behind : Bool)
      (run : Balanced (depth + 1) events) (after : Balanced depth rest) :
      Balanced depth
        (({ depth, execute := before }, .call target (depth + 1)) ::
          events ++ ({ depth, execute := behind }, .ret) :: rest)

theorem Balanced.append {depth : Nat} {events rest : Chronicle} (h : Balanced depth events)
    (hr : Balanced depth rest) : Balanced depth (events ++ rest) := by
  induction h with
  | nil => exact hr
  | inner execute inner _ ih => exact .inner execute inner (ih hr)
  | call target before behind run _ _ ih =>
    have hc := Balanced.call target before behind run (ih hr)
    simpa only [List.cons_append, List.append_assoc] using hc

namespace Passage

variable {δ : Type} {facade : Facade δ} {depth : Nat} {first last : Scene δ} {events : Chronicle}

theorem balanced (h : Passage facade depth first events last) : Balanced depth events := by
  induction h with
  | none depth scene => exact .nil depth
  | append _ _ ihb iha => exact ihb.append iha
  | note depth scene inner => exact .inner _ inner (.nil depth)
  | perform effect depth scene => exact .nil depth
  | flag execute depth scene => exact .nil depth
  | @call target depth first last events _ ih =>
    exact .call target first.state.execute last.state.execute ih (.nil depth)
  | repeated _ ih => exact ih

theorem repeating_eq (h : Passage facade depth first events last) :
    last.state.repeating = first.state.repeating := by
  induction h with
  | append _ _ ihb iha => exact iha.trans ihb
  | call target _ ih => exact ih
  | repeated _ _ => rfl
  | _ => rfl

theorem output_eq (h : Passage facade depth first events last) :
    last.state.output = first.state.output := by
  induction h with
  | append _ _ ihb iha => exact iha.trans ihb
  | call target _ ih => exact ih
  | repeated _ ih => exact ih
  | _ => rfl

end Passage

namespace TraceStyle

variable (style : TraceStyle)

def Indents : Trace → Chronicle → Prop
  | _, [] => True
  | trace, entry :: rest =>
    (entry.2.isInner = true → trace.depth = entry.1.depth) ∧
      Indents (style.observer.note entry.1 entry.2 trace) rest

theorem indents_append (trace : Trace) (events rest : Chronicle) :
    style.Indents trace (events ++ rest) ↔
      style.Indents trace events ∧ style.Indents (style.observer.replay events trace) rest := by
  induction events generalizing trace with
  | nil => simp [Indents, Observer.replay]
  | cons entry events ih =>
    simp only [List.cons_append, Indents, ih, and_assoc]
    rfl

theorem depth_of_inner (trace : Trace) (moment : Moment) {event : Event}
    (h : event.isInner = true) : (style.observer.note moment event trace).depth = trace.depth := by
  cases event <;> first | rfl | cases h

theorem indents_of_balanced {depth : Nat} {events : Chronicle} (h : Balanced depth events)
    (trace : Trace) (ht : trace.depth = depth) :
    style.Indents trace events ∧ (style.observer.replay events trace).depth = depth := by
  induction h generalizing trace with
  | nil depth => exact ⟨trivial, ht⟩
  | @inner depth event rest execute hi after ih =>
    have hn := style.depth_of_inner trace { depth, execute } hi
    obtain ⟨hind, hend⟩ := ih _ (hn.trans ht)
    exact ⟨⟨fun _ => ht, hind⟩, hend⟩
  | @call depth events rest target before behind run after ihr iha =>
    -- the call sets the trace in by one, and the return behind the run sets it back
    let called := style.observer.note { depth, execute := before } (.call target (depth + 1)) trace
    obtain ⟨hrun, hran⟩ := ihr called (congrArg (· + 1) ht)
    let returned := style.observer.note { depth, execute := behind } .ret
      (style.observer.replay events called)
    have hret : returned.depth = depth := by
      show (style.observer.replay events called).depth - 1 = depth
      rw [hran]
      rfl
    obtain ⟨hrest, hend⟩ := iha returned hret
    have hsplit : style.observer.replay (({ depth, execute := before },
        .call target (depth + 1)) :: events ++ ({ depth, execute := behind }, .ret) :: rest) trace =
          style.observer.replay rest returned := by
      rw [Observer.replay_append]
      rfl
    rw [hsplit]
    have hinside : style.Indents called (events ++ ({ depth, execute := behind }, .ret) :: rest) :=
      (style.indents_append called events _).mpr ⟨hrun, nofun, hrest⟩
    exact ⟨⟨nofun, hinside⟩, hend⟩

theorem depth_of_indents {trace : Trace} {before after : Chronicle} {entry : Moment × Event}
    (h : style.Indents trace (before ++ entry :: after)) (hi : entry.2.isInner = true) :
    (style.observer.replay before trace).depth = entry.1.depth :=
  (((style.indents_append trace before (entry :: after)).mp h).2).1 hi

end TraceStyle

namespace Engine

variable {δ τ : Type} (engine : Engine δ τ)

/-- Behind an action the repeat flag and the output are as before it; the observer is shown the
events, which are balanced at the depth. -/
structure Restores (depth : Nat) (machine after : Machine δ τ) (events : Chronicle) : Prop where
  repeating : after.state.repeating = machine.state.repeating
  output : after.state.output = machine.state.output
  notes : after.notes = engine.observer.replay events machine.notes
  balanced : Balanced depth events

variable {engine} in
theorem restores_of_concur {α : Type} {depth : Nat} {action : MachineM δ τ α}
    {recorded : MachineM δ (τ × Chronicle) α}
    (h : engine.Concur (engine.observer.both .recorder) depth action recorded)
    (machine : Machine δ τ) :
    engine.Restores depth machine (action machine).2 (chronicle recorded machine) := by
  obtain ⟨hp, hn⟩ := chronicle_passage h machine
  exact ⟨hp.repeating_eq, hp.output_eq, hn, hp.balanced⟩

theorem step_repeating {room : Nat} (hr : room ≤ engine.limits.maxDepth) (offset : Nat)
    (machine : Machine δ τ) :
    (engine.step (engine.nesting room) offset machine).2.state.repeating =
      machine.state.repeating :=
  (restores_of_concur (concur_step (engine.matched_recorded hr) offset) machine).repeating

/-- However a step, a call or a run ends, and at whatever depth, the repeat flag and the output
are as before it, and its calls and returns are balanced. An outermost run begins at depth zero
and ends there, and in a trace of it all lines are set in by the number of runs under way. -/
theorem calls_balanced :
    (∀ room ≤ engine.limits.maxDepth, ∀ machine,
      let depth := engine.limits.maxDepth - room
      let nesting := engine.nesting room
      let recorded := engine.recorded.nesting room
      (∀ offset, engine.Restores depth machine (engine.step nesting offset machine).2
        (chronicle (engine.recorded.step recorded offset) machine)) ∧
      (∀ target, engine.Restores depth machine (engine.call nesting target machine).2
        (chronicle (engine.recorded.call recorded target) machine)) ∧
      ∀ start, engine.Restores depth machine (engine.runAt nesting start machine).2
        (chronicle (engine.recorded.runAt recorded start) machine)) ∧
    ∀ start machine, ∃ events,
      chronicle (engine.recorded.runScript start) machine =
        ({ depth := 0, execute := machine.state.execute }, .script start) :: events ∧
      engine.Restores 0 (engine.begun machine start) (engine.runScript start machine).2 events ∧
      ∀ (style : TraceStyle) (trace : Trace),
        (style.observer.replay (chronicle (engine.recorded.runScript start) machine) trace).depth =
          0 ∧
        ∀ before entry after,
          chronicle (engine.recorded.runScript start) machine = before ++ entry :: after →
            entry.2.isInner = true →
              (style.observer.replay before trace).depth = entry.1.depth := by
  constructor
  · intro room hr machine
    have hm := engine.matched_recorded hr
    rw [← depth_nesting]
    exact ⟨fun offset => restores_of_concur (concur_step hm offset) machine,
      fun target => restores_of_concur (concur_call hm target) machine,
      fun start => restores_of_concur (concur_runAt hm start) machine⟩
  · intro start machine
    obtain ⟨events, hc, hp, hn, -⟩ := engine.chronicle_runScript start machine
    refine ⟨events, hc, ⟨hp.repeating_eq, hp.output_eq, hn, hp.balanced⟩, ?_⟩
    intro style trace
    -- the beginning of the script puts the trace back to the margin
    let opened := style.observer.note { depth := 0, execute := machine.state.execute }
      (.script start) trace
    obtain ⟨hind, hend⟩ := style.indents_of_balanced hp.balanced opened rfl
    constructor
    · rw [hc]
      exact hend
    · intro before entry after hsplit hi
      have hall : style.Indents trace
          (({ depth := 0, execute := machine.state.execute }, .script start) :: events) :=
        ⟨nofun, hind⟩
      rw [← hc, hsplit] at hall
      exact style.depth_of_indents hall hi

/-- A block is repeated that calls an unknown opcode, and the run ends at the same one. -/
theorem calls_balanced_of_aborted :
    let engine : Engine SimulatedDevice Unit :=
      { image := .ofScript ⟨#[0, 0x33, 0x03, 0x5b, 0x07, 0x00, 0x36, 0xff]⟩
        facade := SimulatedDevice.facade
        observer := .silent
        limits := { maxOps := 5, maxDepth := 2 } }
    let machine : Machine SimulatedDevice Unit := .start .blank {} ()
    2 ≤ engine.limits.maxDepth ∧
      (engine.runAt (engine.nesting 2) 1 machine).1.toOption = none ∧
      engine.Restores 0 machine (engine.runAt (engine.nesting 2) 1 machine).2
        (chronicle (engine.recorded.runAt (engine.recorded.nesting 2) 1) machine) ∧
      (chronicle (engine.recorded.runAt (engine.recorded.nesting 2) 1) machine).countP
        (fun entry => entry.2 matches .ret) = 5 := by
  intro engine machine
  have hr : 2 ≤ engine.limits.maxDepth := by decide
  exact ⟨hr, by decide +kernel, ((calls_balanced engine).1 2 hr machine).2.2 1,
    by decide +kernel⟩

end Engine

end RomScript
