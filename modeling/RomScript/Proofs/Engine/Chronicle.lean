import RomScript.Engine.Machine

/-!
# Chronicles

What an action shows to the observer is a list of events, the earliest first. The chronicle
of two actions in a row is that of the first followed by that of the second, so a property
of chronicles is proved action by action. A recorder beside the observer keeps the list.
-/

set_option autoImplicit false

namespace RomScript

abbrev Chronicle := List (Moment × Event)

namespace Observer

variable {τ υ : Type}

def replay (observer : Observer τ) (events : Chronicle) (notes : τ) : τ :=
  events.foldl (fun notes entry => observer.note entry.1 entry.2 notes) notes

@[simp] theorem replay_append (observer : Observer τ) (events rest : Chronicle) (notes : τ) :
    observer.replay (events ++ rest) notes = observer.replay rest (observer.replay events notes) :=
  List.foldl_append

theorem replay_both (first : Observer τ) (second : Observer υ) (events : Chronicle)
    (notes : τ × υ) : (first.both second).replay events notes =
      (first.replay events notes.1, second.replay events notes.2) := by
  induction events generalizing notes with
  | nil => rfl
  | cons entry rest ih => exact ih _

theorem replay_recorder (events notes : Chronicle) :
    recorder.replay events notes = events.reverse ++ notes := by
  induction events generalizing notes with
  | nil => rfl
  | cons entry rest ih =>
    have h := ih (entry :: notes)
    rw [List.reverse_cons, List.append_assoc]
    exact h

end Observer

namespace Engine

variable {δ τ α β : Type} (engine : Engine δ τ)

def Shows (P : Chronicle → Prop) (action : MachineM δ τ α) : Prop :=
  ∀ machine, ∃ events, P events ∧
    (action machine).2.notes = engine.observer.replay events machine.notes

section Shows

variable {engine} {P Q R : Chronicle → Prop} {action : MachineM δ τ α} {next : α → MachineM δ τ β}

theorem Shows.mono (h : engine.Shows P action) (hp : ∀ events, P events → Q events) :
    engine.Shows Q action := by
  intro machine
  obtain ⟨events, he, hn⟩ := h machine
  exact ⟨events, hp events he, hn⟩

theorem shows_of_notes (hp : P []) (h : ∀ machine, (action machine).2.notes = machine.notes) :
    engine.Shows P action :=
  fun machine => ⟨[], hp, h machine⟩

theorem shows_bind (ha : engine.Shows P action) (hn : ∀ value, engine.Shows Q (next value))
    (hr : ∀ events rest, P events → Q rest → R (events ++ rest)) :
    engine.Shows R (action >>= next) := by
  intro machine
  obtain ⟨events, he, hm⟩ := ha machine
  obtain ⟨rest, hq, hm'⟩ := hn (action machine).1 (action machine).2
  refine ⟨events ++ rest, hr events rest he hq, ?_⟩
  rw [MachineM.bind_apply, hm', hm, Observer.replay_append]

theorem shows_note {depth : Nat} {event : Event} (hp : ∀ execute, P [({ depth, execute }, event)]) :
    engine.Shows P (engine.note depth event) :=
  fun machine => ⟨_, hp machine.state.execute, rfl⟩

end Shows

/-- The engine with a recorder beside its observer. -/
def recorded : Engine δ (τ × Chronicle) where
  image := engine.image
  facade := engine.facade
  observer := engine.observer.both .recorder
  limits := engine.limits

def chronicle (action : MachineM δ (τ × Chronicle) α) (machine : Machine δ τ) : Chronicle :=
  (action { machine with notes := (machine.notes, []) }).2.notes.2.reverse

/-- The chronicle told from the notes behind the action, where those before it are known. -/
theorem chronicle_of_notes {action : MachineM δ (τ × Chronicle) α} {machine : Machine δ τ}
    {events past : Chronicle} {notes : τ}
    (h : (action { machine with notes := (machine.notes, []) }).2.notes =
      engine.recorded.observer.replay events (notes, past)) :
    chronicle action machine = past.reverse ++ events := by
  have hb : engine.recorded.observer.replay events (notes, past) = _ :=
    Observer.replay_both engine.observer .recorder events (notes, past)
  rw [hb, Observer.replay_recorder] at h
  rw [chronicle, h, List.reverse_append, List.reverse_reverse]

theorem chronicle_of_shows {P : Chronicle → Prop} {action : MachineM δ (τ × Chronicle) α}
    (h : engine.recorded.Shows P action) (machine : Machine δ τ) :
    P (chronicle action machine) := by
  obtain ⟨events, hp, hn⟩ := h { machine with notes := (machine.notes, []) }
  rw [engine.chronicle_of_notes hn]
  exact hp

end Engine

end RomScript
