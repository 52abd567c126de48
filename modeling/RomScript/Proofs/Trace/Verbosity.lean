import RomScript.Batch.Basic
import RomScript.Proofs.Engine.Lockstep
import RomScript.Proofs.Engine.Retelling
import RomScript.Proofs.Instruction.Encoding
import RomScript.Trace

/-!
# Verbosity

What scripts do does not depend on who observes them, and all observers are shown the same events.
The traces of one run at two verbosities therefore differ in nothing but the lines that the
verbosities add to single events: more detail is more lines, among which those of less detail are
found in their order.
-/

set_option autoImplicit false

namespace RomScript

/-- Traces of the three verbosities that are at the same depth; more detail has the lines of less
detail among its own. -/
structure Trace.Nests (executed skipped bytes : Trace) : Prop where
  skipped_depth : skipped.depth = executed.depth
  bytes_depth : bytes.depth = executed.depth
  executed_sublist : executed.lines.toList.Sublist skipped.lines.toList
  skipped_sublist : skipped.lines.toList.Sublist bytes.lines.toList
  begun : skipped.lines.toList = [] ↔ bytes.lines.toList = []

theorem Trace.nests_refl (trace : Trace) : trace.Nests trace trace :=
  ⟨rfl, rfl, List.Sublist.refl _, List.Sublist.refl _, Iff.rfl⟩

/-- Told with more lines or fewer, depending on the verbosity or on the lines before it. -/
def Event.varies : Event → Bool
  | .script _ | .instruction .. | .skip .. => true
  | _ => false

namespace TraceStyle

variable (style : TraceStyle)

def showing (verbosity : Verbosity) : TraceStyle := { style with verbosity }

/-- The lines that an event adds at a depth to the traces of the three verbosities. One that is
stepped over has a line at the last two. An instruction has one line, and at the last verbosity
the line of its bytes right below. -/
inductive Adds (depth : Nat) : Event → List String → List String → List String → Prop
  | skip (offset : Nat) (opcode : Opcode) :
      Adds depth (.skip offset opcode) []
        [indent depth ++
          style.palette.faint (hex style.width offset ++ "  " ++ opcode.mnemonic ++ " (skipped)")]
        [indent depth ++
          style.palette.faint (hex style.width offset ++ "  " ++ opcode.mnemonic ++ " (skipped)")]
  | instruction {offset : Nat} {instruction : Instruction} {window : List UInt8}
      (sliced : style.image.slice offset instruction.size = .ok window) :
      Adds depth (.instruction offset instruction)
        [style.instructionLine depth offset instruction]
        [style.instructionLine depth offset instruction]
        [style.instructionLine depth offset instruction,
          style.underLine depth (style.palette.faint (hexBytes window))]
  | script (start : Nat) {few many : List String} (gap : few.Sublist many) :
      Adds depth (.script start) (few ++ [style.headingLine start])
        (many ++ [style.headingLine start]) (many ++ [style.headingLine start])
  | other {event : Event} (same : event.varies = false) :
      Adds depth event (style.eventLines depth event) (style.eventLines depth event)
        (style.eventLines depth event)

inductive Layers : Nat → Chronicle → List String → List String → List String → Prop
  | nil (depth : Nat) : Layers depth [] [] [] []
  | cons {depth : Nat} {moment : Moment} {event : Event} {rest : Chronicle}
      {executed skipped bytes executed' skipped' bytes' : List String}
      (adds : style.Adds depth event executed skipped bytes)
      (behind : Layers (depthAfter depth event) rest executed' skipped' bytes') :
      Layers depth ((moment, event) :: rest) (executed ++ executed') (skipped ++ skipped')
        (bytes ++ bytes')

def added (trace : Trace) (event : Event) : List String :=
  gap trace event ++ style.eventLines trace.depth event

theorem lines_note (moment : Moment) (event : Event) (trace : Trace) :
    (style.observer.note moment event trace).lines.toList =
      trace.lines.toList ++ style.added trace event := by
  show (trace.lines ++ gap trace event ++ style.eventLines trace.depth event).toList = _
  rw [Array.toList_appendList, Array.toList_appendList, added, List.append_assoc]

theorem gap_script (trace : Trace) (start : Nat) :
    gap trace (.script start) = if trace.lines.toList = [] then [] else [""] := by
  obtain ⟨⟨lines⟩, depth⟩ := trace
  cases lines <;> rfl

variable {style} {depth : Nat} {executed skipped bytes : Trace}

/-- Only an instruction has to be the one in the image, since otherwise it may have no bytes. -/
theorem adds_note (h : executed.Nests skipped bytes) {event : Event} {flag : Bool}
    (hs : event.Suits style.image flag) :
    style.Adds executed.depth event ((style.showing .executed).added executed event)
      ((style.showing .skipped).added skipped event)
      ((style.showing .bytes).added bytes event) := by
  unfold added
  rw [h.skipped_depth, h.bytes_depth]
  cases event with
  | skip offset opcode => exact .skip offset opcode
  | instruction offset instruction =>
    have hwindow := Instruction.slice_of_decode hs.1
    have hbytes : (style.showing .bytes).byteLines executed.depth offset instruction =
        [style.underLine executed.depth (style.palette.faint (hexBytes instruction.bytes))] := by
      simp only [byteLines, showing, hwindow]
      rfl
    have hadds : style.Adds executed.depth (.instruction offset instruction) _ _ _ :=
      .instruction hwindow
    rw [← hbytes] at hadds
    exact hadds
  | script start =>
    have hsame : gap bytes (.script start) = gap skipped (.script start) := by
      rw [gap_script, gap_script]
      simp only [h.begun]
    have hgap : (gap executed (.script start)).Sublist (gap skipped (.script start)) := by
      rw [gap_script, gap_script]
      by_cases he : executed.lines.toList = []
      · rw [if_pos he]
        exact List.nil_sublist _
      · have hs : skipped.lines.toList ≠ [] := fun hs =>
          he (List.sublist_nil.mp (hs ▸ h.executed_sublist))
        simp [he, hs]
    rw [hsame]
    exact .script start hgap
  | _ => exact .other rfl

namespace Adds

variable {event : Event} {few more most : List String}

theorem executed_sublist (h : style.Adds depth event few more most) : few.Sublist more := by
  cases h with
  | skip offset opcode => exact List.nil_sublist _
  | instruction sliced => exact List.Sublist.refl _
  | script start gap => exact gap.append (List.Sublist.refl _)
  | other same => exact List.Sublist.refl _

theorem skipped_sublist (h : style.Adds depth event few more most) : more.Sublist most := by
  cases h with
  | skip offset opcode => exact List.Sublist.refl _
  | instruction sliced => exact (List.nil_sublist _).cons_cons _
  | script start gap => exact List.Sublist.refl _
  | other same => exact List.Sublist.refl _

theorem begun (h : style.Adds depth event few more most) : more = [] ↔ most = [] := by
  cases h with
  | instruction sliced => exact iff_of_false nofun nofun
  | _ => exact Iff.rfl

end Adds

theorem nests_note (h : executed.Nests skipped bytes) (moment : Moment) {event : Event}
    {flag : Bool} (hs : event.Suits style.image flag) :
    ((style.showing .executed).observer.note moment event executed).Nests
      ((style.showing .skipped).observer.note moment event skipped)
      ((style.showing .bytes).observer.note moment event bytes) := by
  have hadds := adds_note h hs
  constructor
  · exact congrArg (depthAfter · event) h.skipped_depth
  · exact congrArg (depthAfter · event) h.bytes_depth
  · rw [lines_note, lines_note]
    exact h.executed_sublist.append hadds.executed_sublist
  · rw [lines_note, lines_note]
    exact h.skipped_sublist.append hadds.skipped_sublist
  · rw [lines_note, lines_note, List.append_eq_nil_iff, List.append_eq_nil_iff, h.begun,
      hadds.begun]

structure Grows (style : TraceStyle) (events : Chronicle) (executed skipped bytes executed'
    skipped' bytes' : Trace) : Prop where
  nests : executed'.Nests skipped' bytes'
  layers : ∃ few more most, style.Layers executed.depth events few more most ∧
    executed'.lines.toList = executed.lines.toList ++ few ∧
    skipped'.lines.toList = skipped.lines.toList ++ more ∧
    bytes'.lines.toList = bytes.lines.toList ++ most

theorem grows_replay {events : Chronicle} (hs : events.Suited style.image)
    (h : executed.Nests skipped bytes) :
    style.Grows events executed skipped bytes
      ((style.showing .executed).observer.replay events executed)
      ((style.showing .skipped).observer.replay events skipped)
      ((style.showing .bytes).observer.replay events bytes) := by
  induction events generalizing executed skipped bytes with
  | nil =>
    have hend (trace : Trace) : trace.lines.toList = trace.lines.toList ++ [] :=
      (List.append_nil _).symm
    exact ⟨h, [], [], [], .nil _, hend executed, hend skipped, hend bytes⟩
  | cons entry rest ih =>
    obtain ⟨moment, event⟩ := entry
    have hevent : event.Suits style.image moment.execute := hs List.mem_cons_self
    have hrest : Chronicle.Suited style.image rest := fun _ hmem =>
      hs (List.mem_cons_of_mem _ hmem)
    obtain ⟨hnests, few, more, most, hlayers, hfew, hmore, hmost⟩ :=
      ih hrest (nests_note h moment hevent)
    rw [lines_note, List.append_assoc] at hfew hmore hmost
    exact ⟨hnests, _, _, _, .cons (adds_note h hevent) hlayers, hfew, hmore, hmost⟩

end TraceStyle

open TraceStyle

/-- What an action does is the same whoever observes it, and every observer is shown the same
events. The traces of it at the three verbosities, which may go on from nested ones, are nested,
and its lines in them are those of the events. -/
structure Observational (image : Image) {δ α : Type}
    (run : {τ : Type} → Observer τ → MachineM δ τ α) : Prop where
  same : ∀ {τ υ : Type} (observer : Observer τ) (other : Observer υ) (scene : Scene δ) notes
    notes',
    (run other (scene.noted notes')).1 = (run observer (scene.noted notes)).1 ∧
      (run other (scene.noted notes')).2.scene = (run observer (scene.noted notes)).2.scene
  shown : ∀ {τ : Type} (observer : Observer τ) (scene : Scene δ) notes,
    (run observer (scene.noted notes)).2.notes =
      observer.replay (run .recorder (scene.noted [])).2.notes.reverse notes
  traces : ∀ (palette : Palette) (scene : Scene δ) (executed skipped bytes : Trace),
    executed.Nests skipped bytes →
      let style : TraceStyle := { image, verbosity := .bytes, palette }
      let after verbosity trace :=
        (run (style.showing verbosity).observer (scene.noted trace)).2.notes
      style.Grows (run .recorder (scene.noted [])).2.notes.reverse
        executed skipped bytes
        (after .executed executed) (after .skipped skipped) (after .bytes bytes)

section Observational

variable {image : Image} {δ α : Type} {run : {τ : Type} → Observer τ → MachineM δ τ α}

theorem observational_of_lockstep
    (hl : ∀ {τ υ : Type} (observer : Observer τ) (other : Observer υ) (N : τ → υ → Prop),
      observer.Agrees other N → Engine.Lockstep Eq N (run observer) (run other))
    (hs : ∀ {τ : Type} (observer : Observer τ) machine,
      ∃ events : Chronicle, events.Suited image ∧
        (run observer machine).2.notes = observer.replay events machine.notes) :
    Observational image run := by
  have htied (scene : Scene δ) {τ υ : Type} {N : τ → υ → Prop} (notes : τ) (notes' : υ)
      (hn : N notes notes') : (scene.noted notes).Tied Eq N (scene.noted notes') :=
    ⟨rfl, rfl, rfl, hn⟩
  have hshown {τ : Type} (observer : Observer τ) (scene : Scene δ) (notes : τ) :
      ∃ events : Chronicle, events.Suited image ∧
        (run .recorder (scene.noted [])).2.notes.reverse = events ∧
        (run observer (scene.noted notes)).2.notes = observer.replay events notes := by
    -- the observer and the recorder take the notes side by side that they take alone
    obtain ⟨events, hsuited, hboth⟩ :=
      hs (observer.both .recorder) (scene.noted (notes, ([] : Chronicle)))
    have hreplay := Observer.replay_both observer .recorder events (notes, [])
    have hnoted : (run (observer.both .recorder) (scene.noted (notes, ([] : Chronicle)))).2.notes =
        (observer.replay events notes, events.reverse) := by
      rw [Observer.replay_recorder, List.append_nil] at hreplay
      exact hboth.trans hreplay
    have hfirst := hl observer (observer.both .recorder) (fun notes both => both.1 = notes)
      (fun moment event _ _ h => congrArg (observer.note moment event) h) _ _
      (htied scene notes (notes, []) rfl)
    have hsecond := hl .recorder (observer.both .recorder) (fun notes both => both.2 = notes)
      (fun moment event _ _ h => congrArg (List.cons (moment, event)) h) _ _
      (htied scene [] (notes, []) rfl)
    refine ⟨events, hsuited, ?_, ?_⟩
    · rw [← hsecond.2.notes, hnoted, List.reverse_reverse]
    · rw [← hfirst.2.notes, hnoted]
  have hnotes {τ : Type} (observer : Observer τ) (scene : Scene δ) (notes : τ) :
      (run observer (scene.noted notes)).2.notes =
        observer.replay (run .recorder (scene.noted [])).2.notes.reverse notes := by
    obtain ⟨events, -, hevents, hnotes⟩ := hshown observer scene notes
    rw [hevents, hnotes]
  constructor
  · intro τ υ observer other scene notes notes'
    obtain ⟨hvalue, htied⟩ := hl observer other (fun _ _ => True) (fun _ _ _ _ _ => trivial) _ _
      (htied scene notes notes' trivial)
    refine ⟨hvalue, ?_⟩
    show Scene.mk (Bench.mk _ _) _ = Scene.mk (Bench.mk _ _) _
    rw [← htied.device, htied.column, htied.state]
  · exact hnotes
  · intro palette scene executed skipped bytes hnests style after
    obtain ⟨events, hsuited, hevents, -⟩ := hshown .recorder scene []
    have hgrows : style.Grows events executed skipped bytes _ _ _ := grows_replay hsuited hnests
    simp only [after, hnotes (style.showing _).observer, hevents]
    exact hgrows

end Observational

namespace Engine

variable {δ τ α β : Type} (engine : Engine δ τ)

abbrev ShowsSuited (action : MachineM δ τ α) : Prop :=
  engine.Shows (Chronicle.Suited engine.image) action

section Suited

variable {engine}

theorem suited_of_recounts {action : MachineM δ τ α}
    (h : ∀ machine, engine.Recounts machine (action machine).2) : engine.ShowsSuited action := by
  intro machine
  obtain ⟨events, htells, hnotes⟩ := h machine
  exact ⟨events, htells.truthful.suits, hnotes⟩

theorem suited_bind {action : MachineM δ τ α} {next : α → MachineM δ τ β}
    (ha : engine.ShowsSuited action) (hn : ∀ value, engine.ShowsSuited (next value)) :
    engine.ShowsSuited (action >>= next) :=
  shows_bind ha hn fun _ _ h hr => h.append hr

theorem suited_of_notes {action : MachineM δ τ α}
    (h : ∀ machine, (action machine).2.notes = machine.notes) : engine.ShowsSuited action :=
  shows_of_notes Chronicle.Suited.nil h

theorem suited_mapM {f : α → MachineM δ τ β} (h : ∀ item, engine.ShowsSuited (f item))
    (items : List α) : engine.ShowsSuited (items.mapM f) := by
  induction items with
  | nil => exact suited_of_notes fun _ => rfl
  | cons item rest ih =>
    rw [List.mapM_cons]
    exact suited_bind (h item) fun _ => suited_bind ih fun _ => suited_of_notes fun _ => rfl

end Suited

theorem suited_runScript (start : Nat) : engine.ShowsSuited (engine.runScript start) :=
  suited_of_recounts (engine.recounts_runScript start)

theorem suited_runFresh (output : Output) {announcement : Event}
    (hp : announcement.isPlain = true) (start : Nat) :
    engine.ShowsSuited (engine.runFresh output announcement start) := by
  have hnote : engine.ShowsSuited (engine.note 0 announcement) :=
    suited_of_recounts fun _ => recounts_plain hp
  have hrun := suited_bind hnote fun _ => engine.suited_runScript start
  exact fun machine => hrun { machine with state := .fresh output }

theorem suited_runInitTables (output : Output) :
    engine.ShowsSuited (engine.runInitTables output) := by
  unfold runInitTables
  cases engine.image.scriptPointers with
  | error cause => exact suited_of_notes fun _ => rfl
  | ok pointers =>
    refine suited_bind (suited_mapM (fun entry => ?_) _) fun _ => suited_of_notes fun _ => rfl
    exact suited_bind (engine.suited_runFresh output rfl _) fun _ => suited_of_notes fun _ => rfl

theorem suited_runBatch {τ : Type} (engine : Engine SimulatedDevice τ) (output : Output)
    (selection : Selection) : engine.ShowsSuited (engine.runBatch output selection) := by
  unfold runBatch
  cases selection.targets engine.image with
  | error cause => exact suited_of_notes fun _ => rfl
  | ok targets =>
    refine suited_bind (suited_mapM (fun target => ?_) _) fun _ => suited_of_notes fun _ => rfl
    refine suited_bind (engine.suited_runFresh output rfl _) fun _ => ?_
    exact suited_bind (suited_of_notes fun _ => rfl) fun _ => suited_of_notes fun _ => rfl

/-! ## Runs of one script and of several -/

theorem observational_runScript (start : Nat) :
    Observational engine.image fun observer => (engine.observedBy observer).runScript start := by
  apply observational_of_lockstep
  · intro _ _ observer other N hagrees
    exact lockstep_runScript (Facade.agrees_same _) hagrees start
  · intro _ observer
    exact (engine.observedBy observer).suited_runScript start

theorem observational_runInitTables (output : Output) :
    Observational engine.image fun observer =>
      (engine.observedBy observer).runInitTables output := by
  apply observational_of_lockstep
  · intro _ _ observer other N hagrees
    unfold runInitTables
    cases engine.image.scriptPointers with
    | error cause => exact lockstep_pure _
    | ok pointers =>
      refine lockstep_bind (lockstep_mapM (fun entry => ?_) _) fun _ => lockstep_pure _
      refine lockstep_bind ?_ fun _ => lockstep_pure _
      exact lockstep_runFresh (Facade.agrees_same _) hagrees
        (fun moment => hagrees moment _) output _
  · intro _ observer
    exact (engine.observedBy observer).suited_runInitTables output

theorem observational_runBatch {τ : Type} (engine : Engine SimulatedDevice τ) (output : Output)
    (selection : Selection) :
    Observational engine.image fun observer =>
      (engine.observedBy observer).runBatch output selection := by
  apply observational_of_lockstep
  · intro _ _ observer other N hagrees
    have htaken : Lockstep Eq N takeCalls takeCalls := by
      intro machine machine' h
      obtain ⟨⟨device, column⟩, state, notes⟩ := machine
      obtain ⟨⟨device', column'⟩, state', notes'⟩ := machine'
      obtain rfl : device = device' := h.device
      exact ⟨rfl, rfl, h.column, h.state, h.notes⟩
    unfold runBatch
    cases selection.targets engine.image with
    | error cause => exact lockstep_pure _
    | ok targets =>
      refine lockstep_bind (lockstep_mapM (fun target => ?_) _) fun _ => lockstep_pure _
      refine lockstep_bind ?_ fun _ => lockstep_bind htaken fun _ => lockstep_pure _
      exact lockstep_runFresh (Facade.agrees_same _) hagrees
        (fun moment => hagrees moment _) output _
  · intro _ observer
    exact (engine.observedBy observer).suited_runBatch output selection

/-- A run of one script with any state, of the whole pointer table, and of a batch. -/
theorem tracing_observational :
    (∀ {δ τ : Type} (engine : Engine δ τ) start,
      Observational engine.image fun observer => (engine.observedBy observer).runScript start) ∧
    (∀ {δ τ : Type} (engine : Engine δ τ) output,
      Observational engine.image fun observer =>
        (engine.observedBy observer).runInitTables output) ∧
    ∀ {τ : Type} (engine : Engine SimulatedDevice τ) output selection,
      Observational engine.image fun observer =>
        (engine.observedBy observer).runBatch output selection :=
  ⟨observational_runScript, observational_runInitTables, observational_runBatch⟩

/-- Of three instructions the second is stepped over. -/
theorem tracing_observational_of_skipped :
    let engine : Engine SimulatedDevice Unit :=
      { image := .ofScript ⟨#[0, 0x38, 0x74, 0x04, 0x00, 0x71]⟩
        facade := SimulatedDevice.facade
        observer := .silent
        limits := {} }
    let style : TraceStyle := { image := engine.image, verbosity := .bytes, palette := .plain }
    let scene : Scene SimulatedDevice := (Machine.start .blank {} ()).scene
    let after verbosity : Trace :=
      ((engine.observedBy (style.showing verbosity).observer).runScript 1 (scene.noted {})).2.notes
    Trace.Nests {} {} {} ∧
      (after .executed).lines.toList.Sublist (after .skipped).lines.toList ∧
      (after .skipped).lines.toList.Sublist (after .bytes).lines.toList ∧
      (after .bytes).lines.toList =
        ["[script 0x0001]", "0001  NOT", "      38", "      execute = false",
          "0002  TIME (skipped)", "0005  DONE", "      71"] := by
  intro engine style scene after
  have hgrows :=
    (tracing_observational.1 engine 1).traces .plain scene {} {} {} (Trace.nests_refl {})
  exact ⟨Trace.nests_refl {}, hgrows.nests.executed_sublist, hgrows.nests.skipped_sublist,
    by decide +kernel⟩

end Engine

end RomScript
