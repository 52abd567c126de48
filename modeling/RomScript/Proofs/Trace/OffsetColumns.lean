import Mathlib.Data.List.Forall2
import RomScript.Proofs.Instruction.Listing
import RomScript.Proofs.Trace.Verbosity

/-!
# Columns of offsets

Listings and traces write the offset of an instruction in a column whose width is that of the
image. An instruction that is listed, run or stepped over begins inside the image, even if it is
unknown or not all there, so its offset has exactly as many digits as the column.
-/

set_option autoImplicit false

namespace RomScript

theorem hasColumn_script (image : Image) {start : Nat} (palette : Palette) (hs : start ≠ 0) :
    ∃ texts, Listing.script image start palette =
        unlines (palette.heading ("[script " ++ hexLit (hexWidth image.length) start ++ "]") ::
          texts) ∧
      List.Forall₂ (DisassemblyLine.HasColumn (hexWidth image.length) palette)
        (disassemble image start) texts := by
  refine ⟨(disassemble image start).map (Listing.lineText (Listing.offsetWidth image) palette),
    ?_, ?_⟩
  · rw [Listing.script, if_neg hs]
    rfl
  · rw [List.forall₂_map_right_iff, List.forall₂_same]
    exact fun line hline => hasColumn_of_mem_disassemble palette hline

/-! ## Traces -/

def Event.place? : Event → Option Nat
  | .instruction offset _ | .skip offset _ => some offset
  | _ => none

namespace TraceStyle

variable (style : TraceStyle)

/-- The lines that an event adds at a depth. The first line of an instruction has its offset in a
column, and so has the line of one that is stepped over, where that is shown. -/
inductive Aligns (depth : Nat) : Event → List String → Prop
  | instruction {offset : Nat} {column : String} (instruction : Instruction) (below : List String)
      (fills : Column (hexWidth style.image.length) offset column) :
      Aligns depth (.instruction offset instruction)
        ((indent depth ++ style.palette.faint column ++ "  " ++
          instruction.columns style.palette) :: below)
  | skip {offset : Nat} {column : String} (opcode : Opcode)
      (fills : Column (hexWidth style.image.length) offset column)
      (shown : style.verbosity ≠ .executed) :
      Aligns depth (.skip offset opcode)
        [indent depth ++
          style.palette.faint (column ++ "  " ++ opcode.mnemonic ++ " (skipped)")]
  | hidden (offset : Nat) (opcode : Opcode) (unshown : style.verbosity = .executed) :
      Aligns depth (.skip offset opcode) []
  | other {event : Event} (lines : List String) (placeless : event.place? = none) :
      Aligns depth event lines

inductive Aligned : Trace → Chronicle → List String → Prop
  | nil (trace : Trace) : Aligned trace [] []
  | cons {trace : Trace} {moment : Moment} {event : Event} {rest : Chronicle}
      {lines behind : List String}
      (adds : (style.observer.note moment event trace).lines.toList = trace.lines.toList ++ lines)
      (aligns : style.Aligns trace.depth event lines)
      (aligned : Aligned (style.observer.note moment event trace) rest behind) :
      Aligned trace ((moment, event) :: rest) (lines ++ behind)

theorem aligns_added (trace : Trace) {event : Event} {flag : Bool}
    (h : event.Suits style.image flag) :
    style.Aligns trace.depth event (style.added trace event) := by
  cases event with
  | instruction offset instruction =>
    have hlt := Image.lt_length_of_opcodeAt? (Instruction.decode_opcode h.1).1
    exact .instruction instruction _ (column_hex hlt)
  | skip offset opcode =>
    -- what is stepped over need not decode, so its opcode in the image has to tell
    have hlt := Image.lt_length_of_opcodeAt? h.1
    show style.Aligns trace.depth _ (style.skipLines trace.depth offset opcode)
    unfold skipLines
    by_cases hv : style.verbosity = .executed
    · rw [if_pos hv]
      exact .hidden offset opcode hv
    · rw [if_neg hv]
      exact .skip opcode (column_hex hlt) hv
  | _ => exact .other _ rfl

theorem aligned_replay {events : Chronicle} (h : events.Suited style.image) (trace : Trace) :
    ∃ lines, style.Aligned trace events lines ∧
      (style.observer.replay events trace).lines.toList = trace.lines.toList ++ lines := by
  induction events generalizing trace with
  | nil => exact ⟨[], .nil _, (List.append_nil _).symm⟩
  | cons entry rest ih =>
    obtain ⟨moment, event⟩ := entry
    have hevent : event.Suits style.image moment.execute := h List.mem_cons_self
    obtain ⟨behind, haligned, hlines⟩ :=
      ih (fun _ hmem => h (List.mem_cons_of_mem _ hmem)) (style.observer.note moment event trace)
    have hadds := style.lines_note moment event trace
    refine ⟨_, .cons hadds (style.aligns_added trace hevent) haligned, ?_⟩
    rw [hadds, List.append_assoc] at hlines
    exact hlines

end TraceStyle

/-- Whatever trace the action goes on from, it adds the lines of its events, and the offsets of
instructions stand in columns of the width of the image. -/
def Tabular (image : Image) {δ α : Type} (run : {τ : Type} → Observer τ → MachineM δ τ α) : Prop :=
  ∀ verbosity palette (scene : Scene δ) (trace : Trace),
    let style : TraceStyle := { image, verbosity, palette }
    ∃ lines, style.Aligned trace (run .recorder (scene.noted [])).2.notes.reverse lines ∧
      (run style.observer (scene.noted trace)).2.notes.lines.toList = trace.lines.toList ++ lines

namespace Engine

variable {δ τ α : Type} (engine : Engine δ τ)

theorem tabular_of_suited {run : {τ : Type} → Observer τ → MachineM δ τ α}
    (ho : Observational engine.image run)
    (hs : (engine.observedBy .recorder).ShowsSuited (run .recorder)) :
    Tabular engine.image run := by
  intro verbosity palette scene trace style
  obtain ⟨events, hsuited, hnotes⟩ := hs (scene.noted [])
  have hevents : (run .recorder (scene.noted [])).2.notes.reverse = events := by
    rw [hnotes, Observer.replay_recorder]
    exact (congrArg List.reverse (List.append_nil _)).trans (List.reverse_reverse events)
  rw [hevents, ho.shown style.observer scene trace, hevents]
  exact style.aligned_replay hsuited trace

theorem recounts_stepAt (offset : Nat) (machine : Machine δ τ) :
    engine.Recounts machine (engine.stepAt offset machine).2 := by
  refine recounts_step (fun run hrun target machine => ?_) offset machine
  unfold outermost at hrun
  cases hd : engine.limits.maxDepth with
  | zero =>
    rw [hd] at hrun
    cases hrun
  | succ room =>
    rw [hd] at hrun
    cases hrun
    exact engine.recounts_nesting room target machine

theorem observational_stepAt (offset : Nat) :
    Observational engine.image fun observer => (engine.observedBy observer).stepAt offset := by
  apply observational_of_lockstep
  · intro _ _ observer other N hagrees
    exact ((lockstep (engine.observedBy observer).facade.agrees_same hagrees).places_nesting
      (Nat.le_refl _)).step offset
  · intro _ observer
    exact suited_of_recounts ((engine.observedBy observer).recounts_stepAt offset)

end Engine

/-- The width of an image is counted in bits as well, and no greater than its offsets need; the
lines of a listing and of every trace have the offsets of instructions in columns of this width. -/
theorem offsets_fill_columns :
    (∀ length : UInt64, countedWidth length = hexWidth length.toNat) ∧
    (∀ length, LeastWidth length (hexWidth length)) ∧
    (∀ (image : Image) start palette, start ≠ 0 →
      ∃ texts, Listing.script image start palette =
          unlines (palette.heading ("[script " ++ hexLit (hexWidth image.length) start ++ "]") ::
            texts) ∧
        List.Forall₂ (DisassemblyLine.HasColumn (hexWidth image.length) palette)
          (disassemble image start) texts) ∧
    (∀ {δ τ : Type} (engine : Engine δ τ) offset,
      Tabular engine.image fun observer => (engine.observedBy observer).stepAt offset) ∧
    (∀ {δ τ : Type} (engine : Engine δ τ) start,
      Tabular engine.image fun observer => (engine.observedBy observer).runScript start) ∧
    (∀ {δ τ : Type} (engine : Engine δ τ) output,
      Tabular engine.image fun observer => (engine.observedBy observer).runInitTables output) ∧
    ∀ {τ : Type} (engine : Engine SimulatedDevice τ) output selection,
      Tabular engine.image fun observer =>
        (engine.observedBy observer).runBatch output selection := by
  refine ⟨countedWidth_eq, leastWidth_hexWidth,
    fun image start palette hs => hasColumn_script image palette hs, ?_, ?_, ?_, ?_⟩
  · intro δ τ engine offset
    exact engine.tabular_of_suited (engine.observational_stepAt offset)
      (Engine.suited_of_recounts ((engine.observedBy .recorder).recounts_stepAt offset))
  · intro δ τ engine start
    exact engine.tabular_of_suited (engine.observational_runScript start)
      ((engine.observedBy .recorder).suited_runScript start)
  · intro δ τ engine output
    exact engine.tabular_of_suited (engine.observational_runInitTables output)
      ((engine.observedBy .recorder).suited_runInitTables output)
  · intro τ engine output selection
    exact engine.tabular_of_suited (engine.observational_runBatch output selection)
      ((engine.observedBy .recorder).suited_runBatch output selection)

/-- One byte more than four digits can count, and a listing that ends with an instruction that is
not all there. -/
theorem offsets_fill_columns_of_truncated :
    let image : Image := .ofScript ⟨#[0, 0x38, 0x74, 0x04]⟩
    4 < hexWidth 0x10001 ∧ 16 ^ (hexWidth 0x10001 - 1) ≤ 0x10000 ∧
      0x10000 < 16 ^ hexWidth 0x10001 ∧ 1 ≠ 0 ∧
      ∃ texts, Listing.script image 1 .plain = unlines ("[script 0x0001]" :: texts) ∧
        List.Forall₂ (DisassemblyLine.HasColumn 4 .plain)
          [.instruction 1 (.control .negate), .truncated 2 .time] texts := by
  intro image
  obtain ⟨-, hleast, hlisting, -⟩ := offsets_fill_columns
  have hwide : 4 < hexWidth 0x10001 := by decide +kernel
  have hlines : disassemble image 1 = [.instruction 1 (.control .negate), .truncated 2 .time] := by
    decide +kernel
  have hwidth : hexWidth image.length = 4 := by decide +kernel
  have hheading : Palette.plain.heading ("[script " ++ hexLit 4 1 ++ "]") = "[script 0x0001]" := by
    decide +kernel
  obtain ⟨texts, hscript, hcolumns⟩ := hlisting image 1 .plain (by decide)
  rw [hwidth, hheading] at hscript
  rw [hlines, hwidth] at hcolumns
  exact ⟨hwide, (hleast 0x10001).needed hwide, (hleast 0x10001).fits 0x10000 (by decide),
    by decide, texts, hscript, hcolumns⟩

end RomScript
