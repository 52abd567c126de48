import RomScript.Proofs.Engine.Balance
import RomScript.Proofs.Engine.Budget
import RomScript.Proofs.Engine.Skipping
import RomScript.Proofs.Instruction.Listing

/-!
# Disassembly and runs

A disassembly goes from instruction to instruction by their decoded sizes and stops at the
first one that cannot be decoded; a run goes by the encoded lengths, steps over what it does
not execute, calls other scripts, and goes on behind a failure. An outermost run that does not
jump nevertheless takes exactly the instructions that are listed, and how it ends is told by
the last line.
-/

set_option autoImplicit false

namespace RomScript

namespace Chronicle

/-- The offsets at which runs at one depth take instructions, each with the execute flag there. -/
def takenAt (depth : Nat) (events : Chronicle) : List (Nat × Bool) :=
  events.filterMap fun entry =>
    match entry.2 with
    | .dispatch offset => if entry.1.depth = depth then some (offset, entry.1.execute) else none
    | _ => none

theorem takenAt_append (depth : Nat) (events rest : Chronicle) :
    takenAt depth (events ++ rest) = takenAt depth events ++ takenAt depth rest :=
  List.filterMap_append

theorem length_takenAt (depth : Nat) (events : Chronicle) :
    (takenAt depth events).length = dispatchesAt depth events := by
  induction events with
  | nil => rfl
  | cons entry rest ih =>
    obtain ⟨moment, event⟩ := entry
    have hcons : takenAt depth ((moment, event) :: rest) =
        takenAt depth [(moment, event)] ++ takenAt depth rest :=
      takenAt_append depth [(moment, event)] rest
    rw [hcons, List.length_append, ih, dispatchesAt, dispatchesAt, List.countP_cons, Nat.add_comm]
    congr 1
    cases event <;> by_cases h : moment.depth = depth <;> simp [takenAt, h, Event.isDispatch]

theorem takenAt_of_account {limits : Limits} {depth total : Nat} {events : Chronicle}
    (h : Account limits depth 0 total events) : takenAt depth events = [] :=
  List.eq_nil_of_length_eq_zero ((length_takenAt depth events).trans (Nat.le_zero.mp h.own))

end Chronicle

open Chronicle

def Outcome.exit? (outcome : Outcome) : Option Exit := outcome.toOption.map Report.exit

/-- A run that ended so has a listing that ends with the line. -/
inductive EndsAt : Outcome → DisassemblyLine → Prop
  | done (offset : Nat) {report : Report} (h : report.exit = .done) :
      EndsAt (.ok report) (.instruction offset (.control .done))
  | unknown (offset : Nat) (id : UInt8) : EndsAt (.error { offset, id }) (.unknown offset id)
  | truncated (offset : Nat) (opcode : Opcode) {report : Report} (h : report.exit = .truncated) :
      EndsAt (.ok report) (.truncated offset opcode)
  | endOfImage (offset : Nat) {report : Report} (h : report.exit = .truncated) :
      EndsAt (.ok report) (.endOfImage offset)

/-- The offsets of a run are those of the lines, and its end is that of the lines. -/
structure Listed (outcome : Outcome) (offsets : List Nat) (lines : List DisassemblyLine) :
    Prop where
  offsets_eq : offsets = lines.filterMap DisassemblyLine.offset?
  ends : ∃ line, lines.getLast? = some line ∧ EndsAt outcome line

theorem Listed.cons {outcome : Outcome} {offsets : List Nat} {lines : List DisassemblyLine}
    (offset : Nat) (instruction : Instruction) (h : Listed outcome offsets lines) :
    Listed outcome (offset :: offsets) (.instruction offset instruction :: lines) := by
  obtain ⟨line, hl, he⟩ := h.ends
  refine ⟨congrArg (offset :: ·) h.offsets_eq, line, ?_, he⟩
  rw [List.getLast?_cons, hl]
  rfl

section Ends

variable {outcome : Outcome} {offsets : List Nat} {lines : List DisassemblyLine}
  (h : Listed outcome offsets lines)

include h

theorem Listed.done_iff : Outcome.exit? outcome = some .done ↔
    ∃ offset, lines.getLast? = some (.instruction offset (.control .done)) := by
  obtain ⟨line, hl, he⟩ := h.ends
  cases he <;> simp_all [Outcome.exit?, Except.toOption]

theorem Listed.unknown_iff (offset : Nat) (id : UInt8) :
    outcome = .error { offset, id } ↔ lines.getLast? = some (.unknown offset id) := by
  obtain ⟨line, hl, he⟩ := h.ends
  cases he <;> simp_all

theorem Listed.truncated_iff : Outcome.exit? outcome = some .truncated ↔
    (∃ offset opcode, lines.getLast? = some (.truncated offset opcode)) ∨
      ∃ offset, lines.getLast? = some (.endOfImage offset) := by
  obtain ⟨line, hl, he⟩ := h.ends
  cases he <;> simp_all [Outcome.exit?, Except.toOption]

end Ends

/-- Not at a jump that is taken and not at an opcode that the image does not support. -/
structure Image.Straight (image : Image) (taken : Nat × Bool) : Prop where
  jump : taken.2 = true → image.opcodeAt? taken.1 ≠ some .jump
  legacy : (image.opcodeAt? taken.1).any Opcode.legacyOnly = true → image.isLegacy = true

section Decoding

variable {image : Image} {offset length : Nat} {opcode : Opcode}

theorem decode_of_encodedLength_error {cause : ImageError}
    (ho : image.opcodeAt? offset = some opcode)
    (he : opcode.encodedLength image offset = .error cause) :
    ∃ cause, Instruction.decode image offset = .error cause := by
  cases hd : Instruction.decode image offset with
  | error cause => exact ⟨cause, rfl⟩
  | ok instruction =>
    obtain ⟨hi, hs⟩ := Instruction.decode_opcode hd
    obtain rfl := Option.some.inj (ho.symm.trans hi)
    cases he.symm.trans hs

theorem lt_of_decode_error {cause : DecodeError} (ho : image.opcodeAt? offset = some opcode)
    (hl : opcode.encodedLength image offset = .ok length)
    (hd : Instruction.decode image offset = .error cause) : image.length < offset + length := by
  rcases Nat.lt_or_ge image.length (offset + length) with hlt | hle
  · exact hlt
  · obtain ⟨instruction, hi⟩ := (OperandReader.exists_instruction_iff
      { image, base := offset } opcode (Image.lt_length_of_opcodeAt? ho)).mpr ⟨length, hl, hle⟩
    cases hd.symm.trans ((Instruction.decode_eq_ok_iff _ _ _).mpr ⟨opcode, ho, hi⟩)

end Decoding

/-! ## Steps -/

namespace Engine

variable {δ τ : Type} (engine : Engine δ τ)

theorem within_nesting {room : Nat} (hr : room ≤ engine.limits.maxDepth) :
    ∃ inner, engine.Within (engine.nesting room) inner := by
  cases room with
  | zero => exact ⟨0, engine.within_zero⟩
  | succ room =>
    exact ⟨_, engine.within_succ hr fun target =>
      ⟨_, engine.costs_runAt_nesting (Nat.le_of_lt hr) target⟩⟩

variable {room : Nat} (hr : room ≤ engine.limits.maxDepth) (offset : Nat) (machine : Machine δ τ)

include hr

theorem step_takes : ∃ events,
    takenAt (engine.nesting room).depth events = [(offset, machine.state.execute)] ∧
      (engine.step (engine.nesting room) offset machine).2.notes =
        engine.observer.replay events machine.notes := by
  obtain ⟨inner, hw⟩ := engine.within_nesting hr
  generalize engine.nesting room = nesting at hw
  let entry : Moment × Event :=
    ({ depth := nesting.depth, execute := machine.state.execute }, .dispatch offset)
  have hbehind (rest : Chronicle) (hn : takenAt nesting.depth rest = [])
      (hs : (engine.step nesting offset machine).2.notes =
        engine.observer.replay rest (engine.dispatched nesting offset machine).notes) :
      ∃ events, takenAt nesting.depth events = [(offset, machine.state.execute)] ∧
        (engine.step nesting offset machine).2.notes =
          engine.observer.replay events machine.notes := by
    refine ⟨entry :: rest, ?_, hs⟩
    have htaken : takenAt nesting.depth (entry :: rest) =
        takenAt nesting.depth [entry] ++ takenAt nesting.depth rest :=
      takenAt_append nesting.depth [entry] rest
    rw [htaken, hn]
    simp [takenAt, entry]
  rcases engine.step_cases nesting offset machine with ⟨-, hs⟩ | ⟨id, -, -, hs⟩ |
    ⟨opcode, -, ⟨-, hs⟩ | ⟨-, ⟨cause, -, hs⟩ | ⟨length, next, after, -, hk, hs⟩⟩⟩
  · exact hbehind [] rfl (by rw [hs]; rfl)
  · exact hbehind [(entry.1, .unknownOpcode { offset, id })] rfl (by rw [hs]; rfl)
  · exact hbehind [(entry.1, .needsLegacy offset opcode)] rfl (by rw [hs]; rfl)
  · exact hbehind [] rfl (by rw [hs]; rfl)
  · obtain ⟨events, ha, hn⟩ := costs_stepKnown hw offset length opcode
      (engine.dispatched nesting offset machine)
    rw [hk] at hn
    exact hbehind events (takenAt_of_account ha) (by rw [hs]; exact hn)

omit hr in
theorem step_straight (nesting : Nesting δ τ) {opcode : Opcode} {length : Nat}
    (ho : engine.image.opcodeAt? offset = some opcode)
    (hl : opcode.encodedLength engine.image offset = .ok length)
    (hs : engine.image.Straight (offset, machine.state.execute))
    (hrep : machine.state.repeating = false) :
    (engine.step nesting offset machine).1 =
      .ok (if opcode = .done then .stop else .advance length) := by
  have hlegacy : ¬(opcode.legacyOnly ∧ ¬engine.image.isLegacy) := by
    have h := hs.legacy
    rw [ho] at h
    rintro ⟨ho, hi⟩
    exact hi (h ho)
  have hjump : machine.state.execute = true → opcode ≠ .jump :=
    fun he hj => hs.jump he (hj ▸ ho)
  rw [step_fst, Image.outline_of_opcodeAt? ho, if_neg hlegacy, hl, hrep]
  cases opcode with
  | jump =>
    cases he : machine.state.execute with
    | false => rfl
    | true => exact absurd rfl (hjump he)
  | _ => rfl

/-- From the cursor on, a run whose own instructions are straight takes those that are listed,
unless the run or the listing is abandoned. -/
def Covers (depth limit cursor : Nat) (machine : Machine δ τ) (ended : Outcome × Machine δ τ) :
    Prop :=
  ∃ events, ended.2.notes = engine.observer.replay events machine.notes ∧
    ((∀ entry ∈ takenAt depth events, engine.image.Straight entry) →
      (takenAt depth events).length < limit → Outcome.exit? ended.1 ≠ some .runaway →
        Listed ended.1 ((takenAt depth events).map Prod.fst)
          (disassembleFrom engine.image limit cursor))

omit hr in
theorem covers_of_le (nesting : Nesting δ τ) (start left limit : Nat) {cursor : Nat}
    (h : engine.image.length ≤ cursor) :
    engine.Covers nesting.depth limit cursor machine
      (engine.walk nesting start left cursor machine) := by
  rw [walk_of_le engine nesting machine start left cursor h]
  refine ⟨[({ depth := nesting.depth, execute := machine.state.execute },
    .pastEnd start cursor)], rfl, fun _ hlimit _ => ?_⟩
  obtain ⟨limit, rfl⟩ := Nat.exists_eq_add_of_lt hlimit
  rw [disassembleFrom_of_le h]
  exact ⟨rfl, _, rfl, .endOfImage cursor rfl⟩

section Turn

variable {engine machine} {depth limit cursor : Nat} {execute : Bool} {events : Chronicle}
  {ended : Outcome × Machine δ τ}

omit hr

theorem covers_of_taken (rest : Chronicle) (he : takenAt depth events = [(cursor, execute)])
    (hn : ended.2.notes = engine.observer.replay rest (engine.observer.replay events machine.notes))
    (hl : engine.image.Straight (cursor, execute) →
      (∀ entry ∈ takenAt depth rest, engine.image.Straight entry) →
      (takenAt depth rest).length < limit - 1 → Outcome.exit? ended.1 ≠ some .runaway →
        Listed ended.1 (cursor :: (takenAt depth rest).map Prod.fst)
          (disassembleFrom engine.image (limit - 1 + 1) cursor)) :
    engine.Covers depth limit cursor machine ended := by
  have htaken : takenAt depth (events ++ rest) = (cursor, execute) :: takenAt depth rest := by
    rw [takenAt_append, he]
    rfl
  refine ⟨events ++ rest, by rw [hn, Observer.replay_append], ?_⟩
  rw [htaken]
  intro hs hlimit hexit
  obtain ⟨hfirst, hrest⟩ := List.forall_mem_cons.mp hs
  rw [List.length_cons] at hlimit
  have hlisted := hl hfirst hrest (by omega) hexit
  rw [Nat.sub_add_cancel (by omega)] at hlisted
  exact hlisted

theorem covers_of_advance {nesting : Nesting δ τ} {start left length : Nat} {opcode : Opcode}
    {after : Machine δ τ} (he : takenAt nesting.depth events = [(cursor, execute)])
    (hn : after.notes = engine.observer.replay events machine.notes)
    (ho : engine.image.opcodeAt? cursor = some opcode) (hdone : opcode ≠ .done)
    (hl : opcode.encodedLength engine.image cursor = .ok length)
    (hg : engine.Covers nesting.depth (limit - 1) (cursor + length) after
      (engine.walk nesting start left (cursor + length) after)) :
    engine.Covers nesting.depth limit cursor machine
      (engine.walk nesting start left (cursor + length) after) := by
  cases hd : Instruction.decode engine.image cursor with
  | error cause =>
    -- the instruction is not all there, so behind it the run is out of the image
    have hle := Nat.le_of_lt (lt_of_decode_error ho hl hd)
    rw [walk_of_le engine nesting after start left _ hle]
    refine covers_of_taken [(_, .pastEnd start (cursor + length))] he (by rw [← hn]; rfl) ?_
    intro _ _ _ _
    rw [disassembleFrom_of_error ho hd]
    exact ⟨rfl, _, rfl, .truncated cursor opcode rfl⟩
  | ok instruction =>
    obtain ⟨hi, hsize⟩ := Instruction.decode_opcode hd
    obtain rfl := Option.some.inj (ho.symm.trans hi)
    obtain rfl := Except.ok.inj (hl.symm.trans hsize)
    obtain ⟨rest, hrest, hlisted⟩ := hg
    refine covers_of_taken rest he (by rw [hrest, hn]) ?_
    intro _ hs hlimit hexit
    rw [disassembleFrom_of_ok hd, if_neg hdone]
    exact (hlisted hs hlimit hexit).cons cursor instruction

end Turn

/-- Behind an instruction that is not straight nothing is claimed but that events are shown. -/
theorem turn_covers_of_crooked (start left ops limit : Nat) {cursor : Nat}
    (hs : ¬engine.image.Straight (cursor, machine.state.execute)) :
    engine.Covers (engine.nesting room).depth limit cursor machine
      ((engine.step (engine.nesting room) cursor >>=
        engine.proceed (engine.nesting room).depth start cursor ops
          (engine.walk (engine.nesting room) start left)) machine) := by
  obtain ⟨events, htaken, hnotes⟩ := engine.step_takes hr cursor machine
  have hm := engine.matched_recorded hr
  have hrest := (chronicle_passage (concur_proceed hm start cursor ops
    (concur_walk hm start left) (engine.step (engine.nesting room) cursor machine).1)
      (engine.step (engine.nesting room) cursor machine).2).2
  rw [hnotes] at hrest
  exact covers_of_taken _ htaken hrest fun h => absurd h hs

theorem turn_covers (start left ops limit : Nat) {cursor : Nat}
    (hlt : cursor < engine.image.length) (hrep : machine.state.repeating = false)
    (ih : ∀ cursor limit machine, machine.state.repeating = false →
      engine.Covers (engine.nesting room).depth limit cursor machine
        (engine.walk (engine.nesting room) start left cursor machine)) :
    engine.Covers (engine.nesting room).depth limit cursor machine
      ((engine.step (engine.nesting room) cursor >>=
        engine.proceed (engine.nesting room).depth start cursor ops
          (engine.walk (engine.nesting room) start left)) machine) := by
  obtain ⟨events, htaken, hnotes⟩ := engine.step_takes hr cursor machine
  have hsrep := (engine.step_repeating hr cursor machine).trans hrep
  by_cases hs : engine.image.Straight (cursor, machine.state.execute)
  · rcases engine.step_cases (engine.nesting room) cursor machine with ⟨hle, -⟩ |
      ⟨id, hb, ho, hstep⟩ | ⟨opcode, ho, ⟨hl, -⟩ | ⟨-, ⟨cause, he, hstep⟩ |
        ⟨length, next, after, he, -, hstep⟩⟩⟩
    · exact absurd hlt (Nat.not_lt.mpr hle)
    · rw [hstep] at hnotes
      rw [MachineM.bind_apply, hstep]
      refine covers_of_taken [] htaken hnotes ?_
      intro _ _ _ _
      rw [disassembleFrom_of_unknown hb ho]
      exact ⟨rfl, _, rfl, .unknown cursor id⟩
    · refine absurd (hs.legacy ?_) hl.2
      rw [ho]
      exact hl.1
    · obtain ⟨cause, hd⟩ := decode_of_encodedLength_error ho he
      rw [hstep] at hnotes
      rw [MachineM.bind_apply, hstep]
      refine covers_of_taken [(_, .truncated cursor)] htaken (by rw [← hnotes]; rfl) ?_
      intro _ _ _ _
      rw [disassembleFrom_of_error ho hd]
      exact ⟨rfl, _, rfl, .truncated cursor opcode rfl⟩
    · have hnext := engine.step_straight cursor machine (engine.nesting room) ho he hs hrep
      rw [hstep] at hnotes hsrep hnext
      rw [MachineM.bind_apply, hstep, Except.ok.inj hnext]
      by_cases hdone : opcode = .done
      · subst hdone
        have hd : Instruction.decode engine.image cursor = .ok (.control .done) :=
          (Instruction.decode_eq_ok_iff _ _ _).mpr ⟨.done, ho, rfl⟩
        refine covers_of_taken [] htaken hnotes ?_
        intro _ _ _ _
        rw [disassembleFrom_of_ok hd]
        exact ⟨rfl, _, rfl, .done cursor rfl⟩
      · rw [if_neg hdone]
        simp only [proceed, advance?_natCast]
        exact covers_of_advance htaken hnotes ho hdone he (ih _ _ after hsrep)
  · exact engine.turn_covers_of_crooked hr machine start left ops limit hs

theorem walk_covers (start left cursor limit : Nat) (hrep : machine.state.repeating = false) :
    engine.Covers (engine.nesting room).depth limit cursor machine
      (engine.walk (engine.nesting room) start left cursor machine) := by
  induction left generalizing cursor limit machine with
  | zero =>
    rcases Nat.lt_or_ge cursor engine.image.length with hlt | hle
    · rw [walk_zero engine _ machine start cursor hlt]
      exact ⟨[({ depth := (engine.nesting room).depth, execute := machine.state.execute },
        .runaway start engine.limits.maxOps cursor)], rfl, fun _ _ hexit => absurd rfl hexit⟩
    · exact engine.covers_of_le machine _ start 0 limit hle
  | succ left ih =>
    rcases Nat.lt_or_ge cursor engine.image.length with hlt | hle
    · rw [walk_succ engine _ start left cursor hlt]
      exact engine.turn_covers hr machine start left _ limit hlt hrep
        fun cursor limit machine => ih machine cursor limit
    · exact engine.covers_of_le machine _ start (left + 1) limit hle

omit hr

theorem runScript_covers {start : Nat} (hs : start ≠ 0) (hrep : machine.state.repeating = false) :
    engine.Covers 0 disassemblyLimit start (engine.begun machine start)
      (engine.runScript start machine) := by
  have hw := engine.walk_covers (Nat.le_refl _) (engine.begun machine start) start
    engine.limits.maxOps start disassemblyLimit hrep
  rw [runScript_apply, runAt, if_neg hs]
  rw [depth_nesting, Nat.sub_self] at hw
  exact hw

theorem takenAt_chronicle {start : Nat} {events : Chronicle}
    (h : (engine.recorded.runScript start { machine with notes := (machine.notes, []) }).2.notes =
      engine.recorded.observer.replay events
        (engine.recorded.begun { machine with notes := (machine.notes, []) } start).notes) :
    takenAt 0 (chronicle (engine.recorded.runScript start) machine) = takenAt 0 events := by
  rw [engine.chronicle_of_notes h]
  rfl

/-- A script that starts with the repeat flag off is disassembled as it runs, if its own
instructions neither jump nor need a legacy image that this is not, are fewer than the listing
can hold, and are not cut off by the limit of the run. The offsets are those of the lines, the
end is that of the last line, and the lines are what is printed, each with its offset in a
column and with what is said where the listing ends. -/
theorem listing_matches_run (start : Nat) (machine : Machine δ τ)
    (hs : start ≠ 0) (hrep : machine.state.repeating = false)
    (hjump : ∀ entry ∈ takenAt 0 (chronicle (engine.recorded.runScript start) machine),
      entry.2 = true → engine.image.opcodeAt? entry.1 ≠ some .jump)
    (hlegacy : ∀ entry ∈ takenAt 0 (chronicle (engine.recorded.runScript start) machine),
      (engine.image.opcodeAt? entry.1).any Opcode.legacyOnly = true → engine.image.isLegacy = true)
    (hlimit : (takenAt 0 (chronicle (engine.recorded.runScript start) machine)).length < 1000)
    (hexit : Outcome.exit? (engine.runScript start machine).1 ≠ some .runaway) :
    let outcome := (engine.runScript start machine).1
    let lines := disassemble engine.image start
    (takenAt 0 (chronicle (engine.recorded.runScript start) machine)).map Prod.fst =
        lines.filterMap DisassemblyLine.offset? ∧
      (Outcome.exit? outcome = some .done ↔
        ∃ offset, lines.getLast? = some (.instruction offset (.control .done))) ∧
      (∀ offset id, outcome = .error { offset, id } ↔
        lines.getLast? = some (.unknown offset id)) ∧
      (Outcome.exit? outcome = some .truncated ↔
        (∃ offset opcode, lines.getLast? = some (.truncated offset opcode)) ∨
          ∃ offset, lines.getLast? = some (.endOfImage offset)) ∧
      ∀ palette,
        let width := Listing.offsetWidth engine.image
        Listing.script engine.image start palette =
          unlines (palette.heading ("[script " ++ hexLit width start ++ "]") ::
            lines.map (Listing.lineText width palette)) ∧
        ∀ line ∈ lines,
          line.HasColumn (hexWidth engine.image.length) palette
            (Listing.lineText width palette line) ∧
          line.HasRemark (Listing.lineText width palette line) := by
  intro outcome lines
  obtain ⟨events, hn, hcovers⟩ :=
    engine.recorded.runScript_covers { machine with notes := (machine.notes, []) } hs hrep
  obtain ⟨-, -, -, -, hsame⟩ := engine.chronicle_runScript start machine
  rw [engine.takenAt_chronicle machine hn] at hjump hlegacy hlimit ⊢
  rw [hsame] at hcovers
  have hlisted : Listed outcome ((takenAt 0 events).map Prod.fst) lines := by
    have hl : lines = disassembleFrom engine.image disassemblyLimit start := if_neg hs
    rw [hl]
    exact hcovers (fun entry he => ⟨hjump entry he, hlegacy entry he⟩) hlimit hexit
  refine ⟨hlisted.offsets_eq, hlisted.done_iff, hlisted.unknown_iff, hlisted.truncated_iff,
    fun palette => ⟨?_, fun line hline => ⟨?_, ?_⟩⟩⟩
  · rw [Listing.script, if_neg hs]
  · exact hasColumn_of_mem_disassemble palette hline
  · exact hasRemark_lineText _ palette line

/-- A jump that is stepped over, a nested run, and an instruction that is not all there. -/
theorem listing_matches_run_of_skipped_jump :
    let engine : Engine SimulatedDevice Unit :=
      { image := .ofScript ⟨#[0, 0x38, 0x5c, 0x01, 0x00, 0x72, 0x5b, 0x05, 0x00, 0x7a]⟩
        facade := SimulatedDevice.facade
        observer := .silent
        limits := { maxOps := 5, maxDepth := 1 } }
    let machine : Machine SimulatedDevice Unit := .start .blank {} ()
    takenAt 0 (chronicle (engine.recorded.runScript 1) machine) =
        [(1, true), (2, false), (5, false), (6, true), (9, true)] ∧
      (disassemble engine.image 1).filterMap DisassemblyLine.offset? = [1, 2, 5, 6, 9] ∧
      Outcome.exit? (engine.runScript 1 machine).1 = some .truncated := by
  intro engine machine
  have htaken : takenAt 0 (chronicle (engine.recorded.runScript 1) machine) =
      [(1, true), (2, false), (5, false), (6, true), (9, true)] := by decide +kernel
  have hexit : Outcome.exit? (engine.runScript 1 machine).1 ≠ some .runaway := by decide +kernel
  obtain ⟨hoffsets, -, -, htruncated, -⟩ := listing_matches_run engine 1 machine (by decide) rfl
    (by rw [htaken]; decide) (by rw [htaken]; decide) (by rw [htaken]; decide) hexit
  rw [htaken] at hoffsets
  exact ⟨htaken, hoffsets.symm, htruncated.mpr (.inl ⟨9, .zmReg, by decide +kernel⟩)⟩

end Engine

end RomScript
