import RomScript.Proofs.Engine.Disassembly

/-!
# How runs end

A run ends for one of a few reasons, and its report can be checked against the image: the
bytes at the cursor, the number of instructions the run has taken itself, and the limit give
the reason. It fails at a byte of no opcode that it meets itself; one that is met inside a
nested run ends that run only. In every case the device and the state are those behind the
instructions taken.
-/

set_option autoImplicit false

namespace RomScript

/-- How far behind the opcode byte the count of a tail stands, if there is one. -/
def Opcode.countDistance? (opcode : Opcode) : Option Nat :=
  match opcode.tail.map Tail.count with
  | some (.operand distance) | some (.operandTimesGroups distance) => some distance
  | _ => none

theorem Opcode.count_of_encodedLength_error {opcode : Opcode} {image : Image} {offset : Nat}
    {cause : ImageError} (h : opcode.encodedLength image offset = .error cause) :
    ∃ distance, opcode.countDistance? = some distance ∧ image.length ≤ offset + distance := by
  have houtside (distance : Nat) (f : UInt8 → Nat)
      (hb : (image.byte (offset + distance)).map f = .error cause) :
      image.length ≤ offset + distance := by
    refine Nat.le_of_not_lt fun hlt => ?_
    obtain ⟨b, hok⟩ := Rom.exists_byte_of_lt image.rom hlt
    have hok : image.byte (offset + distance) = .ok b := hok
    rw [hok] at hb
    cases hb
  unfold encodedLength at h
  unfold countDistance?
  cases ht : opcode.tail with
  | none => simp [ht] at h
  | some tail =>
    obtain ⟨count, elementSize⟩ := tail
    have hc : tailCount image offset count = .error cause := by
      cases hc : tailCount image offset count with
      | error other => simpa [ht, hc, Except.map] using h
      | ok n => simp [ht, hc, Except.map] at h
    cases count with
    | operand distance => exact ⟨distance, rfl, houtside distance _ hc⟩
    | groups => cases hc
    | operandTimesGroups distance => exact ⟨distance, rfl, houtside distance _ hc⟩

theorem Opcode.legacyOnly_iff_mem (opcode : Opcode) : opcode.legacyOnly = true ↔
    opcode ∈ [Opcode.configureMem, .configureClk, .configurePreinit] := by
  cases opcode with
  | reserved which => cases which <;> decide
  | _ => decide

namespace Image

variable (image : Image) (repeating execute : Bool) (offset : Nat)

def StopsAt : Prop :=
  ∃ opcode, image.opcodeAt? offset = some opcode ∧
    (opcode = .done ∨ opcode = .endRepeat ∧ repeating = true ∨
      opcode ∈ [Opcode.configureMem, .configureClk, .configurePreinit] ∧ image.isLegacy = false)

/-- The instruction there is known, but the image ends before its count. -/
def CutOffAt : Prop :=
  ∃ opcode distance, image.opcodeAt? offset = some opcode ∧
    opcode.countDistance? = some distance ∧ image.length ≤ offset + distance

def UnknownAt (id : UInt8) : Prop := image.byte offset = .ok id ∧ Opcode.ofByte? id = none

variable {image offset}

theorem unknownAt_of_opcodeAt? (hlt : offset < image.length) (h : image.opcodeAt? offset = none) :
    ∃ id, image.UnknownAt offset id := by
  obtain ⟨id, hb⟩ := Rom.exists_byte_of_lt image.rom hlt
  have hb : image.byte offset = .ok id := hb
  exact ⟨id, hb, (opcodeAt?_of_byte hb).symm.trans h⟩

theorem UnknownAt.opcodeAt? {id : UInt8} (h : image.UnknownAt offset id) :
    image.opcodeAt? offset = none :=
  (opcodeAt?_of_byte h.1).trans h.2

/-- From a jump to a target the cursor goes there, so it never leaves the image backwards. -/
theorem advance?_of_jumpAt? {distance : Int} (h : image.jumpAt? offset = some distance) :
    ∃ next, advance? offset distance = some next := by
  unfold jumpAt? at h
  cases hw : image.word (offset + 1) with
  | error cause => simp [hw] at h
  | ok target =>
    simp only [hw] at h
    split at h
    · cases h
      refine ⟨target.toNat, ?_⟩
      unfold advance?
      rw [if_pos (by omega)]
      congr 1
      omega
    · cases h

theorem follow_cases (length : Nat) {opcode : Opcode} (ho : image.opcodeAt? offset = some opcode) :
    (image.follow offset length repeating execute opcode = .stop ∧ image.StopsAt repeating offset) ∨
      ∃ distance next, image.follow offset length repeating execute opcode = .advance distance ∧
        advance? offset distance = some next := by
  obtain ⟨next, hn⟩ : ∃ next, advance? offset (length : Int) = some next :=
    ⟨_, advance?_natCast offset length⟩
  cases opcode with
  | done => exact .inl ⟨rfl, _, ho, .inl rfl⟩
  | endRepeat =>
    cases repeating with
    | true => exact .inl ⟨rfl, _, ho, .inr (.inl ⟨rfl, rfl⟩)⟩
    | false => exact .inr ⟨length, next, rfl, hn⟩
  | jump =>
    cases hj : image.jumpAt? offset with
    | none => exact .inr ⟨length, next, by simp [follow, hj], hn⟩
    | some distance =>
      cases execute with
      | false => exact .inr ⟨length, next, rfl, hn⟩
      | true =>
        obtain ⟨target, ht⟩ := advance?_of_jumpAt? hj
        exact .inr ⟨distance, target, by simp [follow, hj], ht⟩
  | _ => exact .inr ⟨length, next, rfl, hn⟩

/-- What a run ends with behind the instruction at an offset. -/
inductive Last (image : Image) (repeating : Bool) (offset : Nat) : Except UnknownOpcode Step → Prop
  | unknown {id : UInt8} (h : image.UnknownAt offset id) :
      Last image repeating offset (.error { offset, id })
  | stop (h : image.StopsAt repeating offset) : Last image repeating offset (.ok .stop)
  | cutOff (h : image.CutOffAt offset) : Last image repeating offset (.ok .truncated)

theorem outline_cases (hlt : offset < image.length) :
    image.Last repeating offset (image.outline offset repeating execute) ∨
      ∃ opcode distance next, image.opcodeAt? offset = some opcode ∧
        image.outline offset repeating execute = .ok (.advance distance) ∧
        advance? offset distance = some next := by
  cases ho : image.opcodeAt? offset with
  | none =>
    obtain ⟨id, hu⟩ := unknownAt_of_opcodeAt? hlt ho
    rw [outline_of_unknown hu.1 hu.2]
    exact .inl (.unknown hu)
  | some opcode =>
    rw [outline_of_opcodeAt? ho]
    by_cases hl : opcode.legacyOnly ∧ ¬image.isLegacy
    · rw [if_pos hl]
      have hlegacy : image.isLegacy = false := by simpa using hl.2
      exact .inl (.stop ⟨opcode, ho, .inr (.inr ⟨opcode.legacyOnly_iff_mem.mp hl.1, hlegacy⟩)⟩)
    · rw [if_neg hl]
      cases he : opcode.encodedLength image offset with
      | error cause =>
        obtain ⟨distance, hd, hle⟩ := Opcode.count_of_encodedLength_error he
        exact .inl (.cutOff ⟨opcode, distance, ho, hd, hle⟩)
      | ok length =>
        rcases follow_cases repeating execute length ho with ⟨hf, hs⟩ | ⟨distance, next, hf, hn⟩
        · simp only [hf]
          exact .inl (.stop hs)
        · exact .inr ⟨opcode, distance, next, rfl, congrArg Except.ok hf, hn⟩

/-- The reasons for which a run can end with a report, in terms of the instructions it took. -/
inductive Justifies (image : Image) (maxOps : Nat) (repeating : Bool) : List Nat → Report → Prop
  | stop (start ops : Nat) {offset : Nat} (earlier : List Nat)
      (h : image.StopsAt repeating offset) :
      Justifies image maxOps repeating (earlier ++ [offset])
        { start, cursor := offset + 1, ops, exit := .done }
  | cutOff (start ops : Nat) {cursor : Nat} (earlier : List Nat) (h : image.CutOffAt cursor) :
      Justifies image maxOps repeating (earlier ++ [cursor])
        { start, cursor, ops, exit := .truncated }
  | pastEnd (start ops : Nat) {cursor : Nat} (taken : List Nat) (h : image.length ≤ cursor) :
      Justifies image maxOps repeating taken { start, cursor, ops, exit := .truncated }
  | runaway (start : Nat) {cursor : Nat} (taken : List Nat) (h : cursor < image.length) :
      Justifies image maxOps repeating taken { start, cursor, ops := maxOps, exit := .runaway }

theorem Justifies.cons {maxOps : Nat} {repeating : Bool} {taken : List Nat} {report : Report}
    (h : image.Justifies maxOps repeating taken report) (offset : Nat) :
    image.Justifies maxOps repeating (offset :: taken) report := by
  cases h with
  | stop start ops earlier h => exact .stop start ops (offset :: earlier) h
  | cutOff start ops earlier h => exact .cutOff start ops (offset :: earlier) h
  | pastEnd start ops taken h => exact .pastEnd start ops (offset :: taken) h
  | runaway start taken h => exact .runaway start (offset :: taken) h

theorem Justifies.exit {maxOps : Nat} {repeating : Bool} {taken : List Nat} {report : Report}
    (h : image.Justifies maxOps repeating taken report) (hops : report.ops = taken.length) :
    match report.exit with
    | .noScript => False
    | .done => 1 ≤ report.ops ∧ 1 ≤ report.cursor ∧ image.StopsAt repeating (report.cursor - 1)
    | .runaway => report.ops = maxOps ∧ report.cursor < image.length
    | .truncated => image.length ≤ report.cursor ∨
        1 ≤ report.ops ∧ image.CutOffAt report.cursor := by
  cases h with
  | stop start ops earlier h =>
    rw [List.length_append] at hops
    exact ⟨hops ▸ Nat.le_add_left 1 _, Nat.le_add_left 1 _, h⟩
  | cutOff start ops earlier h =>
    rw [List.length_append] at hops
    exact .inr ⟨hops ▸ Nat.le_add_left 1 _, h⟩
  | pastEnd start ops taken h => exact .inl h
  | runaway start taken h => exact ⟨rfl, h⟩

end Image

namespace Engine

open Chronicle

variable {δ τ : Type} (engine : Engine δ τ) (nesting : Nesting δ τ) (machine : Machine δ τ)

def behind (offsets : List Nat) (machine : Machine δ τ) : Machine δ τ :=
  offsets.foldl (fun machine offset => (engine.step nesting offset machine).2) machine

/-- How a run with `ops` instructions behind it went on from the machine, taking the instructions
of its own at some offsets. -/
structure Ended (start ops : Nat) (taken : List Nat) (ended : Outcome × Machine δ τ) : Prop where
  scene : ended.2.scene = (engine.behind nesting taken machine).scene
  report : ∀ report, ended.1 = .ok report →
    report.start = start ∧ report.ops = ops + taken.length ∧
      engine.image.Justifies engine.limits.maxOps machine.state.repeating taken report ∧
      ∀ offset ∈ taken, engine.image.opcodeAt? offset ≠ none
  error : ∀ cause, ended.1 = .error cause →
    engine.image.UnknownAt cause.offset cause.id ∧
      ∃ earlier, taken = earlier ++ [cause.offset] ∧
        ended.2.scene = (engine.behind nesting earlier machine).scene

theorem step_scene_of_unknown {offset : Nat} {id : UInt8} (h : engine.image.UnknownAt offset id) :
    (engine.step nesting offset machine).2.scene = machine.scene := by
  rcases engine.step_cases nesting offset machine with ⟨-, hs⟩ | ⟨id', -, -, hs⟩ | ⟨opcode, ho, -⟩
  · rw [hs]
    rfl
  · rw [hs]
    rfl
  · cases ho.symm.trans h.opcodeAt?

section Turn

variable {engine nesting machine} {start ops cursor : Nat} {after : Machine δ τ}

theorem ended_of_le (h : engine.image.length ≤ cursor) :
    engine.Ended nesting machine start ops []
      (.ok { start, cursor, ops, exit := .truncated },
        (engine.note nesting.depth (.pastEnd start cursor) machine).2) := by
  refine ⟨rfl, fun report hreport => ?_, nofun⟩
  cases hreport
  exact ⟨rfl, rfl, .pastEnd start ops [] h, nofun⟩

theorem Ended.advance {distance : Int} {taken : List Nat} {ended : Outcome × Machine δ τ}
    {opcode : Opcode} (ho : engine.image.opcodeAt? cursor = some opcode)
    (hs : engine.step nesting cursor machine = (.ok (.advance distance), after))
    (hrep : after.state.repeating = machine.state.repeating)
    (h : engine.Ended nesting after start (ops + 1) taken ended) :
    engine.Ended nesting machine start ops (cursor :: taken) ended := by
  have hbehind (offsets : List Nat) : engine.behind nesting (cursor :: offsets) machine =
      engine.behind nesting offsets after := by
    rw [behind, List.foldl_cons, hs]
    rfl
  refine ⟨(hbehind taken).symm ▸ h.scene, fun report hreport => ?_, fun cause hcause => ?_⟩
  · obtain ⟨hstart, hops, hjust, hknown⟩ := h.report report hreport
    rw [hrep] at hjust
    refine ⟨hstart, ?_, hjust.cons cursor, ?_⟩
    · rw [hops, List.length_cons]
      omega
    · refine List.forall_mem_cons.mpr ⟨?_, hknown⟩
      rw [ho]
      exact Option.some_ne_none opcode
  · obtain ⟨hunknown, earlier, htaken, hscene⟩ := h.error cause hcause
    exact ⟨hunknown, cursor :: earlier, congrArg (cursor :: ·) htaken,
      (hbehind earlier).symm ▸ hscene⟩

theorem ended_of_last {next : Except UnknownOpcode Step} (go : Nat → MachineM δ τ Outcome)
    (hs : engine.step nesting cursor machine = (next, after))
    (hl : engine.image.Last machine.state.repeating cursor next) :
    ∃ events, takenAt nesting.depth events = [] ∧
      (engine.proceed nesting.depth start cursor (ops + 1) go next after).2.notes =
        engine.observer.replay events after.notes ∧
      engine.Ended nesting machine start ops [cursor]
        (engine.proceed nesting.depth start cursor (ops + 1) go next after) := by
  have hafter : (engine.step nesting cursor machine).2 = after := congrArg Prod.snd hs
  have hbehind : engine.behind nesting [cursor] machine = after := hafter
  cases hl with
  | unknown hu =>
    refine ⟨[], rfl, rfl, hbehind ▸ rfl, nofun, fun cause hcause => ?_⟩
    cases hcause
    have hscene : after.scene = machine.scene := by
      rw [← hafter, engine.step_scene_of_unknown nesting machine hu]
    exact ⟨hu, [], rfl, hscene⟩
  | stop hstop =>
    obtain ⟨opcode, ho, -⟩ := id hstop
    refine ⟨[], rfl, rfl, hbehind ▸ rfl, fun report hreport => ?_, nofun⟩
    cases hreport
    exact ⟨rfl, rfl, .stop start (ops + 1) [] hstop, by simp [ho]⟩
  | cutOff hcut =>
    obtain ⟨opcode, distance, ho, -⟩ := id hcut
    refine ⟨[(_, .truncated cursor)], rfl, rfl, hbehind ▸ rfl, fun report hreport => ?_, nofun⟩
    cases hreport
    exact ⟨rfl, rfl, .cutOff start (ops + 1) [] hcut, by simp [ho]⟩

end Turn

variable {room : Nat} (hr : room ≤ engine.limits.maxDepth)

include hr

theorem walk_ends (start cursor left : Nat) (hleft : left ≤ engine.limits.maxOps) :
    ∃ events,
      (engine.walk (engine.nesting room) start left cursor machine).2.notes =
          engine.observer.replay events machine.notes ∧
        engine.Ended (engine.nesting room) machine start (engine.limits.maxOps - left)
          ((takenAt (engine.nesting room).depth events).map Prod.fst)
          (engine.walk (engine.nesting room) start left cursor machine) := by
  induction left generalizing cursor machine with
  | zero =>
    rcases Nat.lt_or_ge cursor engine.image.length with hlt | hle
    · rw [walk_zero engine _ machine start cursor hlt]
      refine ⟨[(_, .runaway start engine.limits.maxOps cursor)], rfl, rfl, fun report hreport => ?_,
        nofun⟩
      cases hreport
      exact ⟨rfl, rfl, .runaway start [] hlt, nofun⟩
    · rw [walk_of_le engine _ machine start 0 cursor hle]
      exact ⟨[(_, .pastEnd start cursor)], rfl, ended_of_le hle⟩
  | succ left ih =>
    rcases Nat.lt_or_ge cursor engine.image.length with hlt | hle
    · obtain ⟨events, htaken, hnotes⟩ := engine.step_takes hr cursor machine
      have hfst := engine.step_fst (engine.nesting room) cursor machine
      have hrep := engine.step_repeating hr cursor machine
      rw [walk_succ engine _ start left cursor hlt, MachineM.bind_apply]
      obtain ⟨next, after, hs⟩ : ∃ next after,
          engine.step (engine.nesting room) cursor machine = (next, after) := ⟨_, _, rfl⟩
      rw [hs] at hnotes hfst hrep ⊢
      rcases Image.outline_cases machine.state.repeating machine.state.execute hlt with hl |
        ⟨opcode, distance, target, ho, hd, ht⟩
      · rw [← hfst] at hl
        obtain ⟨rest, hrest, hnotes', hended⟩ := ended_of_last
          (engine.walk (engine.nesting room) start left) hs hl
        refine ⟨events ++ rest, ?_, ?_⟩
        · rw [Observer.replay_append, ← hnotes]
          exact hnotes'
        · rw [takenAt_append, htaken, hrest]
          exact hended
      · obtain rfl : next = .ok (.advance distance) := hfst.trans hd
        obtain ⟨rest, hnotes', hended⟩ := ih after target (Nat.le_of_lt hleft)
        simp only [proceed, ht]
        refine ⟨events ++ rest, ?_, ?_⟩
        · rw [Observer.replay_append, ← hnotes]
          exact hnotes'
        · rw [takenAt_append, htaken]
          have hops : engine.limits.maxOps - left = engine.limits.maxOps - (left + 1) + 1 := by
            omega
          rw [hops] at hended
          exact hended.advance ho hs hrep
    · rw [walk_of_le engine _ machine start (left + 1) cursor hle]
      exact ⟨[(_, .pastEnd start cursor)], rfl, ended_of_le hle⟩

theorem behind_recorded (offsets : List Nat) (past : Chronicle) :
    (engine.recorded.behind (engine.recorded.nesting room) offsets
      { machine with notes := (machine.notes, past) }).scene =
        (engine.behind (engine.nesting room) offsets machine).scene := by
  induction offsets generalizing machine past with
  | nil => rfl
  | cons offset rest ih =>
    obtain ⟨events, -, -, hs⟩ :=
      concur_recorded (concur_step (engine.matched_recorded hr) offset) machine past
    have hs : engine.recorded.step (engine.recorded.nesting room) offset
        { machine with notes := (machine.notes, past) } = _ := hs
    rw [behind, List.foldl_cons, hs]
    exact ih (engine.step (engine.nesting room) offset machine).2 _

omit hr

theorem recorded_runScript (start : Nat) : ∃ events,
    engine.recorded.runScript start { machine with notes := (machine.notes, []) } =
      ((engine.runScript start machine).1, { (engine.runScript start machine).2 with
        notes := ((engine.runScript start machine).2.notes, events) }) := by
  obtain ⟨events, -, -, hr⟩ := concur_recorded
    (concur_runAt (engine.matched_recorded (Nat.le_refl _)) start) (engine.begun machine start)
    [({ depth := 0, execute := machine.state.execute }, .script start)]
  exact ⟨_, hr⟩

theorem runScript_ends {start : Nat} (hs : start ≠ 0) :
    engine.Ended engine.outermost (engine.begun machine start) start 0
      ((takenAt 0 (chronicle (engine.recorded.runScript start) machine)).map Prod.fst)
      (engine.runScript start machine) := by
  let recorded := { machine with notes := (machine.notes, ([] : Chronicle)) }
  obtain ⟨events, hn, hended⟩ := engine.recorded.walk_ends (engine.recorded.begun recorded start)
    (Nat.le_refl _) start start engine.recorded.limits.maxOps (Nat.le_refl _)
  have hw : engine.recorded.walk (engine.recorded.nesting engine.recorded.limits.maxDepth) start
      engine.recorded.limits.maxOps start (engine.recorded.begun recorded start) =
        engine.recorded.runScript start recorded := by
    rw [runScript_apply, runAt, if_neg hs]
    rfl
  obtain ⟨past, hrec⟩ := engine.recorded_runScript machine start
  rw [hw] at hn hended
  rw [engine.takenAt_chronicle machine hn]
  rw [depth_nesting, Nat.sub_self, Nat.sub_self, hrec] at hended
  have hbehind (offsets : List Nat) :
      (engine.recorded.behind (engine.recorded.nesting engine.recorded.limits.maxDepth) offsets
        (engine.recorded.begun recorded start)).scene =
      (engine.behind engine.outermost offsets (engine.begun machine start)).scene :=
    engine.behind_recorded (engine.begun machine start) (Nat.le_refl _) offsets _
  refine ⟨hended.scene.trans (hbehind _), hended.report, fun cause hcause => ?_⟩
  obtain ⟨hunknown, earlier, htaken, hscene⟩ := hended.error cause hcause
  exact ⟨hunknown, earlier, htaken, hscene.trans (hbehind earlier)⟩

/-- A report is what the image, the limits and the instructions of the run itself make it, and
a run without a report ended at a byte of no opcode that it met itself. Bytes of no opcode inside
nested runs do not have this effect. -/
theorem reports_sound (start : Nat) :
    let ended : Outcome × Machine δ τ := engine.runScript start machine
    let taken := (takenAt 0 (chronicle (engine.recorded.runScript start) machine)).map Prod.fst
    let sceneBehind (offsets : List Nat) : Scene δ :=
      (engine.behind engine.outermost offsets (engine.begun machine start)).scene
    (start = 0 → ended.1 = .ok { start, cursor := 0, ops := 0, exit := .noScript } ∧
      ended.2.bench.device = machine.bench.device ∧ ended.2.state = machine.state) ∧
    (∀ report, ended.1 = .ok report →
      report.start = start ∧ report.ops = taken.length ∧ report.ops ≤ engine.limits.maxOps ∧
      ended.2.scene = sceneBehind taken ∧
      match report.exit with
      | .noScript => start = 0
      | .done => 1 ≤ report.ops ∧ 1 ≤ report.cursor ∧
          engine.image.StopsAt machine.state.repeating (report.cursor - 1)
      | .runaway => report.ops = engine.limits.maxOps ∧ report.cursor < engine.image.length
      | .truncated => engine.image.length ≤ report.cursor ∨
          1 ≤ report.ops ∧ engine.image.CutOffAt report.cursor) ∧
    (∀ cause, ended.1 = .error cause →
      engine.image.UnknownAt cause.offset cause.id ∧
        ∃ earlier, taken = earlier ++ [cause.offset] ∧ ended.2.scene = sceneBehind earlier) ∧
    ((∃ cause, ended.1 = .error cause) ↔
      ∃ offset ∈ taken, engine.image.opcodeAt? offset = none) := by
  intro ended taken sceneBehind
  by_cases hs : start = 0
  · subst hs
    have hended : ended = (.ok { start := 0, cursor := 0, ops := 0, exit := .noScript },
        engine.begun machine 0) := rfl
    have htaken : taken = [] := rfl
    rw [hended, htaken]
    refine ⟨fun _ => ⟨rfl, rfl, rfl⟩, fun report hreport => ?_, nofun, ?_⟩
    · cases hreport
      exact ⟨rfl, rfl, Nat.zero_le _, rfl, rfl⟩
    · simp
  · have hended := engine.runScript_ends machine hs
    have haccount := engine.chronicle_of_shows (engine.recorded.costs_runScript start) machine
    refine ⟨fun h => absurd h hs, fun report hreport => ?_, hended.error, ?_⟩
    · obtain ⟨hstart, hops, hjust, -⟩ := hended.report report hreport
      have hlength : report.ops = taken.length := by rw [hops, Nat.zero_add]
      have hle : taken.length ≤ engine.limits.maxOps := by
        rw [List.length_map, length_takenAt]
        exact haccount.own
      have hexit := hjust.exit hlength
      refine ⟨hstart, hlength, hlength ▸ hle, hended.scene, ?_⟩
      cases hx : report.exit with
      | noScript =>
        rw [hx] at hexit
        exact hexit.elim
      | _ =>
        rw [hx] at hexit
        exact hexit
    · constructor
      · rintro ⟨cause, hcause⟩
        obtain ⟨hunknown, earlier, htaken, -⟩ := hended.error cause hcause
        have hmem : cause.offset ∈ taken := by
          rw [show taken = _ from htaken]
          exact List.mem_append_right earlier (List.mem_singleton_self _)
        exact ⟨cause.offset, hmem, hunknown.opcodeAt?⟩
      · rintro ⟨offset, hmem, hnone⟩
        cases ho : ended.1 with
        | error cause => exact ⟨cause, rfl⟩
        | ok report => exact absurd hnone ((hended.report report ho).2.2.2 offset hmem)

/-- A byte of no opcode does not keep the script that calls it from its report, and does so when
it is met by the script itself. -/
theorem reports_sound_of_unknown :
    let engine : Engine SimulatedDevice Unit :=
      { image := .ofScript ⟨#[0, 0x5b, 0x05, 0x00, 0x71, 0xff]⟩
        facade := SimulatedDevice.facade
        observer := .silent
        limits := {} }
    let machine : Machine SimulatedDevice Unit := .start .blank {} ()
    (∃ report, (engine.runScript 1 machine).1 = .ok report ∧ report.ops = 2) ∧
      ∃ cause, (engine.runScript 5 machine).1 = .error cause ∧ cause.offset = 5 := by
  intro engine machine
  have hcaller : (takenAt 0 (chronicle (engine.recorded.runScript 1) machine)).map Prod.fst =
      [1, 4] := by decide +kernel
  have halone : (takenAt 0 (chronicle (engine.recorded.runScript 5) machine)).map Prod.fst =
      [5] := by decide +kernel
  obtain ⟨-, hreport, -, hunknown⟩ := reports_sound engine machine 1
  obtain ⟨-, -, herror, hunknown'⟩ := reports_sound engine machine 5
  rw [hcaller] at hreport hunknown
  rw [halone] at herror hunknown'
  constructor
  · cases ho : (engine.runScript 1 machine).1 with
    | error cause => exact absurd (hunknown.mp ⟨cause, ho⟩) (by decide)
    | ok report => exact ⟨report, rfl, (hreport report ho).2.1⟩
  · obtain ⟨cause, hcause⟩ := hunknown'.mpr (by decide)
    obtain ⟨-, earlier, htaken, -⟩ := herror cause hcause
    have htaken : [] ++ [5] = earlier ++ [cause.offset] := htaken
    exact ⟨cause, hcause, (List.singleton_inj.mp (List.append_inj_right' htaken rfl)).symm⟩

end Engine

end RomScript
