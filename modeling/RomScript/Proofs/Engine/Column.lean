import RomScript.Proofs.Effect.Column
import RomScript.Proofs.Engine.ExecuteFlag
import RomScript.Proofs.Engine.Journey
import RomScript.Proofs.Engine.Lockstep

/-!
# The RAM column of a run

An outermost run begins without a column. The first instruction that takes its values from the
column and finds it out keeps it on the bench; from then on, at whatever depth, it stays there up
to the end of the run, and the straps are not read again for it. A column that cannot be found out
is looked up again every time.
-/

set_option autoImplicit false

namespace RomScript

open Chronicle Milestone

/-! ## One instruction -/

theorem Instruction.blind_effect (image : Image) (output : Output) {instruction : Instruction}
    (h : instruction.opcode.takesColumn = false) : (instruction.effect image output).Blind := by
  cases instruction with
  | control op => trivial
  | condition op =>
    simp only [effect]
    split
    · trivial
    · exact Effect.blind_bind (op.blind_test image output) fun _ => trivial
  | register op => exact op.blind_run image h
  | port op => exact op.blind_run output
  | clock op => exact op.blind_run image h
  | bus op => exact Effect.blind_bind (op.blind_run output) fun _ => trivial
  | board op => exact op.blind_run image

theorem Instruction.run_effect_of_takesColumn {δ : Type} (facade : Facade δ) (image : Image)
    (output : Output) {instruction : Instruction} (h : instruction.opcode.takesColumn = true)
    (bench : Bench δ) : ((instruction.effect image output).run facade bench).2 =
      instruction.behindColumn facade image bench := by
  rcases Instruction.cases_of_takesColumn h with ⟨id, khz, rfl⟩ |
    ⟨reg, increment, count, values, rfl⟩
  · refine run_ramColumn_bind facade image (fun position device column => ?_) bench
    simp only [valueRequests, Effect.select]
    cases khz[position]? with
    | none => rfl
    | some khz =>
      have hended (answer : Except PllError Unit) (bench : Bench δ) :
          ((Effect.ofPll answer).run facade bench).2 = bench := by
        cases answer <;> rfl
      exact hended _ _
  · refine run_ramColumn_bind facade image (fun position device column => ?_) bench
    exact congrArg Prod.snd (run_writeRegs facade _ _ _ device column)

namespace Engine

variable {δ τ : Type} (engine : Engine δ τ)

/-- The instruction begins at the milestone with the execute flag on, and takes its values from
the column of the board. -/
structure Takes (begins : Milestone δ) (instruction : Instruction) : Prop where
  decoded : ∃ offset, begins.begins? = some offset ∧
    Instruction.decode engine.image offset = .ok instruction
  column : instruction.opcode.takesColumn = true
  execute : begins.scene.state.execute = true

/-- The same, where no column is kept and the straps tell one. -/
structure Finds (begins : Milestone δ) (instruction : Instruction) (column : UInt8) : Prop where
  takes : engine.Takes begins instruction
  unknown : begins.scene.bench.column = none
  found : engine.image.ramColumn (engine.facade.ramStrap begins.scene.bench.device).1 = .ok column

section Turns

variable {engine} {offset : Nat} {instruction : Instruction} {scene : Scene δ}
  (hd : Instruction.decode engine.image offset = .ok instruction)

include hd

theorem turn_of_takesColumn (h : instruction.opcode.takesColumn = true)
    (he : scene.state.execute = true) : (engine.turn offset scene).bench =
      instruction.behindColumn engine.facade engine.image scene.bench := by
  have hl : instruction.opcode.legacyOnly = false := by
    rcases Instruction.cases_of_takesColumn h with ⟨_, _, rfl⟩ | ⟨_, _, _, _, rfl⟩ <;> rfl
  have hs : engine.image.Supports instruction.opcode := fun h => nomatch hl.symm.trans h
  rw [engine.turn_of_ok hd, take, if_pos ⟨hs, .inl he⟩]
  exact Instruction.run_effect_of_takesColumn engine.facade engine.image _ h scene.bench

theorem turn_column_of_not_takes
    (h : instruction.opcode.takesColumn = false ∨ scene.state.execute = false) :
    (engine.turn offset scene).bench.column = scene.bench.column := by
  rw [engine.turn_of_ok hd, take]
  split
  · rename_i hruns
    have hblind : instruction.opcode.takesColumn = false := by
      rcases h with h | he
      · exact h
      · have hskip : instruction.opcode.runsWhileSkipping = true := by simpa [he] using hruns.2
        rw [← Bool.not_eq_true]
        intro htakes
        rcases Instruction.cases_of_takesColumn htakes with ⟨_, _, rfl⟩ | ⟨_, _, _, _, rfl⟩ <;>
          cases hskip
    exact Effect.column_of_blind (Instruction.blind_effect engine.image _ hblind) engine.facade
      scene.bench
  · rfl

end Turns

/-- An instruction leaves the column as it was, or finds it out where there was none. -/
theorem turn_column (depth offset : Nat) (scene : Scene δ) :
    (engine.turn offset scene).bench.column = scene.bench.column ∨
      ∃ instruction column,
        engine.Finds { depth, begins? := some offset, scene } instruction column ∧
          (engine.turn offset scene).bench.column = some column := by
  cases hd : Instruction.decode engine.image offset with
  | error cause =>
    have hturn : engine.turn offset scene = scene := by simp only [turn, hd]
    exact .inl (congrArg (·.bench.column) hturn)
  | ok instruction =>
    by_cases h : instruction.opcode.takesColumn = true ∧ scene.state.execute = true
    · have hturn := turn_of_takesColumn hd h.1 h.2
      have htakes : engine.Takes { depth, begins? := some offset, scene } instruction :=
        ⟨⟨offset, rfl, hd⟩, h.1, h.2⟩
      rw [hturn]
      obtain ⟨⟨device, column | column⟩, state⟩ := scene
      · cases hc : engine.image.ramColumn (engine.facade.ramStrap device).1 with
        | error cause =>
          refine .inl ?_
          simp only [Instruction.behindColumn, hc]
        | ok column =>
          refine .inr ⟨instruction, column, ⟨htakes, rfl, hc⟩, ?_⟩
          simp only [Instruction.behindColumn, hc]
      · exact .inl rfl
    · refine .inl (turn_column_of_not_takes hd ?_)
      simpa [-not_and, Classical.not_and_iff_not_or_not] using h

/-! ## Runs -/

def Keeps (column : Option UInt8) (points : List (Milestone δ)) : Prop :=
  ∀ point ∈ points, point.scene.bench.column = column

/-- The column is the same at all milestones and behind them, or there is none up to the milestone
at which an instruction finds it out, and that one at all milestones from its end on. -/
def FindsOnce (before : Option UInt8) (points : List (Milestone δ)) (after : Option UInt8) : Prop :=
  (after = before ∧ Keeps before points) ∨
    before = none ∧ ∃ earlier begins ends later instruction column,
      points = earlier ++ begins :: ends :: later ∧ after = some column ∧ Keeps none earlier ∧
        engine.Finds begins instruction column ∧ Keeps (some column) (ends :: later)

section FindsOnce

variable {engine} {before middle after : Option UInt8} {points more : List (Milestone δ)}

theorem Keeps.append {column : Option UInt8} (h : Keeps column points) (hm : Keeps column more) :
    Keeps column (points ++ more) := List.forall_mem_append.mpr ⟨h, hm⟩

theorem FindsOnce.append (h : engine.FindsOnce before points middle)
    (hm : engine.FindsOnce middle more after) : engine.FindsOnce before (points ++ more) after := by
  rcases h with ⟨rfl, hkeeps⟩ | ⟨rfl, earlier, begins, ends, later, instruction, column, rfl, rfl,
    hearlier, hfinds, hlater⟩
  · rcases hm with ⟨rfl, hmore⟩ | ⟨rfl, earlier, begins, ends, later, instruction, column, rfl, rfl,
      hearlier, hfinds, hlater⟩
    · exact .inl ⟨rfl, hkeeps.append hmore⟩
    · refine .inr ⟨rfl, points ++ earlier, begins, ends, later, instruction, column, ?_, rfl,
        hkeeps.append hearlier, hfinds, hlater⟩
      exact (List.append_assoc _ _ _).symm
  · rcases hm with ⟨rfl, hmore⟩ | ⟨hnone, -⟩
    · refine .inr ⟨rfl, earlier, begins, ends, later ++ more, instruction, column, ?_, rfl,
        hearlier, hfinds, hlater.append hmore⟩
      rw [List.append_assoc]
      rfl
    · cases hnone

theorem Journey.findsOnce {scene last : Scene δ} (h : engine.Journey scene points last) :
    engine.FindsOnce scene.bench.column points last.bench.column := by
  have hpoint (point : Milestone δ) :
      engine.FindsOnce point.scene.bench.column [point] point.scene.bench.column :=
    .inl ⟨rfl, List.forall_mem_singleton.mpr rfl⟩
  induction h with
  | rest bench => exact .inl ⟨congrArg Bench.column bench, nofun⟩
  | append _ _ ihf ihs => exact ihf.append ihs
  | turn depth offset scene still =>
    rcases engine.turn_column depth offset scene with hsame | ⟨instruction, column, hfinds, hnew⟩
    · refine .inl ⟨hsame, List.forall_mem_cons.mpr ⟨rfl, ?_⟩⟩
      exact List.forall_mem_singleton.mpr hsame
    · refine .inr ⟨hfinds.unknown, [], _, _, [], instruction, column, rfl, hnew, nofun, hfinds, ?_⟩
      exact List.forall_mem_singleton.mpr hnew
  | @call depth offset scene after points nests inner ih =>
    exact ((hpoint { depth, begins? := some offset, scene }).append ih).append
      (hpoint { depth, begins? := none, scene := after })

end FindsOnce

theorem execute_of_missing_column (nesting : Nesting δ τ) (offset length : Nat)
    {instruction : Instruction} (h : instruction.opcode.takesColumn = true) {column : UInt8}
    (hc : engine.image.ramGroups ≤ column.toNat) {machine : Machine δ τ}
    (hm : machine.bench.column = some column) :
    engine.execute nesting offset length instruction machine =
      (.error (.outOfRange .ramColumn column.toNat engine.image.ramGroups), machine) := by
  obtain ⟨⟨device, _⟩, state, notes⟩ := machine
  obtain rfl : _ = some column := hm
  have hrun (next : Nat → Effect Unit) :
      (do
        let result ← engine.perform (Effect.ramColumn engine.image >>= next)
        return result.map fun _ => .advance length : MachineM δ τ (Except InstructionError Step))
          ⟨⟨device, some column⟩, state, notes⟩ =
        (.error (.outOfRange .ramColumn column.toNat engine.image.ramGroups),
          ⟨⟨device, some column⟩, state, notes⟩) := by
    simp only [MachineM.bind_apply, perform_apply,
      run_ramColumn_of_le engine.facade engine.image next hc]
    rfl
  rcases Instruction.cases_of_takesColumn h with ⟨_, _, rfl⟩ | ⟨_, _, _, _, rfl⟩ <;>
    exact hrun _

theorem scene_of_tied {υ : Type} {N : τ → υ → Prop} {machine : Machine δ τ} {other : Machine δ υ}
    (h : machine.Tied Eq N other) : other.scene = machine.scene := by
  obtain ⟨⟨device, column⟩, state, notes⟩ := machine
  obtain ⟨⟨device', column'⟩, state', notes'⟩ := other
  obtain rfl : device = device' := h.device
  obtain rfl : column' = column := h.column
  obtain rfl : state' = state := h.state
  rfl

theorem runScript_of_same (start : Nat) {machine other : Machine δ τ}
    (hd : other.bench.device = machine.bench.device) (hs : other.state = machine.state) :
    (engine.runScript start other).1 = (engine.runScript start machine).1 ∧
      (engine.runScript start other).2.scene = (engine.runScript start machine).2.scene ∧
      chronicle (engine.recorded.runScript start) other =
        chronicle (engine.recorded.runScript start) machine := by
  have hobserver : engine.recorded.observer.Agrees engine.recorded.observer
      fun notes notes' => notes'.2 = notes.2 :=
    fun moment event _ _ h => congrArg (List.cons (moment, event)) h
  let fresh (machine : Machine δ τ) : Machine δ (τ × Chronicle) :=
    { bench := { device := machine.bench.device, column := none }
      state := machine.state
      notes := (machine.notes, []) }
  obtain ⟨hvalue, htied⟩ := lockstep_runScript engine.recorded.facade.agrees_same hobserver start
    (fresh machine) (fresh other) ⟨hd.symm, rfl, hs, rfl⟩
  have hran (machine : Machine δ τ) : engine.recorded.runScript start (fresh machine) =
      engine.recorded.runScript start { machine with notes := (machine.notes, []) } := rfl
  rw [hran, hran] at hvalue htied
  rw [engine.runScript_of_recorded start machine, engine.runScript_of_recorded start other]
  have hscene := scene_of_tied htied
  exact ⟨hvalue, hscene, congrArg List.reverse htied.notes⟩

/-- The column of the board in an outermost run. The milestones are those at the dispatches of the
run, at whatever depth, and at the ends of what begins there. There is no column before the first
one, and none at all, or none up to the milestone at which an instruction finds it out and that one
from its end on. Every instruction that takes its values from the column ends next, with the bench
that the column kept there makes, or else the straps: for a column that is kept, the device is
asked for the values alone and no register is read, and if the image has none for it the
instruction is refused. Another run from the same device and state comes to the same, whatever
column is left from former runs. -/
theorem ram_column_account (start : Nat) (machine : Machine δ τ) :
    let first := engine.begun machine start
    let points := engine.milestones engine.limits.maxDepth start first
    let ended := engine.runScript start machine
    dispatchList (chronicle (engine.recorded.runScript start) machine) = beginnings points ∧
    first.bench.column = none ∧ engine.FindsOnce none points ended.2.bench.column ∧
    (∀ before begins rest instruction, points = before ++ begins :: rest →
      engine.Takes begins instruction →
        ∃ ends more, rest = ends :: more ∧ ends.begins? = none ∧
          ends.scene.bench =
            instruction.behindColumn engine.facade engine.image begins.scene.bench) ∧
    (∀ (instruction : Instruction) column reg,
      .readReg reg ∉ instruction.columnRequests engine.image column) ∧
    (∀ (instruction : Instruction) column (nesting : Nesting δ τ) offset length
        (machine : Machine δ τ),
      instruction.opcode.takesColumn = true → engine.image.ramGroups ≤ column.toNat →
      machine.bench.column = some column →
        engine.execute nesting offset length instruction machine =
          (.error (.outOfRange .ramColumn column.toNat engine.image.ramGroups), machine)) ∧
    ∀ other : Machine δ τ, other.bench.device = machine.bench.device →
      other.state = machine.state →
        (engine.runScript start other).1 = ended.1 ∧
          (engine.runScript start other).2.scene = ended.2.scene ∧
          chronicle (engine.recorded.runScript start) other =
            chronicle (engine.recorded.runScript start) machine := by
  intro first points ended
  have hjourney : engine.Journey first.scene points ended.2.scene :=
    engine.journey_milestones engine.limits.maxDepth start first
  refine ⟨(engine.latches_runScript machine start).begun, rfl, hjourney.findsOnce, ?_, ?_, ?_, ?_⟩
  · intro before begins rest instruction hpoints htakes
    obtain ⟨offset, hb, hd⟩ := htakes.decoded
    have hstill : (engine.image.opcodeAt? offset).any Opcode.nests = false := by
      rw [(Instruction.decode_opcode hd).1]
      rcases Instruction.cases_of_takesColumn htakes.column with ⟨_, _, rfl⟩ | ⟨_, _, _, _, rfl⟩ <;>
        rfl
    have hturned : engine.Turned (before ++ begins :: rest) := hpoints ▸ hjourney.turned
    obtain ⟨ends, more, hrest, hnone, hscene⟩ := hturned.ends hb hstill
    refine ⟨ends, more, hrest, hnone, ?_⟩
    rw [hscene]
    exact turn_of_takesColumn hd htakes.column htakes.execute
  · intro instruction column reg
    exact instruction.not_mem_columnRequests engine.image column reg
  · intro instruction column nesting offset length machine h hc hm
    exact engine.execute_of_missing_column nesting offset length h hc hm
  · intro other hd hs
    exact engine.runScript_of_same start hd hs

/-- The straps are overwritten before a called script takes its values, and they still come from
the column that was found out before; a column left from a former run makes no difference. The
straps have more bits than those of the strap, which the map of the image turns into a column. -/
theorem ram_column_account_of_changed_straps :
    let engine : Engine SimulatedDevice Unit :=
      { image := .withDirectory
          ⟨#[0, 0x8f, 0x80, 0, 0, 0, 0x04, 0x01, 0xa0, 0, 0, 0, 0xa1, 0, 0, 0, 0x7a, 0x00, 0x10,
            0x10, 0, 0x00, 0, 0, 0, 0x5b, 0x1d, 0, 0x71, 0x8f, 0x90, 0, 0, 0, 0x04, 0x01, 0xb0, 0,
            0, 0, 0xb1, 0, 0, 0, 0x71, 0, 0, 1]⟩
          (.ofList [(.ramRestrict, 45)] 2 false)
        facade := SimulatedDevice.facade
        observer := .silent
        limits := {} }
    let machine : Machine SimulatedDevice Unit :=
      .start (SimulatedDevice.blank.withReg 0x101000 0xffffffcb) {} ()
    let other := { machine with bench.column := some 0 }
    let points := engine.milestones engine.limits.maxDepth 1 (engine.begun machine 1)
    let inner : Instruction := .register (.ramRestrictZmRegGroup 0x90 4 1 [0xb0, 0xb1])
    let ended := engine.runScript 1 machine
    Instruction.decode engine.image 29 = .ok inner ∧
      (∃ begins ends, points[5]? = some begins ∧ points[6]? = some ends ∧ begins.depth = 1 ∧
        begins.begins? = some 29 ∧ begins.scene.bench.column = some 1 ∧
        ends.scene.bench = inner.behindColumn engine.facade engine.image begins.scene.bench) ∧
      (engine.runScript 1 other).2.scene = ended.2.scene ∧ ended.2.bench.column = some 1 ∧
      ended.2.bench.device.calls.toList = [.readReg 0x101000 0xffffffcb, .writeReg 0x80 0xa1,
        .writeReg 0x101000 0, .writeReg 0x90 0xb1] := by
  intro engine machine other points inner ended
  obtain ⟨-, -, -, hends, -, -, hother⟩ := ram_column_account engine 1 machine
  have hread : (Instruction.decode engine.image 29).toOption = some inner := by decide +kernel
  have hd : Instruction.decode engine.image 29 = .ok inner := by
    cases h : Instruction.decode engine.image 29 with
    | error cause =>
      rw [h] at hread
      cases hread
    | ok instruction =>
      rw [h] at hread
      exact congrArg Except.ok (Option.some.inj hread)
  have hpoint : points[5]?.map (fun point => (point.depth, point.begins?,
      point.scene.bench.column, point.scene.state.execute)) = some (1, some 29, some 1, true) := by
    decide +kernel
  obtain ⟨begins, hfirst, hfacts⟩ := Option.map_eq_some_iff.mp hpoint
  obtain ⟨hdepth, hbegins, hcolumn, hexecute⟩ : begins.depth = 1 ∧ begins.begins? = some 29 ∧
      begins.scene.bench.column = some 1 ∧ begins.scene.state.execute = true := by
    simpa only [Prod.mk.injEq] using hfacts
  have hsplit : points = points.take 5 ++ begins :: points.drop 6 := by
    obtain ⟨hlength, rfl⟩ := List.getElem?_eq_some_iff.mp hfirst
    rw [← List.drop_eq_getElem_cons hlength, List.take_append_drop]
  obtain ⟨ends, more, hrest, -, hbench⟩ :=
    hends _ _ _ inner hsplit ⟨⟨29, hbegins, hd⟩, rfl, hexecute⟩
  have hnext : points[6]? = some ends := by
    have hhead : (points.drop 6).head? = some ends := congrArg List.head? hrest
    rwa [List.head?_drop] at hhead
  have hsame : (engine.runScript 1 other).2.scene = ended.2.scene := (hother other rfl rfl).2.1
  have hkept : ended.2.bench.column = some 1 := by decide +kernel
  refine ⟨hd, ⟨begins, ends, hfirst, hnext, hdepth, hbegins, hcolumn, hbench⟩, hsame, hkept, ?_⟩
  decide +kernel

end Engine

end RomScript
