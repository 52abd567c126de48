import RomScript.Proofs.Engine.Repetition

/-!
# Repeated blocks inside each other

A repeated block can begin inside another one, and its end is then the first one behind the
beginnings of both. All rounds of the outer block but the last stop there, because the repeat
flag is on in them. In the last round it is off: the run goes on behind that end, through the
rest of the outer block and across the end of that.
-/

set_option autoImplicit false

namespace RomScript

def Opcode.mayTurnOff : Opcode → Bool
  | .negate => true
  | opcode => opcode.isCondition

/-- Two repeated blocks, of which the inner one begins behind some instructions of the outer one
and ends before some others: the offsets of these three stretches, between the beginnings and the
ends of the blocks. Nothing before the inner end turns the execute flag off. -/
structure Image.NestedBlock (image : Image) (offset innerOffset innerStop stop : Nat)
    (count innerCount : UInt8) (before inside behind : List Nat) : Prop where
  opens : image.opcodeAt? offset = some .repeatBlock
  repeats : image.byte (offset + 1) = .ok count
  leadsIn : image.Stretch (offset + 2) before innerOffset
  innerOpens : image.opcodeAt? innerOffset = some .repeatBlock
  innerRepeats : image.byte (innerOffset + 1) = .ok innerCount
  innerBlock : image.Block (innerOffset + 2) inside innerStop
  leadsOut : image.Block (innerStop + 1) behind stop
  keepsOn : ∀ offset ∈ before ++ inside, (image.opcodeAt? offset).any Opcode.mayTurnOff = false

namespace Engine

variable {δ τ : Type} (engine : Engine δ τ)

/-! ## The execute flag -/

theorem flagBehind_of_keepsOn {instruction : Instruction} {scene : Scene δ}
    (h : instruction.opcode.mayTurnOff = false) (he : scene.state.execute = true) :
    engine.flagBehind scene instruction = true := by
  cases instruction with
  | control op => cases op <;> first | exact he | rfl | cases h
  | condition op => cases op <;> cases h
  | _ => exact he

theorem turn_execute {offset : Nat} {scene : Scene δ}
    (h : (engine.image.opcodeAt? offset).any Opcode.mayTurnOff = false)
    (he : scene.state.execute = true) : (engine.turn offset scene).state.execute = true := by
  unfold turn
  cases hd : Instruction.decode engine.image offset with
  | error cause => exact he
  | ok instruction =>
    rw [(Instruction.decode_opcode hd).1] at h
    simp only [take]
    split
    · exact engine.flagBehind_of_keepsOn h he
    · exact he

theorem turns_execute {offsets : List Nat} {scene : Scene δ}
    (h : ∀ offset ∈ offsets, (engine.image.opcodeAt? offset).any Opcode.mayTurnOff = false)
    (he : scene.state.execute = true) : (engine.turns offsets scene).state.execute = true := by
  induction offsets generalizing scene with
  | nil => exact he
  | cons offset rest ih =>
    obtain ⟨hoffset, hrest⟩ := List.forall_mem_cons.mp h
    exact ih hrest (engine.turn_execute hoffset he)

/-! ## Rounds -/

def outerRound (before inside : List Nat) (innerCount : UInt8) (scene : Scene δ) : Scene δ :=
  (engine.turns inside)^[max innerCount.toNat 1] (engine.turns before scene)

theorem iterate_turns_withRepeating (offsets : List Nat) (times : Nat) (repeating : Bool)
    (scene : Scene δ) : (engine.turns offsets)^[times] (scene.withRepeating repeating) =
      ((engine.turns offsets)^[times] scene).withRepeating repeating := by
  have hcommute : Function.Semiconj (Scene.withRepeating · repeating) (engine.turns offsets)
      (engine.turns offsets) :=
    fun scene => (engine.turns_withRepeating repeating offsets scene).symm
  exact (hcommute.iterate_right times scene).symm

theorem outerRound_withRepeating (before inside : List Nat) (innerCount : UInt8) (repeating : Bool)
    (scene : Scene δ) : engine.outerRound before inside innerCount (scene.withRepeating repeating) =
      (engine.outerRound before inside innerCount scene).withRepeating repeating := by
  rw [outerRound, turns_withRepeating, iterate_turns_withRepeating]
  rfl

theorem outerRound_repeating (before inside : List Nat) (innerCount : UInt8) (scene : Scene δ) :
    (engine.outerRound before inside innerCount scene).state.repeating = scene.state.repeating :=
  congrArg (·.state.repeating)
    (engine.outerRound_withRepeating before inside innerCount scene.state.repeating scene)

section Rounds

variable {engine} {offset innerOffset innerStop stop : Nat} {count innerCount : UInt8}
  {before inside behind : List Nat}
  (hb : engine.image.NestedBlock offset innerOffset innerStop stop count innerCount before inside
    behind)

include hb

theorem outerRound_execute {scene : Scene δ} (he : scene.state.execute = true) :
    (engine.outerRound before inside innerCount scene).state.execute = true := by
  have hon := List.forall_mem_append.mp hb.keepsOn
  exact Function.Iterate.rec (fun scene : Scene δ => scene.state.execute = true)
    (engine.turns_execute hon.1 he) (fun _ he => engine.turns_execute hon.2 he) _

theorem walk_round (room origin : Nat) {left : Nat}
    (hleft : before.length + inside.length + 1 ≤ left) {machine : Machine δ τ}
    (he : machine.state.execute = true)
    (hops : inside.length + 1 ≤ engine.limits.maxOps) : ∃ ended : Machine δ τ,
      engine.walk (engine.nesting (room + 1)) origin left (offset + 2) machine =
          engine.walk (engine.nesting (room + 1)) origin
            (left - (before.length + inside.length + 1)) innerStop ended ∧
        ended.scene = engine.outerRound before inside innerCount machine.scene := by
  let nesting := engine.nesting (room + 1)
  let reached := engine.pass nesting before machine
  let passed := (engine.step nesting innerOffset reached).2
  have hreached : reached.scene = engine.turns before machine.scene :=
    pass_scene hb.leadsIn nesting machine
  have hon : reached.state.execute = true := by
    refine (congrArg (·.state.execute) hreached).trans (engine.turns_execute ?_ he)
    exact (List.forall_mem_append.mp hb.keepsOn).1
  have hpassed : passed.scene = (engine.turns inside)^[innerCount.toNat - 1] reached.scene :=
    step_repeatBlock_scene hb.innerOpens hb.innerRepeats
      (passes_of_block hb.innerBlock (Nat.succ_ne_zero _) hops room) trivial hon
  have hturn : left - before.length = left - before.length - 1 + 1 := by omega
  have hinside : inside.length ≤ left - before.length - 1 := by omega
  have hrest : left - before.length - 1 - inside.length =
      left - (before.length + inside.length + 1) := by omega
  have htimes : max innerCount.toNat 1 = innerCount.toNat - 1 + 1 := by omega
  refine ⟨engine.pass nesting inside passed, ?_, ?_⟩
  · rw [walk_stretch hb.leadsIn nesting origin (by omega), hturn,
      walk_into_block hb.innerOpens, ← hrest]
    exact walk_stretch hb.innerBlock.stretch nesting origin hinside passed
  · rw [pass_scene hb.innerBlock.stretch, hpassed, hreached, outerRound, htimes,
      Function.iterate_succ_apply']

theorem passes_of_round (room : Nat)
    (hops : before.length + inside.length + 2 ≤ engine.limits.maxOps) :
    engine.Passes (room + 1) (offset + 2) (· = true)
      (engine.outerRound before inside innerCount) where
  allows _ he := outerRound_execute hb he
  commutes := engine.outerRound_withRepeating before inside innerCount
  runs machine he hrep := by
    have hstop := opcodeAt?_of_block hb.innerBlock
    obtain ⟨ended, hwalk, hscene⟩ := walk_round hb room (offset + 2)
      (show before.length + inside.length + 1 ≤ engine.limits.maxOps by omega) he (by omega)
    have hended : ended.state.repeating = true :=
      (congrArg (·.state.repeating) hscene).trans
        ((engine.outerRound_repeating before inside innerCount machine.scene).trans hrep)
    have hturn : engine.limits.maxOps - (before.length + inside.length + 1) =
        engine.limits.maxOps - (before.length + inside.length + 2) + 1 := by omega
    rw [runAt, if_neg (Nat.succ_ne_zero _), hwalk, hturn,
      walk_succ engine _ _ _ innerStop (Image.lt_length_of_opcodeAt? hstop), MachineM.bind_apply,
      step_endRepeat hstop, hended, ← hscene]
    exact step_endRepeat_scene hstop _ _

/-- The rounds that the outer beginning calls and the last one, which the run makes itself, up to
the inner end. -/
theorem walk_rounds {room : Nat} (hr : room + 2 ≤ engine.limits.maxDepth) (start : Nat) {left : Nat}
    (hleft : before.length + inside.length + 2 ≤ left) {machine : Machine δ τ}
    (he : machine.state.execute = true) (hrep : machine.state.repeating = false)
    (hops : before.length + inside.length + 2 ≤ engine.limits.maxOps) :
    ∃ ended : Machine δ τ,
      engine.walk (engine.nesting (room + 2)) start left offset machine =
          engine.walk (engine.nesting (room + 2)) start
            (left - (before.length + inside.length + 2)) innerStop ended ∧
        ended.scene =
          (engine.outerRound before inside innerCount)^[max count.toNat 1] machine.scene ∧
        ended.state.repeating = false := by
  let body : Scene δ → Scene δ := engine.outerRound before inside innerCount
  let opened := (engine.step (engine.nesting (room + 2)) offset machine).2
  have hopened : opened.scene = body^[count.toNat - 1] machine.scene :=
    step_repeatBlock_scene hb.opens hb.repeats (passes_of_round hb room hops) rfl he
  have hon : opened.state.execute = true := by
    refine (congrArg (·.state.execute) hopened).trans ?_
    exact Function.Iterate.rec (fun scene : Scene δ => scene.state.execute = true)
      he (fun _ => outerRound_execute hb) _
  have hoff : opened.state.repeating = false :=
    (engine.step_repeating hr offset machine).trans hrep
  obtain ⟨ended, hwalk, hended⟩ := walk_round hb (room + 1) start
    (show before.length + inside.length + 1 ≤ left - 1 by omega) hon (by omega)
  have hturn : left = left - 1 + 1 := by omega
  have hrest : left - 1 - (before.length + inside.length + 1) =
      left - (before.length + inside.length + 2) := by omega
  have htimes : max count.toNat 1 = count.toNat - 1 + 1 := by omega
  refine ⟨ended, ?_, ?_, ?_⟩
  · rw [hturn, walk_into_block hb.opens, hwalk, hrest, ← hturn]
  · rw [hended, hopened, htimes, Function.iterate_succ_apply']
  · exact (congrArg (·.state.repeating) hended).trans
      ((engine.outerRound_repeating before inside innerCount opened.scene).trans hoff)

end Rounds

/-- A repeated block inside another one makes all its passes in every round of the outer one.
What stands between the two ends is done once, behind the last round, because the inner end ends
the other rounds. The run goes on behind the outer end with the repeat flag off. -/
theorem nested_repeat_iterates {room : Nat} (hr : room ≤ engine.limits.maxDepth)
    (hdepth : (engine.nesting room).depth + 2 ≤ engine.limits.maxDepth)
    (start left offset innerOffset innerStop stop : Nat) (count innerCount : UInt8)
    (before inside behind : List Nat) (machine : Machine δ τ)
    (hb : engine.image.NestedBlock offset innerOffset innerStop stop count innerCount before inside
      behind)
    (he : machine.state.execute = true) (hrep : machine.state.repeating = false)
    (hops : before.length + inside.length + 2 ≤ engine.limits.maxOps)
    (hleft : before.length + inside.length + behind.length + 4 ≤ left) :
    let nesting := engine.nesting room
    let round (machine : Machine δ τ) : Machine δ τ :=
      (engine.pass nesting inside)^[max innerCount.toNat 1] (engine.pass nesting before machine)
    ∃ after : Machine δ τ, engine.walk nesting start left offset machine =
        engine.walk nesting start
          (left - (before.length + inside.length + behind.length + 4)) (stop + 1) after ∧
      after.scene =
        (engine.pass nesting behind (round^[max count.toNat 1] machine)).scene ∧
      after.state.repeating = false := by
  intro nesting round
  obtain ⟨room, rfl⟩ : ∃ inner, room = inner + 2 := by
    rw [depth_nesting] at hdepth
    exact Nat.exists_eq_add_of_le' (by omega)
  let body : Scene δ → Scene δ := engine.outerRound before inside innerCount
  obtain ⟨ended, hrounds, hended, hendedOff⟩ := walk_rounds hb hr start
    (show before.length + inside.length + 2 ≤ left by omega) he hrep hops
  have hstop := opcodeAt?_of_block hb.innerBlock
  let crossed := (engine.step nesting innerStop ended).2
  have hcrossed : crossed.scene = ended.scene := step_endRepeat_scene hstop nesting ended
  have hcrossedOff : crossed.state.repeating = false :=
    (congrArg (·.state.repeating) hcrossed).trans hendedOff
  obtain ⟨after, hbehind, hafter⟩ := walk_across_block hb.leadsOut hr start
    (show behind.length + 1 ≤ left - (before.length + inside.length + 3) by omega) hcrossedOff
  have hround : Function.Semiconj Machine.scene round body := by
    intro machine
    rw [iterate_pass_scene hb.innerBlock.stretch, pass_scene hb.leadsIn]
    rfl
  have hinner : left - (before.length + inside.length + 2) =
      left - (before.length + inside.length + 3) + 1 := by omega
  have hrest : left - (before.length + inside.length + 3) - (behind.length + 1) =
      left - (before.length + inside.length + behind.length + 4) := by omega
  refine ⟨after, ?_, ?_, ?_⟩
  · calc engine.walk nesting start left offset machine
      _ = engine.walk nesting start (left - (before.length + inside.length + 3) + 1) innerStop
          ended := by rw [hrounds, hinner]
      _ = engine.walk nesting start (left - (before.length + inside.length + 3)) (innerStop + 1)
          crossed := walk_across_end hstop nesting ended start _ hendedOff
      _ = _ := by rw [hbehind, hrest]
  · rw [hafter, pass_scene hb.leadsOut.stretch, pass_scene hb.leadsOut.stretch, hcrossed, hended,
      hround.iterate_right]
  · exact (congrArg (·.state.repeating) hafter).trans
      ((pass_repeating hr behind crossed).trans hcrossedOff)

/-- Two rounds of one write and two passes over another one, and a third write behind them. -/
theorem nested_repeat_iterates_of_writes :
    let engine : Engine SimulatedDevice Unit :=
      { image := .ofScript ⟨#[0, 0x33, 0x02, 0x7a, 0x10, 0, 0, 0, 0x01, 0, 0, 0, 0x33, 0x02, 0x7a,
          0x14, 0, 0, 0, 0x02, 0, 0, 0, 0x36, 0x7a, 0x18, 0, 0, 0, 0x03, 0, 0, 0, 0x36, 0x71]⟩
        facade := SimulatedDevice.facade
        observer := .silent
        limits := { maxOps := 8, maxDepth := 2 } }
    let machine : Machine SimulatedDevice Unit := .start .blank {} ()
    ∃ after : Machine SimulatedDevice Unit,
      engine.walk engine.outermost 1 8 1 machine = engine.walk engine.outermost 1 1 34 after ∧
        after.bench.device.calls.toList =
          [.writeReg 0x10 1, .writeReg 0x14 2, .writeReg 0x14 2, .writeReg 0x10 1,
            .writeReg 0x14 2, .writeReg 0x14 2, .writeReg 0x18 3] ∧
        after.state.repeating = false := by
  intro engine machine
  have hwrite (offset : Nat) (h : engine.image.opcodeAt? offset = some .zmReg) :
      engine.image.Stretch offset [offset] (offset + 9) :=
    .next h rfl nofun rfl (.none _)
  have hblock (offset : Nat) (h : engine.image.opcodeAt? offset = some .zmReg)
      (hend : engine.image.opcodeAt? (offset + 9) = some .endRepeat) :
      engine.image.Block offset [offset] (offset + 9) :=
    .next h rfl nofun rfl (.done hend)
  have hnested : engine.image.NestedBlock 1 12 23 33 2 2 [3] [14] [24] :=
    { opens := by decide
      repeats := rfl
      leadsIn := hwrite 3 (by decide)
      innerOpens := by decide
      innerRepeats := rfl
      innerBlock := hblock 14 (by decide) (by decide)
      leadsOut := hblock 24 (by decide) (by decide)
      keepsOn := by decide }
  have hroom : 2 ≤ engine.limits.maxDepth := by decide
  obtain ⟨after, hwalk, hscene, hoff⟩ := nested_repeat_iterates engine hroom (by decide) 1 8 1 12
    23 33 2 2 [3] [14] [24] machine hnested rfl rfl (by decide) (by decide)
  have hcalls : after.bench.device.calls.toList = _ :=
    congrArg (·.bench.device.calls.toList) hscene
  refine ⟨after, hwalk, hcalls.trans ?_, hoff⟩
  decide +kernel

end Engine

end RomScript
