import Mathlib.Logic.Function.Iterate
import RomScript.Proofs.Engine.Action
import RomScript.Proofs.Engine.Balance
import RomScript.Proofs.Engine.Skipping

/-!
# Repeated blocks

All passes of a repeated block but the last are runs of their own that stop at its end; the
last one is the run itself going on across the end. Between them they do to the device and to
the state what the instructions of the block do, one pass after the other.
-/

set_option autoImplicit false

namespace RomScript

/-- Goes on to the next instruction, calls no script and ends none. -/
def Opcode.isPlain : Opcode → Bool
  | .jump | .sub | .subDirect | .repeatBlock | .endRepeat | .done => false
  | _ => true

/-- From an offset on by encoded lengths, the offsets of plain instructions that the image
supports, up to the end of a block. -/
inductive Image.Block (image : Image) : Nat → List Nat → Nat → Prop
  | done {offset : Nat} (h : image.opcodeAt? offset = some .endRepeat) :
      Block image offset [] offset
  | next {offset length stop : Nat} {opcode : Opcode} {offsets : List Nat}
      (ho : image.opcodeAt? offset = some opcode) (plain : opcode.isPlain = true)
      (supported : opcode.legacyOnly = true → image.isLegacy = true)
      (hl : opcode.encodedLength image offset = .ok length)
      (rest : Block image (offset + length) offsets stop) :
      Block image offset (offset :: offsets) stop

inductive Image.Stretch (image : Image) : Nat → List Nat → Nat → Prop
  | none (offset : Nat) : Stretch image offset [] offset
  | next {offset length stop : Nat} {opcode : Opcode} {offsets : List Nat}
      (ho : image.opcodeAt? offset = some opcode) (plain : opcode.isPlain = true)
      (supported : opcode.legacyOnly = true → image.isLegacy = true)
      (hl : opcode.encodedLength image offset = .ok length)
      (rest : Stretch image (offset + length) offsets stop) :
      Stretch image offset (offset :: offsets) stop

theorem Image.Block.stretch {image : Image} {start stop : Nat} {offsets : List Nat}
    (h : image.Block start offsets stop) : image.Stretch start offsets stop := by
  induction h with
  | done h => exact .none _
  | next ho hp hs hl _ ih => exact .next ho hp hs hl ih

theorem Opcode.nests_of_isPlain {opcode : Opcode} (h : opcode.isPlain = true) :
    opcode.nests = false := by
  cases opcode <;> first | rfl | cases h

/-- The same but for the repeat flag and the notes. -/
structure Machine.Similar {δ τ : Type} (machine other : Machine δ τ) : Prop where
  bench : other.bench = machine.bench
  execute : other.state.execute = machine.state.execute
  output : other.state.output = machine.state.output

namespace Machine

variable {δ τ : Type} {machine other : Machine δ τ}

theorem Similar.scene_eq (h : machine.Similar other)
    (hr : other.state.repeating = machine.state.repeating) : other.scene = machine.scene := by
  obtain ⟨bench, ⟨execute, repeating, output⟩, notes⟩ := machine
  obtain ⟨bench', ⟨execute', repeating', output'⟩, notes'⟩ := other
  obtain ⟨rfl, rfl, rfl⟩ := h
  obtain rfl : repeating' = repeating := hr
  rfl

theorem similar_iff {repeating : Bool} (hr : other.state.repeating = repeating) :
    machine.Similar other ↔ other.scene = machine.scene.withRepeating repeating := by
  constructor
  · intro h
    have hs : ({ machine with state := { machine.state with repeating } } : Machine δ τ).Similar
        other := ⟨h.bench, h.execute, h.output⟩
    exact hs.scene_eq hr
  · intro h
    exact ⟨congrArg Scene.bench h, congrArg (·.state.execute) h, congrArg (·.state.output) h⟩

end Machine

namespace Engine

variable {δ τ : Type} (engine : Engine δ τ)

variable {engine} in
theorem step_of_plain (nesting : Nesting δ τ) {offset length : Nat} {opcode : Opcode}
    (machine : Machine δ τ) (ho : engine.image.opcodeAt? offset = some opcode)
    (hp : opcode.isPlain = true) (hs : opcode.legacyOnly = true → engine.image.isLegacy = true)
    (hl : opcode.encodedLength engine.image offset = .ok length) :
    (engine.step nesting offset machine).1 = .ok (.advance length) := by
  have hlegacy : ¬(opcode.legacyOnly ∧ ¬engine.image.isLegacy) := by simpa using hs
  rw [step_fst, Image.outline_of_opcodeAt? ho, if_neg hlegacy, hl]
  cases opcode <;> first | rfl | cases hp

/-! ## Stretches -/

def pass (nesting : Nesting δ τ) (offsets : List Nat) (machine : Machine δ τ) : Machine δ τ :=
  offsets.foldl (fun machine offset => (engine.step nesting offset machine).2) machine

section Stretches

variable {engine} {cursor stop : Nat} {offsets : List Nat}
  (hs : engine.image.Stretch cursor offsets stop)

include hs

theorem walk_stretch (nesting : Nesting δ τ) (start : Nat) {left : Nat}
    (hleft : offsets.length ≤ left) (machine : Machine δ τ) :
    engine.walk nesting start left cursor machine =
      engine.walk nesting start (left - offsets.length) stop
        (engine.pass nesting offsets machine) := by
  induction hs generalizing left machine with
  | none => rfl
  | @next cursor length stop opcode offsets ho hp hs hl rest ih =>
    have hlt := Image.lt_length_of_opcodeAt? ho
    cases left with
    | zero => cases hleft
    | succ left =>
      rw [walk_succ engine nesting start left cursor hlt, MachineM.bind_apply,
        step_of_plain nesting machine ho hp hs hl]
      simp only [proceed, advance?_natCast]
      rw [ih (Nat.le_of_succ_le_succ hleft), List.length_cons, Nat.add_sub_add_right]
      rfl

theorem pass_scene (nesting : Nesting δ τ) (machine : Machine δ τ) :
    (engine.pass nesting offsets machine).scene = engine.turns offsets machine.scene := by
  induction hs generalizing machine with
  | none => rfl
  | @next cursor _ _ opcode _ ho hp _ _ _ ih =>
    have hplain : (engine.image.opcodeAt? cursor).any Opcode.nests = false := by
      rw [ho]
      exact Opcode.nests_of_isPlain hp
    rw [turns_cons, ← engine.step_turn nesting cursor machine hplain]
    exact ih _

theorem iterate_pass_scene (nesting : Nesting δ τ) (times : Nat) (machine : Machine δ τ) :
    ((engine.pass nesting offsets)^[times] machine).scene =
      (engine.turns offsets)^[times] machine.scene :=
  Function.Semiconj.iterate_right (pass_scene hs nesting) times machine

end Stretches

/-! ## Blocks -/

section Blocks

variable {engine} {start stop : Nat} {offsets : List Nat}
  (hb : engine.image.Block start offsets stop)

include hb

theorem opcodeAt?_of_block : engine.image.opcodeAt? stop = some .endRepeat := by
  induction hb with
  | done h => exact h
  | next _ _ _ _ _ ih => exact ih

theorem walk_to_end (nesting : Nesting δ τ) (origin : Nat) {left : Nat}
    (hleft : offsets.length + 1 ≤ left) (machine : Machine δ τ) :
    engine.walk nesting origin left start machine =
      (engine.step nesting stop >>= engine.proceed nesting.depth origin stop
        (engine.limits.maxOps - (left - (offsets.length + 1) + 1) + 1)
        (engine.walk nesting origin (left - (offsets.length + 1))))
          (engine.pass nesting offsets machine) := by
  have hlt := Image.lt_length_of_opcodeAt? (opcodeAt?_of_block hb)
  have hrest : left - offsets.length = left - (offsets.length + 1) + 1 := by omega
  rw [walk_stretch hb.stretch nesting origin (Nat.le_of_succ_le hleft), hrest,
    walk_succ engine nesting origin _ stop hlt]

theorem pass_similar (nesting nesting' : Nesting δ τ) {machine machine' : Machine δ τ}
    (h : machine.Similar machine') :
    (engine.pass nesting offsets machine).Similar (engine.pass nesting' offsets machine') := by
  have hscene := pass_scene hb.stretch nesting' machine'
  have hrepeating : (engine.pass nesting' offsets machine').state.repeating =
      machine'.state.repeating :=
    (congrArg (·.state.repeating) hscene).trans (engine.turns_repeating offsets machine'.scene)
  rw [Machine.similar_iff hrepeating, hscene, (Machine.similar_iff rfl).mp h, turns_withRepeating,
    ← pass_scene hb.stretch nesting machine]

end Blocks

/-! ## The end of a block -/

section Ends

variable {engine} {stop : Nat} (h : engine.image.opcodeAt? stop = some .endRepeat)
  (nesting : Nesting δ τ) (machine : Machine δ τ)

include h

theorem step_endRepeat : (engine.step nesting stop machine).1 =
    .ok (if machine.state.repeating then .stop else .advance 1) := by
  rw [step_fst, Image.outline_of_opcodeAt? h]
  rfl

/-- The end of a block does nothing but to stop a run. -/
theorem step_endRepeat_scene : (engine.step nesting stop machine).2.scene = machine.scene := by
  have hd : Instruction.decode engine.image stop = .ok (.control .endRepeat) :=
    (Instruction.decode_eq_ok_iff _ _ _).mpr ⟨.endRepeat, h, rfl⟩
  rw [engine.step_take nesting stop machine hd rfl]
  exact ite_self _

theorem walk_across_end (origin left : Nat) (hrep : machine.state.repeating = false) :
    engine.walk nesting origin (left + 1) stop machine =
      engine.walk nesting origin left (stop + 1) (engine.step nesting stop machine).2 := by
  rw [walk_succ engine nesting origin left stop (Image.lt_length_of_opcodeAt? h),
    MachineM.bind_apply, step_endRepeat h, hrep]
  rfl

end Ends

/-! ## Passes -/

theorem pass_repeating {engine : Engine δ τ} {room : Nat} (hr : room ≤ engine.limits.maxDepth)
    (offsets : List Nat) (machine : Machine δ τ) :
    (engine.pass (engine.nesting room) offsets machine).state.repeating =
      machine.state.repeating := by
  induction offsets generalizing machine with
  | nil => rfl
  | cons offset rest ih => exact (ih _).trans (engine.step_repeating hr offset machine)

theorem iterate_pass_repeating {engine : Engine δ τ} {room : Nat}
    (hr : room ≤ engine.limits.maxDepth) (offsets : List Nat) (times : Nat)
    (machine : Machine δ τ) :
    ((engine.pass (engine.nesting room) offsets)^[times] machine).state.repeating =
      machine.state.repeating := by
  induction times generalizing machine with
  | zero => rfl
  | succ times ih => exact (ih _).trans (pass_repeating hr offsets machine)

theorem walk_across_block {engine : Engine δ τ} {room start stop : Nat} {offsets : List Nat}
    (hb : engine.image.Block start offsets stop) (hr : room ≤ engine.limits.maxDepth)
    (origin : Nat) {left : Nat} (hleft : offsets.length + 1 ≤ left) {machine : Machine δ τ}
    (hrep : machine.state.repeating = false) : ∃ after : Machine δ τ,
      engine.walk (engine.nesting room) origin left start machine =
          engine.walk (engine.nesting room) origin (left - (offsets.length + 1)) (stop + 1) after ∧
        after.scene = (engine.pass (engine.nesting room) offsets machine).scene := by
  have hstop := opcodeAt?_of_block hb
  have hpass := (pass_repeating hr offsets machine).trans hrep
  rw [walk_to_end hb _ origin hleft, MachineM.bind_apply, step_endRepeat hstop, hpass]
  exact ⟨_, rfl, step_endRepeat_scene hstop _ _⟩

theorem call_scene (room target : Nat) (machine : Machine δ τ) :
    let ended := engine.call (engine.nesting (room + 1)) target machine
    ended.1 = .ok () ∧ ∃ noted : Machine δ τ, noted.scene = machine.scene ∧
      ended.2.scene = (engine.runAt (engine.nesting room) target noted).2.scene := by
  intro ended
  let place := engine.nesting (room + 1)
  let noted := (engine.note place.depth (.call target (place.depth + 1)) machine).2
  let called := engine.enclosed place.depth target (engine.runAt (engine.nesting room) target)
    machine
  have hinner : place.inner = some fun target => engine.runAt (engine.nesting room) target := rfl
  have hended : ended = engine.call place target machine := rfl
  have hcalled : called.2.scene = (engine.runAt (engine.nesting room) target noted).2.scene := rfl
  rw [hended, call_of_inner engine hinner, MachineM.bind_apply]
  cases called.1 with
  | ok report => exact ⟨rfl, noted, rfl, hcalled⟩
  | error cause => exact ⟨rfl, noted, rfl, hcalled⟩

/-- With the repeat flag on, runs from `start` act on the scene as the body does, wherever they
are called from, as long as the execute flag is one of those that are allowed. -/
structure Passes (room start : Nat) (allowed : Bool → Prop) (body : Scene δ → Scene δ) :
    Prop where
  runs (machine : Machine δ τ) (ha : allowed machine.state.execute)
    (hrep : machine.state.repeating = true) :
    (engine.runAt (engine.nesting room) start machine).2.scene = body machine.scene
  allows (scene : Scene δ) (ha : allowed scene.state.execute) :
    allowed (body scene).state.execute
  commutes (repeating : Bool) (scene : Scene δ) :
    body (scene.withRepeating repeating) = (body scene).withRepeating repeating

theorem passes_of_block {engine : Engine δ τ} {start stop : Nat} {offsets : List Nat}
    (hb : engine.image.Block start offsets stop) (hs : start ≠ 0)
    (hops : offsets.length + 1 ≤ engine.limits.maxOps) (room : Nat) :
    engine.Passes room start (fun _ => True) (engine.turns offsets) where
  allows _ _ := trivial
  commutes repeating scene := engine.turns_withRepeating repeating offsets scene
  runs machine _ hrep := by
    have hstop := opcodeAt?_of_block hb
    have hscene := pass_scene hb.stretch (engine.nesting room) machine
    have hpass : (engine.pass (engine.nesting room) offsets machine).state.repeating = true :=
      (congrArg (·.state.repeating) hscene).trans
        ((engine.turns_repeating offsets machine.scene).trans hrep)
    rw [runAt, if_neg hs, walk_to_end hb _ start hops, MachineM.bind_apply, step_endRepeat hstop,
      hpass, ← hscene]
    exact step_endRepeat_scene hstop _ _

section Passes

variable {engine} {room start : Nat} {allowed : Bool → Prop} {body : Scene δ → Scene δ}

variable (hp : engine.Passes room start allowed body)

include hp

theorem Passes.repeating (scene : Scene δ) :
    (body scene).state.repeating = scene.state.repeating :=
  congrArg (·.state.repeating) (hp.commutes scene.state.repeating scene)

theorem Passes.iterate_commutes (times : Nat) (repeating : Bool) (scene : Scene δ) :
    body^[times] (scene.withRepeating repeating) =
      (body^[times] scene).withRepeating repeating := by
  have hcommute : Function.Semiconj (Scene.withRepeating · repeating) body body :=
    fun scene => (hp.commutes repeating scene).symm
  exact (hcommute.iterate_right times scene).symm

theorem callTimes_scene (times : Nat) (machine : Machine δ τ)
    (ha : allowed machine.state.execute) (hrep : machine.state.repeating = true) :
    (engine.callTimes (engine.nesting (room + 1)) start times machine).2.scene =
      body^[times] machine.scene := by
  induction times generalizing machine with
  | zero => rfl
  | succ times ih =>
    obtain ⟨hv, noted, hn, hcalled⟩ := engine.call_scene room start machine
    have hallowed : allowed noted.state.execute :=
      (congrArg (fun scene => allowed scene.state.execute) hn).mpr ha
    have hnoted : noted.state.repeating = true := (congrArg (·.state.repeating) hn).trans hrep
    rw [hp.runs noted hallowed hnoted, hn] at hcalled
    rw [Function.iterate_succ_apply, callTimes, MachineM.bind_apply, hv, ← hcalled]
    refine ih _ ?_ ?_
    · exact (congrArg (fun scene => allowed scene.state.execute) hcalled).mpr (hp.allows _ ha)
    · exact (congrArg (·.state.repeating) hcalled).trans ((hp.repeating _).trans hrep)

end Passes

/-! ## Repetition -/

section Repeat

variable {engine} {room offset stop : Nat} {offsets : List Nat} {count : UInt8}
  {machine : Machine δ τ} (ho : engine.image.opcodeAt? offset = some .repeatBlock)
  (hc : engine.image.byte (offset + 1) = .ok count)

include ho

theorem step_repeatBlock (nesting : Nesting δ τ) :
    (engine.step nesting offset machine).1 = .ok (.advance 2) := by
  rw [step_fst, Image.outline_of_opcodeAt? ho]
  rfl

theorem walk_into_block (nesting : Nesting δ τ) (origin left : Nat) :
    engine.walk nesting origin (left + 1) offset machine =
      engine.walk nesting origin left (offset + 2) (engine.step nesting offset machine).2 := by
  rw [walk_succ engine nesting origin left offset (Image.lt_length_of_opcodeAt? ho),
    MachineM.bind_apply, step_repeatBlock ho]
  rfl

include hc

/-- A step at the beginning of a repeated block makes all passes but the last. -/
theorem step_repeatBlock_scene {allowed : Bool → Prop} {body : Scene δ → Scene δ}
    (hp : engine.Passes room (offset + 2) allowed body) (ha : allowed true)
    (he : machine.state.execute = true) :
    (engine.step (engine.nesting (room + 1)) offset machine).2.scene =
      body^[count.toNat - 1] machine.scene := by
  have hd : Instruction.decode engine.image offset = .ok (.control (.repeatBlock count)) :=
    (Instruction.decode_eq_ok_iff _ _ _).mpr
      ⟨.repeatBlock, ho, bind_eq_ok_iff.mpr ⟨count, hc, rfl⟩⟩
  let noted := engine.entered (engine.nesting (room + 1)) offset machine
    (.control (.repeatBlock count))
  let repeated : Machine δ τ := { noted with state := { noted.state with repeating := true } }
  have hcalls := callTimes_scene hp (count.toNat - 1) repeated
    (he.symm ▸ ha : allowed machine.state.execute) rfl
  have hback := congrArg (Scene.withRepeating · machine.state.repeating) hcalls
  simp only [← hp.iterate_commutes] at hback
  exact (engine.step_executed _ offset machine hd nofun (.inl he)).2.trans hback

theorem step_repeatBlock_passes (hb : engine.image.Block (offset + 2) offsets stop)
    (hops : offsets.length + 1 ≤ engine.limits.maxOps)
    (hr : room + 1 ≤ engine.limits.maxDepth) (nesting : Nesting δ τ)
    (he : machine.state.execute = true) :
    ((engine.pass nesting offsets)^[count.toNat - 1] machine).Similar
      (engine.step (engine.nesting (room + 1)) offset machine).2 := by
  have hp := passes_of_block hb (Nat.succ_ne_zero _) hops room
  rw [Machine.similar_iff (engine.step_repeating hr offset machine),
    step_repeatBlock_scene ho hc hp trivial he, iterate_pass_scene hb.stretch,
    ← hp.iterate_commutes]
  rfl

end Repeat

/-- A repeated block does what its instructions do in as many passes as are asked for, at least
one, and each pass goes on from the state that the one before it left. The run that meets the
block goes on behind it with the repeat flag off. A block that is repeated at most once is the
block itself. -/
theorem repeat_iterates {room : Nat} (hr : room ≤ engine.limits.maxDepth)
    (hdepth : (engine.nesting room).depth < engine.limits.maxDepth) (start left offset stop : Nat)
    (count : UInt8) (offsets : List Nat) (machine : Machine δ τ)
    (ho : engine.image.opcodeAt? offset = some .repeatBlock)
    (hc : engine.image.byte (offset + 1) = .ok count)
    (hb : engine.image.Block (offset + 2) offsets stop) (he : machine.state.execute = true)
    (hrep : machine.state.repeating = false) (hops : offsets.length + 1 ≤ engine.limits.maxOps)
    (hleft : offsets.length + 2 ≤ left) :
    let nesting := engine.nesting room
    let behind := engine.walk nesting start (left - (offsets.length + 2)) (stop + 1)
    ∃ after : Machine δ τ, engine.walk nesting start left offset machine = behind after ∧
      after.scene = ((engine.pass nesting offsets)^[max count.toNat 1] machine).scene ∧
      after.state.repeating = false ∧
      (count.toNat ≤ 1 → ∃ plain : Machine δ τ,
        engine.walk nesting start (left - 1) (offset + 2) machine = behind plain ∧
          plain.scene = after.scene) := by
  intro nesting behind
  have hlt := Image.lt_length_of_opcodeAt? ho
  have hrest : left - 1 - (offsets.length + 1) = left - (offsets.length + 2) := by omega
  have hturn : left = left - 1 + 1 := by omega
  obtain ⟨room, rfl⟩ : ∃ inner, room = inner + 1 := by
    rw [depth_nesting] at hdepth
    exact Nat.exists_eq_succ_of_ne_zero (by omega)
  let passed := (engine.step nesting offset machine).2
  have hpassed : passed.state.repeating = false :=
    (engine.step_repeating hr offset machine).trans hrep
  have hroom : offsets.length + 1 ≤ left - 1 := by omega
  obtain ⟨after, hwalk, hscene⟩ := walk_across_block hb hr start hroom hpassed
  have htimes : max count.toNat 1 = count.toNat - 1 + 1 := by omega
  have hall : after.scene = ((engine.pass nesting offsets)^[max count.toNat 1] machine).scene := by
    rw [hscene, htimes, Function.iterate_succ_apply']
    refine (pass_similar hb nesting nesting
      (step_repeatBlock_passes ho hc hb hops hr nesting he)).scene_eq ?_
    rw [pass_repeating hr, pass_repeating hr, iterate_pass_repeating hr]
    exact engine.step_repeating hr offset machine
  have hafter : after.state.repeating = machine.state.repeating :=
    (congrArg (·.state.repeating) hall).trans (iterate_pass_repeating hr offsets _ machine)
  refine ⟨after, ?_, hall, hafter.trans hrep, fun hone => ?_⟩
  · rw [hturn, walk_succ engine nesting start _ offset hlt, MachineM.bind_apply,
      step_repeatBlock ho]
    rw [hrest] at hwalk
    exact hwalk
  · obtain ⟨plain, hplain, hpscene⟩ := walk_across_block hb hr start hroom hrep
    have htimes : max count.toNat 1 = 1 := by omega
    rw [hrest] at hplain
    rw [htimes] at hall
    exact ⟨plain, hplain, hpscene.trans hall.symm⟩

/-- Of three passes the second one is stepped over, because each turns the execute flag over. -/
theorem repeat_iterates_of_negated :
    let engine : Engine SimulatedDevice Unit :=
      { image := .ofScript
          ⟨#[0, 0x33, 0x03, 0x7a, 0x10, 0, 0, 0, 0x01, 0, 0, 0, 0x38, 0x36, 0x71]⟩
        facade := SimulatedDevice.facade
        observer := .silent
        limits := { maxOps := 5, maxDepth := 1 } }
    let machine : Machine SimulatedDevice Unit := .start .blank {} ()
    ∃ after : Machine SimulatedDevice Unit,
      engine.walk engine.outermost 1 5 1 machine = engine.walk engine.outermost 1 1 14 after ∧
        after.state.execute = false ∧
        after.bench.device.calls.toList = [.writeReg 0x10 1, .writeReg 0x10 1] := by
  intro engine machine
  have hreg : engine.image.opcodeAt? 3 = some .zmReg := by decide
  have hnegate : engine.image.opcodeAt? 12 = some .negate := by decide
  have hblock : engine.image.Block 3 [3, 12] 13 :=
    .next hreg rfl nofun rfl (.next hnegate rfl nofun rfl (.done (by decide)))
  have hroom : 1 ≤ engine.limits.maxDepth := by decide
  obtain ⟨after, hwalk, hscene, -, -⟩ := repeat_iterates engine hroom (by decide) 1 5 1 13 3
    [3, 12] machine (by decide) rfl hblock rfl rfl (by decide) (by decide)
  have hstate : after.state.execute = _ := congrArg (·.state.execute) hscene
  have hcalls : after.bench.device.calls.toList = _ :=
    congrArg (·.bench.device.calls.toList) hscene
  refine ⟨after, hwalk, hstate.trans ?_, hcalls.trans ?_⟩
  · decide +kernel
  · decide +kernel

end Engine

end RomScript
