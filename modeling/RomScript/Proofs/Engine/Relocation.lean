import RomScript.Proofs.Engine.Passage
import RomScript.Proofs.Engine.Repetition
import RomScript.Proofs.Instruction.Encoding

/-!
# Moved scripts

An instruction that is neither a jump nor the beginning of a repeated block does the same
wherever its bytes stand: its offset is for the observer only. So a script of such instructions
can be moved, and one that calls no other ones can stand in the place of a call to it.
-/

set_option autoImplicit false

namespace RomScript

/-! ## Where instructions stand -/

/-- The instructions stand one behind the other from an offset on. -/
def Image.Holds (image : Image) : Nat → List Instruction → Prop
  | _, [] => True
  | offset, instruction :: rest =>
    Instruction.decode image offset = .ok instruction ∧
      image.Holds (offset + instruction.size) rest

namespace Instruction

def extent : List Instruction → Nat
  | [] => 0
  | instruction :: rest => instruction.size + extent rest

def offsetsFrom : Nat → List Instruction → List Nat
  | _, [] => []
  | offset, instruction :: rest => offset :: offsetsFrom (offset + instruction.size) rest

theorem length_flatMap_bytes (instructions : List Instruction) :
    (instructions.flatMap bytes).length = extent instructions := by
  induction instructions with
  | nil => rfl
  | cons instruction rest ih =>
    rw [List.flatMap_cons, List.length_append, instruction.length_bytes, ih]
    rfl

theorem decode_of_spells {image : Image} {offset place : Nat} {instruction : Instruction}
    (h : decode image offset = .ok instruction) (hs : image.Spells place instruction.bytes) :
    decode image place = .ok instruction := by
  have hle : place ≤ image.length := Nat.le_of_lt (Image.lt_length_of_byte hs.1)
  have hslice := (image.spells_iff_slice hle).mp hs
  rw [instruction.length_bytes] at hslice
  exact decode_of_slice rfl h hslice

end Instruction

namespace Image

open Instruction

variable {image : Image} {offset place : Nat} {instructions : List Instruction}

theorem holds_append {rest : List Instruction} : image.Holds offset (instructions ++ rest) ↔
    image.Holds offset instructions ∧ image.Holds (offset + extent instructions) rest := by
  induction instructions generalizing offset with
  | nil => exact (and_iff_right trivial).symm
  | cons instruction tail ih =>
    have hextent : offset + instruction.size + extent tail =
        offset + extent (instruction :: tail) := Nat.add_assoc _ _ _
    rw [List.cons_append, Holds, Holds, ih, hextent, and_assoc]

theorem spells_of_holds (h : image.Holds offset instructions) :
    image.Spells offset (instructions.flatMap bytes) := by
  induction instructions generalizing offset with
  | nil => trivial
  | cons instruction rest ih =>
    rw [List.flatMap_cons, spells_append, instruction.length_bytes]
    exact ⟨((decode_iff_spells image offset instruction).mp h.1).2, ih h.2⟩

theorem holds_of_spells (h : image.Holds offset instructions)
    (hs : image.Spells place (instructions.flatMap bytes)) : image.Holds place instructions := by
  induction instructions generalizing offset place with
  | nil => trivial
  | cons instruction rest ih =>
    rw [List.flatMap_cons, spells_append, instruction.length_bytes] at hs
    exact ⟨decode_of_spells h.1 hs.1, ih h.2 hs.2⟩

theorem holds_of_slice {window : List UInt8} (h : image.Holds offset instructions)
    (hw : image.slice offset (extent instructions) = .ok window)
    (hs : image.slice place (extent instructions) = .ok window) :
    image.Holds place instructions := by
  have hlength := length_flatMap_bytes instructions
  have hend := (Rom.exists_slice_iff image.rom offset _).mp ⟨window, hw⟩
  have hbytes := (image.spells_iff_slice (Nat.le_of_add_right_le hend)).mp (spells_of_holds h)
  rw [hlength] at hbytes
  obtain rfl := Except.ok.inj (hbytes.symm.trans hw)
  rw [← hlength] at hs
  have hspelled := ((Rom.slice_eq_ok_iff image.rom place _).mp hs).2
  exact holds_of_spells h ((image.spells_iff place _).mpr hspelled)

end Image

namespace Engine

variable {δ τ : Type} (engine : Engine δ τ)

/-! ## One instruction -/

theorem concur_scene {α : Type} {engine : Engine δ τ} {depth : Nat} {action : MachineM δ τ α}
    (h : engine.Concur engine.observer depth action action) {machine other : Machine δ τ}
    (hs : other.scene = machine.scene) :
    (action other).1 = (action machine).1 ∧
      (action other).2.scene = (action machine).2.scene := by
  obtain ⟨value, events, last, -, hm, ho⟩ := h machine.scene machine.notes other.notes
  have hother : other = machine.scene.noted other.notes := congrArg (Scene.noted · other.notes) hs
  have hm : action machine = _ := hm
  rw [hother, hm, ho]
  exact ⟨rfl, rfl⟩

section Moved

variable {engine} {room : Nat} (hr : room ≤ engine.limits.maxDepth) {offset place : Nat}
  {machine other : Machine δ τ} (hs : other.scene = machine.scene)

include hr hs

theorem call_moved (target : Nat) :
    (engine.call (engine.nesting room) target other).2.scene =
      (engine.call (engine.nesting room) target machine).2.scene :=
  (concur_scene (concur_call (engine.matched_nesting engine.observer hr) target) hs).2

theorem execute_moved (length : Nat) {instruction : Instruction}
    (hb : instruction.opcode ≠ .repeatBlock) :
    (engine.execute (engine.nesting room) place length instruction other).2.scene =
      (engine.execute (engine.nesting room) offset length instruction machine).2.scene := by
  cases hn : instruction.opcode.nests with
  | false => rw [execute_act _ _ _ _ _ hn, execute_act _ _ _ _ _ hn, hs]
  | true =>
    rcases Instruction.cases_of_nests hn with ⟨count, rfl⟩ | ⟨index, rfl⟩ | ⟨target, rfl⟩
    · exact absurd rfl hb
    · simp only [execute, control]
      cases engine.image.scriptPointer index with
      | error cause => exact hs
      | ok target => exact call_moved hr hs target.toNat
    · exact call_moved hr hs target.toNat

/-- An instruction that is neither a jump nor the beginning of a repeated block makes the same
step wherever it stands. -/
theorem step_moved {instruction : Instruction}
    (hd : Instruction.decode engine.image offset = .ok instruction)
    (hp : Instruction.decode engine.image place = .ok instruction)
    (hj : instruction.opcode ≠ .jump) (hb : instruction.opcode ≠ .repeatBlock) :
    (engine.step (engine.nesting room) place other).1 =
        (engine.step (engine.nesting room) offset machine).1 ∧
      (engine.step (engine.nesting room) place other).2.scene =
        (engine.step (engine.nesting room) offset machine).2.scene := by
  have hrepeating : other.state.repeating = machine.state.repeating :=
    congrArg (·.state.repeating) hs
  constructor
  · rw [step_pace engine _ _ _ hd hj, step_pace engine _ _ _ hp hj, hrepeating]
  · rw [step_scene_of_ok engine _ _ _ hd, step_scene_of_ok engine _ _ _ hp, hs]
    by_cases h : engine.Runs instruction machine.scene
    · have hentered : (engine.entered (engine.nesting room) place other instruction).scene =
          (engine.entered (engine.nesting room) offset machine instruction).scene := hs
      rw [if_pos h, if_pos h]
      exact execute_moved hr hentered _ hb
    · rw [if_neg h, if_neg h]

end Moved

/-! ## Scripts -/

/-- Two runs that begin at different offsets end in the same way behind as many instructions, as
far behind their beginnings, and with the same scene. -/
def EndAlike (start start' : Nat) (ended ended' : Outcome × Machine δ τ) : Prop :=
  (∃ distance ops exit,
    ended.1 = .ok { start, cursor := start + distance, ops, exit } ∧
      ended'.1 = .ok { start := start', cursor := start' + distance, ops, exit }) ∧
    ended'.2.scene = ended.2.scene

section Scripts

variable {engine} {room : Nat} (hr : room ≤ engine.limits.maxDepth) (start start' : Nat)

include hr

theorem endAlike_of_next {walked left : Nat} {machine other : Machine δ τ}
    (hs : other.scene = machine.scene) {instruction : Instruction}
    (hd : Instruction.decode engine.image (start + walked) = .ok instruction)
    (hp : Instruction.decode engine.image (start' + walked) = .ok instruction)
    (hj : instruction.opcode ≠ .jump) (hb : instruction.opcode ≠ .repeatBlock)
    (next : instruction.opcode ≠ .done → ∀ left (machine other : Machine δ τ),
      other.scene = machine.scene → EndAlike start start'
        (engine.walk (engine.nesting room) start left (start + walked + instruction.size) machine)
        (engine.walk (engine.nesting room) start' left (start' + walked + instruction.size)
          other)) :
    EndAlike start start'
      (engine.walk (engine.nesting room) start left (start + walked) machine)
      (engine.walk (engine.nesting room) start' left (start' + walked) other) := by
  have hlt := Image.lt_length_of_opcodeAt? (Instruction.decode_opcode hd).1
  have hlt' := Image.lt_length_of_opcodeAt? (Instruction.decode_opcode hp).1
  cases left with
  | zero =>
    rw [walk_zero engine _ _ start _ hlt, walk_zero engine _ _ start' _ hlt']
    exact ⟨⟨walked, _, _, rfl, rfl⟩, hs⟩
  | succ left =>
    obtain ⟨hv, hscene⟩ := step_moved hr hs hd hp hj hb
    rw [walk_succ engine _ start left _ hlt, walk_succ engine _ start' left _ hlt',
      MachineM.bind_apply, MachineM.bind_apply, hv, step_pace engine _ _ _ hd hj]
    unfold Image.pace
    split
    · exact ⟨⟨walked + 1, _, _, rfl, rfl⟩, hscene⟩
    · rename_i hgo
      have hdone : instruction.opcode ≠ .done := fun h => hgo (.inr (.inl h))
      simp only [proceed, advance?_natCast]
      exact next hdone left _ _ hscene

theorem endAlike_walk {body : List Instruction}
    (hbody : ∀ instruction ∈ body,
      instruction.opcode ≠ .jump ∧ instruction.opcode ≠ .repeatBlock) {walked : Nat}
    (hd : engine.image.Holds (start + walked) (body ++ [.control .done]))
    (hp : engine.image.Holds (start' + walked) (body ++ [.control .done])) (left : Nat)
    {machine other : Machine δ τ} (hs : other.scene = machine.scene) :
    EndAlike start start'
      (engine.walk (engine.nesting room) start left (start + walked) machine)
      (engine.walk (engine.nesting room) start' left (start' + walked) other) := by
  induction body generalizing walked left machine other with
  | nil => exact endAlike_of_next hr start start' hs hd.1 hp.1 nofun nofun (absurd rfl)
  | cons instruction rest ih =>
    obtain ⟨⟨hj, hb⟩, hrest⟩ := List.forall_mem_cons.mp hbody
    refine endAlike_of_next hr start start' hs hd.1 hp.1 hj hb fun _ left machine other hs => ?_
    have hrest := ih hrest ((Nat.add_assoc start walked _).symm ▸ hd.2)
      ((Nat.add_assoc start' walked _).symm ▸ hp.2) left hs
    rw [← Nat.add_assoc, ← Nat.add_assoc] at hrest
    exact hrest

theorem endAlike_runAt {start start' : Nat} (hs : start ≠ 0) (hs' : start' ≠ 0)
    {body : List Instruction} (hbody : ∀ instruction ∈ body,
      instruction.opcode ≠ .jump ∧ instruction.opcode ≠ .repeatBlock)
    (hd : engine.image.Holds start (body ++ [.control .done]))
    (hp : engine.image.Holds start' (body ++ [.control .done])) {machine other : Machine δ τ}
    (h : other.scene = machine.scene) :
    EndAlike start start' (engine.runAt (engine.nesting room) start machine)
      (engine.runAt (engine.nesting room) start' other) := by
  rw [runAt, runAt, if_neg hs, if_neg hs']
  have hd : engine.image.Holds (start + 0) (body ++ [.control .done]) := hd
  have hp : engine.image.Holds (start' + 0) (body ++ [.control .done]) := hp
  exact endAlike_walk hr start start' hbody hd hp engine.limits.maxOps h

end Scripts

/-! ## Calls -/

def takes (instructions : List Instruction) (scene : Scene δ) : Scene δ :=
  instructions.foldl (fun scene instruction => engine.take instruction scene) scene

end Engine

/-- The instruction goes on to the next one and runs no other ones. -/
structure Image.Flat (image : Image) (instruction : Instruction) : Prop where
  stays : instruction.opcode ≠ .jump
  goesOn : instruction.opcode ≠ .done
  nests : instruction.opcode.nests = false
  supported : image.Supports instruction.opcode

namespace Engine

variable {δ τ : Type} (engine : Engine δ τ)

section Calls

variable {engine} {offset : Nat} {body : List Instruction} (hd : engine.image.Holds offset body)
  (hflat : ∀ instruction ∈ body, engine.image.Flat instruction)

include hd hflat

/-- Flat instructions do the same wherever they are taken, and whatever runs there are. -/
theorem pass_takes (nesting : Nesting δ τ) (machine : Machine δ τ) :
    (engine.pass nesting (Instruction.offsetsFrom offset body) machine).scene =
      engine.takes body machine.scene := by
  induction body generalizing offset machine with
  | nil => rfl
  | cons instruction rest ih =>
    obtain ⟨hfirst, hrest⟩ := List.forall_mem_cons.mp hflat
    refine (ih hd.2 hrest _).trans ?_
    rw [engine.step_take nesting offset machine hd.1 hfirst.nests]
    rfl

theorem walk_flat (nesting : Nesting δ τ) (start : Nat) {left : Nat} (hleft : body.length ≤ left)
    {machine : Machine δ τ} (hrep : machine.state.repeating = false) :
    engine.walk nesting start left offset machine =
      engine.walk nesting start (left - body.length) (offset + Instruction.extent body)
        (engine.pass nesting (Instruction.offsetsFrom offset body) machine) := by
  induction body generalizing offset left machine with
  | nil => rfl
  | cons instruction rest ih =>
    obtain ⟨hfirst, hrest⟩ := List.forall_mem_cons.mp hflat
    have hlt := Image.lt_length_of_opcodeAt? (Instruction.decode_opcode hd.1).1
    have hpace : engine.image.pace false instruction = .advance instruction.size := by
      rw [Image.pace, if_neg]
      rintro (hs | hdone | ⟨-, hf⟩)
      · exact hs hfirst.supported
      · exact hfirst.goesOn hdone
      · cases hf
    have hoff : (engine.step nesting offset machine).2.state.repeating = false := by
      have hscene := engine.step_take nesting offset machine hd.1 hfirst.nests
      exact (congrArg (·.state.repeating) hscene).trans
        ((engine.take_repeating instruction machine.scene).trans hrep)
    cases left with
    | zero => cases hleft
    | succ left =>
      rw [walk_succ engine nesting start left offset hlt, MachineM.bind_apply,
        step_pace engine nesting offset machine hd.1 hfirst.stays, hrep, hpace]
      simp only [proceed, advance?_natCast]
      rw [ih hd.2 hrest (Nat.le_of_succ_le_succ hleft) hoff, List.length_cons,
        Nat.add_sub_add_right, Nat.add_assoc]
      rfl

theorem runAt_flat (nesting : Nesting δ τ) (hs : offset ≠ 0)
    (hend : Instruction.decode engine.image (offset + Instruction.extent body) =
      .ok (.control .done))
    (hops : body.length + 1 ≤ engine.limits.maxOps) {machine : Machine δ τ}
    (hrep : machine.state.repeating = false) :
    (engine.runAt nesting offset machine).2.scene = engine.takes body machine.scene := by
  have hlt := Image.lt_length_of_opcodeAt? (Instruction.decode_opcode hend).1
  have hturn : engine.limits.maxOps - body.length =
      engine.limits.maxOps - (body.length + 1) + 1 := by omega
  have hgoes : Opcode.done ≠ .jump := by decide
  have hpassed := pass_takes hd hflat nesting machine
  have hdone := engine.step_take nesting _
    (engine.pass nesting (Instruction.offsetsFrom offset body) machine) hend rfl
  rw [runAt, if_neg hs, walk_flat hd hflat nesting offset (Nat.le_of_succ_le hops) hrep, hturn,
    walk_succ engine nesting offset _ _ hlt, MachineM.bind_apply,
    step_pace engine nesting _ _ hend hgoes, ← hpassed]
  exact hdone.trans (ite_self _)

end Calls

theorem step_subDirect_flat {room offset : Nat} {target : UInt16} {body : List Instruction}
    (hd : Instruction.decode engine.image offset = .ok (.control (.subDirect target)))
    (hz : target ≠ 0) (hbody : engine.image.Holds target.toNat (body ++ [.control .done]))
    (hflat : ∀ instruction ∈ body, engine.image.Flat instruction)
    (hops : body.length + 1 ≤ engine.limits.maxOps) {machine : Machine δ τ}
    (he : machine.state.execute = true) (hrep : machine.state.repeating = false) :
    (engine.step (engine.nesting (room + 1)) offset machine).2.scene =
      engine.takes body machine.scene := by
  have hstart : target.toNat ≠ 0 := fun h => hz (UInt16.toNat_inj.mp h)
  obtain ⟨hheld, hend, -⟩ := Image.holds_append.mp hbody
  obtain ⟨-, noted, hn, hcall⟩ := engine.call_scene room target.toNat
    (engine.entered (engine.nesting (room + 1)) offset machine (.control (.subDirect target)))
  have hnoted : noted.scene = machine.scene := hn
  have hoff : noted.state.repeating = false := (congrArg (·.state.repeating) hnoted).trans hrep
  have hrun := runAt_flat hheld hflat (engine.nesting room) hstart hend hops hoff
  have hstep := (engine.step_executed (engine.nesting (room + 1)) offset machine hd nofun
    (.inl he)).2
  rw [hstep, ← hnoted, ← hrun]
  exact hcall

/-- Straight code does not depend on where it stands. The same bytes of an instruction other
than a jump or the beginning of a repeated block make the same step at both places. The same
bytes of a script of such instructions make runs that end alike, behind as many instructions and
as far behind their beginnings. A call of such a script that calls none itself, and that the
image supports, does what its instructions do in the place of the call, wherever they stand. -/
theorem straight_code_relocates {room : Nat} (hr : room ≤ engine.limits.maxDepth) :
    (∀ offset place instruction window (machine : Machine δ τ),
      Instruction.decode engine.image offset = .ok instruction →
      engine.image.slice offset instruction.size = .ok window →
      engine.image.slice place instruction.size = .ok window →
      instruction.opcode ≠ .jump → instruction.opcode ≠ .repeatBlock →
        let here := engine.step (engine.nesting room) offset machine
        let there := engine.step (engine.nesting room) place machine
        there.1 = here.1 ∧ there.2.scene = here.2.scene) ∧
    (∀ start start' body window (machine : Machine δ τ), start ≠ 0 → start' ≠ 0 →
      (∀ instruction ∈ body,
        instruction.opcode ≠ .jump ∧ instruction.opcode ≠ .repeatBlock) →
      let script := body ++ [.control .done]
      engine.image.Holds start script →
      engine.image.slice start (Instruction.extent script) = .ok window →
      engine.image.slice start' (Instruction.extent script) = .ok window →
        EndAlike start start' (engine.runAt (engine.nesting room) start machine)
            (engine.runAt (engine.nesting room) start' machine) ∧
          EndAlike start start' (engine.runScript start machine)
            (engine.runScript start' machine)) ∧
    (∀ offset target body (machine : Machine δ τ),
      (engine.nesting room).depth < engine.limits.maxDepth →
      Instruction.decode engine.image offset = .ok (.control (.subDirect target)) →
      target ≠ 0 → engine.image.Holds target.toNat (body ++ [.control .done]) →
      (∀ instruction ∈ body, engine.image.Flat instruction) →
      body.length + 1 ≤ engine.limits.maxOps →
      machine.state.execute = true → machine.state.repeating = false →
        let nesting := engine.nesting room
        let called := engine.step nesting offset machine
        called.1 = .ok (.advance 3) ∧
          ∀ place, engine.image.Holds place body →
            called.2.scene =
              (engine.pass nesting (Instruction.offsetsFrom place body) machine).scene) := by
  refine ⟨?_, ?_, ?_⟩
  · intro offset place instruction window machine hd hw hp hj hb here there
    have hplace := (Instruction.window_determines_decode engine.image engine.image offset place
      instruction).1 rfl hd window hw hp
    exact step_moved hr rfl hd hplace hj hb
  · intro start start' body window machine hs hs' hbody script hd hw hp
    have hplace := Image.holds_of_slice hd hw hp
    exact ⟨endAlike_runAt hr hs hs' hbody hd hplace rfl,
      endAlike_runAt (Nat.le_refl _) hs hs' hbody hd hplace rfl⟩
  · intro offset target body machine hdepth hd hz hbody hflat hops he hrep nesting called
    obtain ⟨room, rfl⟩ : ∃ inner, room = inner + 1 := by
      rw [depth_nesting] at hdepth
      exact Nat.exists_eq_succ_of_ne_zero (by omega)
    have hgoes : Opcode.subDirect ≠ .jump := by decide
    refine ⟨?_, fun place hplace => ?_⟩
    · rw [step_pace engine _ _ _ hd hgoes, Image.pace, if_neg]
      · rfl
      · rintro (hs | hdone | ⟨hend, -⟩)
        · refine hs fun hlegacy => ?_
          cases hlegacy
        · cases hdone
        · cases hend
    · rw [pass_takes hplace hflat]
      exact engine.step_subDirect_flat hd hz hbody hflat hops he hrep

/-- A write and a negation stand at two offsets; running either copy or calling the first one in
the place of the second one comes to the same. -/
theorem straight_code_relocates_of_copies :
    let engine : Engine SimulatedDevice Unit :=
      { image := .ofScript ⟨#[0, 0x7a, 0x10, 0, 0, 0, 0x01, 0, 0, 0, 0x38, 0x71, 0x7a, 0x10, 0, 0,
          0, 0x01, 0, 0, 0, 0x38, 0x71, 0x5b, 0x01, 0]⟩
        facade := SimulatedDevice.facade
        observer := .silent
        limits := { maxOps := 3, maxDepth := 1 } }
    let nesting := engine.nesting 1
    let machine : Machine SimulatedDevice Unit := .start .blank {} ()
    1 ≤ engine.limits.maxDepth ∧
      (engine.step nesting 12 machine).2.scene = (engine.step nesting 1 machine).2.scene ∧
      EndAlike 1 12 (engine.runScript 1 machine) (engine.runScript 12 machine) ∧
      (engine.step nesting 23 machine).2.scene = (engine.pass nesting [12, 21] machine).scene ∧
      (engine.step nesting 23 machine).2.bench.device.calls.toList = [.writeReg 0x10 1] := by
  intro engine nesting machine
  let body : List Instruction := [.register (.zmReg 0x10 1), .control .negate]
  have hroom : 1 ≤ engine.limits.maxDepth := by decide
  obtain ⟨hsteps, hruns, hcalls⟩ := straight_code_relocates engine hroom
  have hd : Instruction.decode engine.image 1 = .ok (.register (.zmReg 0x10 1)) := rfl
  have hscript : engine.image.Holds 1 (body ++ [.control .done]) := ⟨rfl, rfl, rfl, trivial⟩
  have hcopy : engine.image.Holds 12 body := ⟨rfl, rfl, trivial⟩
  have hflat : ∀ instruction ∈ body, engine.image.Flat instruction :=
    List.forall_mem_cons.mpr ⟨⟨nofun, nofun, rfl, nofun⟩,
      List.forall_mem_singleton.mpr ⟨nofun, nofun, rfl, nofun⟩⟩
  have hbody : ∀ instruction ∈ body,
      instruction.opcode ≠ .jump ∧ instruction.opcode ≠ .repeatBlock :=
    List.forall_mem_cons.mpr ⟨⟨nofun, nofun⟩, List.forall_mem_singleton.mpr ⟨nofun, nofun⟩⟩
  have hstep := hsteps 1 12 (.register (.zmReg 0x10 1)) [0x7a, 0x10, 0, 0, 0, 0x01, 0, 0, 0]
    machine hd rfl rfl nofun nofun
  have hrun := hruns 1 12 body [0x7a, 0x10, 0, 0, 0, 0x01, 0, 0, 0, 0x38, 0x71] machine nofun
    nofun hbody hscript rfl rfl
  have hcall := hcalls 23 1 body machine (by decide) rfl (by decide) hscript hflat (by decide)
    rfl rfl
  refine ⟨hroom, hstep.2, hrun.2, hcall.2 12 hcopy, ?_⟩
  decide +kernel

end Engine

end RomScript
