import Mathlib.Data.List.Basic
import RomScript.Proofs.Effect.Failure
import RomScript.Proofs.Effect.Requests
import RomScript.Proofs.Engine.Action

/-!
# Bringing up the memory

The memory of a legacy board is brought up from two lists: the registers of a sequence, and the
data words behind the entry that the straps select. A strobe of the sequence is set to one and
takes no word; any other register takes the next word, also if the word is the mark that says to
leave the register as it is. The writes end at the first register whose word is not in the image.
-/

set_option autoImplicit false

namespace RomScript

namespace Image

/-- These are the registers of the table at a place: the words before the first mark, or `most`
of them if there is none among those. -/
structure Sequence (image : Image) (most base : Nat) (regs : List UInt32) : Prop where
  word : ∀ position reg, regs[position]? = some reg →
    image.dword (base + 4 * position) = .ok reg ∧ reg ≠ 0xffffffff
  ends : regs.length = most ∨
    regs.length < most ∧ image.dword (base + 4 * regs.length) = .ok 0xffffffff

section Pairing

variable (image : Image) (data : Nat) (regs : List UInt32)

/-- The number for a register: one for a strobe, or the data word behind those for the registers
before it. -/
def number? (position : Nat) : Option UInt32 :=
  match regs[position]? with
  | none => none
  | some reg =>
    if reg ∈ BoardOp.strobes then some 1
    else
      let words := (regs.take position).countP (· ∉ BoardOp.strobes)
      (image.dword (data + 4 * words)).toOption

/-- The write to a register, unless its word is the mark. -/
def write? (position : Nat) : Option Request :=
  match regs[position]?, image.number? data regs position with
  | some reg, some value => if value = 0xffffffff then none else some (.writeReg reg value)
  | _, _ => none

/-- The writes to the registers before the first one without a number, in their order. -/
def Paired (requests : List Request) : Prop :=
  ∃ stop, image.number? data regs stop = none ∧
    (∀ position < stop, (image.number? data regs position).isSome = true) ∧
    requests = (List.range stop).filterMap (image.write? data regs)

/-- The writes for the sequence of a table. There are none if the table is missing or leaves the
image before its sequence ends. -/
def WritesSequence (id : TableId) (requests : List Request) : Prop :=
  match image.directory.get? id with
  | none => requests = []
  | some base =>
    (∀ regs, image.Sequence 256 base.toNat regs → image.Paired data regs requests) ∧
      ((¬∃ regs, image.Sequence 256 base.toNat regs) → requests = [])

end Pairing

section Requests

variable {δ : Type} (image : Image) (facade : Facade δ) (device : δ) (asked : List Request)

/-- Behind the look-up of the entry and the change of the sequencer's mode come the writes of the
sequence that the entry's flags select. Without an entry there are none, and the mode stays as it
is. -/
def BringsUpMemory : Prop :=
  let lookup : Request := .readIndexed 0x3d4 0x3c
  let straps := facade.answer (.readIndexed 0x3d4 0x3c) device
  let mode := (facade.answer (.readIndexed 0x3c4 1) straps.2).1
  match image.directory.get? .memInit with
  | none => asked = [lookup]
  | some table =>
    let entry := table.toNat + straps.1.toNat / 16 * 66
    if entry + 6 ≤ image.length then
      ∃ flags writes, image.byte entry = .ok flags ∧
        image.WritesSequence (entry + 6) (if flags &&& 1 = 0 then .sdrSequence else .ddrSequence)
          writes ∧
        asked = lookup :: .readIndexed 0x3c4 1 :: .writeIndexed 0x3c4 1 (mode ||| 0x20) :: writes
    else asked = [lookup]

end Requests

/-! ## The registers of a sequence -/

variable (image : Image)

theorem sequence_zero_iff (base : Nat) (regs : List UInt32) :
    image.Sequence 0 base regs ↔ regs = [] := by
  constructor
  · intro h
    rcases h.ends with hlength | ⟨hlength, -⟩
    · exact List.eq_nil_of_length_eq_zero hlength
    · omega
  · rintro rfl
    exact ⟨fun position reg h => (nomatch h), .inl rfl⟩

theorem sequence_nil_iff (most base : Nat) :
    image.Sequence (most + 1) base [] ↔ image.dword base = .ok 0xffffffff := by
  constructor
  · intro h
    rcases h.ends with hlength | ⟨-, hend⟩
    · cases hlength
    · exact hend
  · intro h
    exact ⟨fun position reg h => (nomatch h), .inr ⟨Nat.zero_lt_succ most, h⟩⟩

theorem sequence_cons_iff (most base : Nat) (reg : UInt32) (rest : List UInt32) :
    image.Sequence (most + 1) base (reg :: rest) ↔
      image.dword base = .ok reg ∧ reg ≠ 0xffffffff ∧ image.Sequence most (base + 4) rest := by
  have hplace (position : Nat) : base + 4 * (position + 1) = base + 4 + 4 * position := by omega
  constructor
  · intro h
    obtain ⟨hreg, hne⟩ := h.word 0 reg rfl
    refine ⟨hreg, hne, fun position other hother => ?_, ?_⟩
    · rw [← hplace]
      exact h.word (position + 1) other hother
    · rw [← hplace]
      rcases h.ends with hlength | ⟨hlength, hend⟩
      · exact .inl (Nat.succ.inj hlength)
      · exact .inr ⟨Nat.lt_of_succ_lt_succ hlength, hend⟩
  · rintro ⟨hreg, hne, hrest⟩
    refine ⟨fun position other hother => ?_, ?_⟩
    · cases position with
      | zero =>
        obtain rfl := Option.some.inj hother
        exact ⟨hreg, hne⟩
      | succ position =>
        rw [hplace]
        exact hrest.word position other hother
    · rw [List.length_cons, hplace]
      rcases hrest.ends with hlength | ⟨hlength, hend⟩
      · exact .inl (congrArg Nat.succ hlength)
      · exact .inr ⟨Nat.succ_lt_succ hlength, hend⟩

theorem registersFrom_eq_ok_iff (most base : Nat) (regs : List UInt32) :
    image.registersFrom most base = .ok regs ↔ image.Sequence most base regs := by
  induction most generalizing base regs with
  | zero =>
    rw [sequence_zero_iff, registersFrom, Except.ok.injEq]
    exact eq_comm
  | succ most ih =>
    have hstep (reg : UInt32) :
        (if reg = sequenceEnd then pure [] else do
            let rest ← image.registersFrom most (base + 4)
            return reg :: rest : Except ImageError (List UInt32)) = .ok regs ↔
          reg = 0xffffffff ∧ regs = [] ∨
            reg ≠ 0xffffffff ∧
              ∃ rest, image.Sequence most (base + 4) rest ∧ reg :: rest = regs := by
      by_cases hend : reg = 0xffffffff
      · rw [if_pos (show reg = sequenceEnd from hend)]
        simp only [hend, pure_eq_ok_iff, true_and, ne_eq, not_true_eq_false, false_and, or_false]
        exact eq_comm
      · rw [if_neg (show ¬reg = sequenceEnd from hend)]
        simp only [hend, bind_eq_ok_iff, pure_eq_ok_iff, ih, ne_eq, not_false_eq_true, false_and,
          true_and, false_or]
    rw [registersFrom, bind_eq_ok_iff]
    simp only [hstep]
    cases regs with
    | nil => simp [sequence_nil_iff]
    | cons reg rest => simp [sequence_cons_iff]

/-! ## The words of a sequence -/

theorem number?_succ (data position : Nat) (reg : UInt32) (rest : List UInt32) :
    image.number? data (reg :: rest) (position + 1) =
      image.number? (if reg ∈ BoardOp.strobes then data else data + 4) rest position := by
  unfold number?
  rw [List.getElem?_cons_succ, List.take_succ_cons, List.countP_cons]
  cases rest[position]? with
  | none => rfl
  | some other =>
    have hplace (words : Nat) : data + 4 * (words + 1) = data + 4 + 4 * words := by omega
    by_cases hstrobe : reg ∈ BoardOp.strobes
    · simp [hstrobe]
    · simp [hstrobe, hplace]

theorem write?_succ (data position : Nat) (reg : UInt32) (rest : List UInt32) :
    image.write? data (reg :: rest) (position + 1) =
      image.write? (if reg ∈ BoardOp.strobes then data else data + 4) rest position := by
  rw [write?, write?, number?_succ, List.getElem?_cons_succ]

variable {image}

theorem paired_cons {data : Nat} {reg value : UInt32} {rest : List UInt32}
    {requests : List Request} (hnumber : image.number? data (reg :: rest) 0 = some value)
    (hrest : image.Paired (if reg ∈ BoardOp.strobes then data else data + 4) rest requests) :
    image.Paired data (reg :: rest)
      ((if value = 0xffffffff then [] else [.writeReg reg value]) ++ requests) := by
  obtain ⟨stop, hstop, hbefore, rfl⟩ := hrest
  refine ⟨stop + 1, ?_, fun position hlt => ?_, ?_⟩
  · rw [number?_succ, hstop]
  · cases position with
    | zero => rw [hnumber]; rfl
    | succ position =>
      rw [number?_succ]
      exact hbefore position (Nat.lt_of_succ_lt_succ hlt)
  · have hfirst : image.write? data (reg :: rest) 0 =
        if value = 0xffffffff then none else some (.writeReg reg value) := by
      simp [write?, hnumber]
    have hmore : image.write? data (reg :: rest) ∘ Nat.succ =
        image.write? (if reg ∈ BoardOp.strobes then data else data + 4) rest :=
      funext fun position => image.write?_succ data position reg rest
    rw [List.range_succ_eq_map, List.filterMap_cons, List.filterMap_map, hmore, hfirst]
    by_cases hmark : value = 0xffffffff
    · rw [if_pos hmark, if_pos hmark]
      rfl
    · rw [if_neg hmark, if_neg hmark]
      rfl

theorem paired_of_none {data : Nat} {regs : List UInt32} (h : image.number? data regs 0 = none) :
    image.Paired data regs [] :=
  ⟨0, h, fun _ hlt => (nomatch hlt), rfl⟩

end Image

/-! ## Requests -/

section Requests

variable {δ : Type} (facade : Facade δ) (image : Image)

theorem paired_writeSequence (regs : List UInt32) (data : Nat) (bench : Bench δ) :
    image.Paired data regs ((BoardOp.writeSequence image regs data).requests facade bench) := by
  -- On the registers; the place of the next data word moves on with those that take one.
  induction regs generalizing data bench with
  | nil => exact Image.paired_of_none rfl
  | cons reg rest ih =>
    unfold BoardOp.writeSequence
    by_cases hstrobe : reg ∈ BoardOp.strobes
    · have hnumber : image.number? data (reg :: rest) 0 = some 1 := by
        simp [Image.number?, hstrobe]
      have hrest := ih data ⟨(facade.answer (.writeReg reg 1) bench.device).2, bench.column⟩
      rw [if_pos (BoardOp.isStrobe_iff_mem.mpr hstrobe)]
      exact Image.paired_cons hnumber (by rwa [if_pos hstrobe])
    · rw [if_neg (mt BoardOp.isStrobe_iff_mem.mp hstrobe)]
      cases hd : image.dword data with
      | error cause =>
        have hnumber : image.number? data (reg :: rest) 0 = none := by
          simp [Image.number?, hstrobe, hd, Except.toOption]
        exact Image.paired_of_none hnumber
      | ok value =>
        have hnumber : image.number? data (reg :: rest) 0 = some value := by
          simp [Image.number?, hstrobe, hd, Except.toOption]
        show image.Paired data (reg :: rest)
          ((if value = 0xffffffff then BoardOp.writeSequence image rest (data + 4)
            else Effect.writeReg reg value >>= fun _ =>
              BoardOp.writeSequence image rest (data + 4)).requests facade bench)
        have hpaired (after : Bench δ) := Image.paired_cons hnumber
          (by rw [if_neg hstrobe]; exact ih (data + 4) after)
        by_cases hmark : value = 0xffffffff
        · simp only [if_pos hmark] at hpaired ⊢
          exact hpaired bench
        · simp only [if_neg hmark] at hpaired ⊢
          exact hpaired ⟨(facade.answer (.writeReg reg value) bench.device).2, bench.column⟩

theorem writesSequence (entry : MemInitEntry) (bench : Bench δ) :
    image.WritesSequence (entry.offset + 6)
      (if entry.flags &&& 1 = 0 then .sdrSequence else .ddrSequence)
      ((Effect.ofImage (image.sequenceRegisters entry.isDdr) >>= fun regs =>
        BoardOp.writeSequence image regs entry.dataOffset).requests facade bench) := by
  have hkind : (if entry.isDdr then TableId.ddrSequence else .sdrSequence) =
      if entry.flags &&& 1 = 0 then .sdrSequence else .ddrSequence := by
    by_cases hzero : entry.flags &&& 1 = 0
    · simp [MemInitEntry.isDdr, hzero]
    · simp [MemInitEntry.isDdr, hzero]
  rw [Effect.ofImage, Effect.requests_ofExcept_bind, Image.WritesSequence]
  generalize (if entry.flags &&& 1 = 0 then TableId.sdrSequence else .ddrSequence) = id at hkind ⊢
  cases ht : image.directory.get? id with
  | none =>
    have hregs : image.sequenceRegisters entry.isDdr = .error (.missingTable id) := by
      rw [Image.sequenceRegisters, hkind, Image.table, ht]
      rfl
    rw [hregs]
  | some base =>
    have hsequence : image.sequenceRegisters entry.isDdr = image.registersFrom 256 base.toNat := by
      rw [Image.sequenceRegisters, hkind, Image.table, ht]
      rfl
    have hregs := image.registersFrom_eq_ok_iff 256 base.toNat
    rw [hsequence]
    cases hread : image.registersFrom 256 base.toNat with
    | error cause =>
      have hnone (regs : List UInt32) : ¬image.Sequence 256 base.toNat regs := by
        rw [← hregs, hread]
        intro h
        cases h
      exact ⟨fun regs h => absurd h (hnone regs), fun _ => rfl⟩
    | ok regs =>
      refine ⟨fun other h => ?_, fun h => absurd ⟨regs, (hregs regs).mp hread⟩ h⟩
      obtain rfl := Except.ok.inj (hread.symm.trans ((hregs other).mpr h))
      exact paired_writeSequence facade image regs entry.dataOffset bench

theorem bringsUpMemory (bench : Bench δ) :
    image.BringsUpMemory facade bench.device
      ((BoardOp.configureMem.run image).requests facade bench) := by
  let straps := facade.answer (.readIndexed 0x3d4 0x3c) bench.device
  let bringUp (entry : MemInitEntry) : Effect Unit := do
    let mode ← Effect.readIndexed sequencerPort 1
    Effect.writeIndexed sequencerPort 1 (mode ||| 0x20)
    let regs ← Effect.ofImage (image.sequenceRegisters entry.isDdr)
    BoardOp.writeSequence image regs entry.dataOffset
  have hsplit : (BoardOp.configureMem.run image).requests facade bench =
      .readIndexed 0x3d4 0x3c ::
        (Effect.ofImage (image.memInitEntry (straps.1 >>> 4)) >>= bringUp).requests facade
          ⟨straps.2, bench.column⟩ := rfl
  have hindex : (straps.1 >>> 4).toNat = straps.1.toNat / 16 := by
    rw [UInt8.toNat_shiftRight, Nat.shiftRight_eq_div_pow]
    rfl
  have hexists := image.exists_memInitEntry_iff (straps.1 >>> 4)
  rw [hsplit, Effect.ofImage, Effect.requests_ofExcept_bind, Image.BringsUpMemory]
  cases he : image.memInitEntry (straps.1 >>> 4) with
  | error cause =>
    cases ht : image.directory.get? .memInit with
    | none => rfl
    | some table =>
      have hout : ¬table.toNat + straps.1.toNat / 16 * 66 + 6 ≤ image.length := by
        rw [he, ht, hindex] at hexists
        simpa using hexists
      exact (if_neg hout).mpr rfl
  | ok entry =>
    obtain ⟨table, ht, hoffset, hflags⟩ := image.of_memInitEntry he
    rw [hindex] at hoffset
    have hin : entry.offset + 6 ≤ image.length := by
      obtain ⟨other, hother, hle⟩ := hexists.mp ⟨entry, he⟩
      obtain rfl := Option.some.inj (hother.symm.trans ht)
      rwa [hindex, ← hoffset] at hle
    rw [ht]
    show if table.toNat + straps.1.toNat / 16 * 66 + 6 ≤ image.length then _ else _
    rw [← hoffset, if_pos hin]
    exact ⟨entry.flags, _, hflags, writesSequence facade image entry _, rfl⟩

end Requests

/-! ## Steps -/

namespace Engine

variable {δ τ : Type}

/-- The step that brings up the memory of a legacy board asks the device for the entry and the
mode, and then writes the registers of the sequence with the data words that belong to them. -/
theorem memory_sequence_paired (engine : Engine δ τ) (nesting : Nesting δ τ) (offset : Nat)
    (machine : Machine δ τ) (hbyte : engine.image.byte offset = .ok 0x66)
    (hlegacy : engine.image.isLegacy = true) (he : machine.state.execute = true) :
    let effect := (Instruction.board .configureMem).effect engine.image machine.state.output
    let asked := effect.requests engine.facade machine.bench
    let ended := engine.step nesting offset machine
    ended.2.bench = (effect.run engine.facade machine.bench).2 ∧
      ended.2.bench.device = engine.facade.issue asked machine.bench.device ∧
      engine.image.BringsUpMemory engine.facade machine.bench.device asked := by
  intro effect asked ended
  have hd : Instruction.decode engine.image offset = .ok (.board .configureMem) :=
    (Instruction.decode_eq_ok_iff _ _ _).mpr
      ⟨.configureMem, Image.opcodeAt?_of_byte hbyte, rfl⟩
  have hruns : engine.Runs (.board .configureMem) machine.scene := ⟨fun _ => hlegacy, .inl he⟩
  have hbench : ended.2.bench = (effect.run engine.facade machine.bench).2 :=
    engine.step_bench nesting offset machine hd rfl hruns
  refine ⟨hbench, ?_, bringsUpMemory engine.facade engine.image machine.bench⟩
  rw [hbench]
  exact effect.device_run engine.facade machine.bench

/-- Three strobes take no words, one word is the mark, and the walk ends at the seventh register, as
the image does. -/
theorem memory_sequence_paired_of_short_data :
    let engine : Engine SimulatedDevice Unit :=
      { image := .withDirectory
          ⟨#[0x66, 0x00, 0x02, 0x10, 0, 0x1c, 0x02, 0x10, 0, 0x04, 0x02, 0x10, 0, 0xd0, 0x02, 0x10,
              0, 0x08, 0x02, 0x10, 0, 0xd4, 0x02, 0x10, 0, 0x0c, 0x02, 0x10, 0, 0x1c, 0x02, 0x10,
              0, 0xff, 0xff, 0xff, 0xff] ++
            Array.replicate 30 0 ++
            #[0, 0, 100, 0, 200, 0, 0xaa, 0xaa, 0, 0, 0xff, 0xff, 0xff, 0xff, 0xbb, 0xbb, 0, 0]⟩
          (.ofList [(.memInit, 1), (.sdrSequence, 1)] 0 true)
        facade := SimulatedDevice.facade
        observer := .silent
        limits := {} }
    let device := SimulatedDevice.blank.withIndexed 0x3d4 0x3c 0x10
    let machine : Machine SimulatedDevice Unit := .start device {} ()
    let asked : List Request :=
      [.readIndexed 0x3d4 0x3c, .readIndexed 0x3c4 1, .writeIndexed 0x3c4 1 0x20,
        .writeReg 0x100200 0xaaaa, .writeReg 0x10021c 1, .writeReg 0x1002d0 1,
        .writeReg 0x100208 0xbbbb, .writeReg 0x1002d4 1]
    engine.image.byte 0 = .ok 0x66 ∧ engine.image.isLegacy = true ∧
      machine.state.execute = true ∧ engine.image.BringsUpMemory engine.facade device asked ∧
      (engine.step engine.outermost 0 machine).2.bench.device =
        engine.facade.issue asked device := by
  intro engine device machine asked
  have hbyte : engine.image.byte 0 = .ok 0x66 := eq_ok_of_toOption (by decide +kernel)
  have hlegacy : engine.image.isLegacy = true := rfl
  obtain ⟨-, hdevice, hbrings⟩ :=
    memory_sequence_paired engine engine.outermost 0 machine hbyte hlegacy rfl
  have hasked : ((Instruction.board .configureMem).effect engine.image
      machine.state.output).requests engine.facade machine.bench = asked := by decide +kernel
  rw [hasked] at hdevice hbrings
  exact ⟨hbyte, hlegacy, rfl, hbrings, hdevice⟩

end Engine

end RomScript
