import RomScript.Instruction.Decode
import RomScript.Proofs.Image.Reads

/-!
# The extent of an instruction

The table of opcodes gives the size of an instruction, the decoder reads its operands at
distances of its own, and the decoded instruction has a size computed from its operands.
The three agree: an instruction can be decoded exactly when it is of a known opcode, its
count can be read, and it ends inside the image; it then has the size that was foreseen.
-/

set_option autoImplicit false

namespace RomScript

def Image.opcodeAt? (image : Image) (offset : Nat) : Option Opcode :=
  match image.byte offset with
  | .ok id => Opcode.ofByte? id
  | .error _ => none

/-- Elements side by side are all inside the image when the last one is. -/
theorem forall_element_iff {stride base length count : Nat} :
    (∀ i ∈ List.range count, base + i * stride + stride ≤ length) ↔
      count = 0 ∨ base + count * stride ≤ length := by
  simp only [List.mem_range]
  constructor
  · intro hi
    cases count with
    | zero => exact .inl rfl
    | succ count =>
      have := hi count (by omega)
      rw [Nat.succ_mul]
      omega
  · rintro (rfl | hc) i hi
    · omega
    · have : (i + 1) * stride ≤ count * stride := Nat.mul_le_mul_right stride hi
      rw [Nat.succ_mul] at this
      omega

namespace OperandReader

variable (op : OperandReader) (distance count : Nat)

@[simp] theorem exists_byte_iff :
    (∃ b, op.byte distance = .ok b) ↔ op.base + distance < op.image.length :=
  Rom.exists_byte_iff op.image.rom _

@[simp] theorem exists_word_iff :
    (∃ w, op.word distance = .ok w) ↔ op.base + distance + 2 ≤ op.image.length :=
  Rom.exists_word_iff op.image.rom _

@[simp] theorem exists_dword_iff :
    (∃ d, op.dword distance = .ok d) ↔ op.base + distance + 4 ≤ op.image.length :=
  Rom.exists_dword_iff op.image.rom _

@[simp] theorem exists_bytes_iff :
    (∃ bytes, op.bytes distance count = .ok bytes) ↔
      op.base + distance + count ≤ op.image.length :=
  Rom.exists_slice_iff op.image.rom _ _

@[simp] theorem exists_words_iff :
    (∃ words, op.words distance count = .ok words) ↔
      count = 0 ∨ op.base + distance + count * 2 ≤ op.image.length := by
  rw [words, exists_mapM_eq_ok_iff, ← forall_element_iff]
  simp only [exists_word_iff, Nat.add_assoc]

@[simp] theorem exists_dwords_iff :
    (∃ dwords, op.dwords distance count = .ok dwords) ↔
      count = 0 ∨ op.base + distance + count * 4 ≤ op.image.length := by
  rw [dwords, exists_mapM_eq_ok_iff, ← forall_element_iff]
  simp only [exists_dword_iff, Nat.add_assoc]

@[simp] theorem exists_pairs_iff :
    (∃ pairs, op.pairs distance count = .ok pairs) ↔
      count = 0 ∨ op.base + distance + count * 2 ≤ op.image.length := by
  rw [pairs, exists_mapM_eq_ok_iff, ← forall_element_iff]
  apply forall₂_congr
  intro i _
  simp
  omega

@[simp] theorem exists_maskedBytes_iff :
    (∃ masked, op.maskedBytes distance count = .ok masked) ↔
      count = 0 ∨ op.base + distance + count * 2 ≤ op.image.length := by
  rw [maskedBytes, exists_mapM_eq_ok_iff, ← forall_element_iff]
  apply forall₂_congr
  intro i _
  simp
  omega

@[simp] theorem exists_maskedWrites_iff :
    (∃ writes, op.maskedWrites distance count = .ok writes) ↔
      count = 0 ∨ op.base + distance + count * 3 ≤ op.image.length := by
  rw [maskedWrites, exists_mapM_eq_ok_iff, ← forall_element_iff]
  apply forall₂_congr
  intro i _
  simp
  omega

@[simp] theorem exists_portField_iff :
    (∃ field, op.portField = .ok field) ↔ op.base + 5 < op.image.length := by
  simp [portField]
  omega

@[simp] theorem exists_busAddress_iff :
    (∃ target, op.busAddress = .ok target) ↔ op.base + 2 < op.image.length := by
  simp [busAddress]
  omega

theorem lt_length_of_count {n : Nat} (h : op.count distance = .ok n) :
    op.base + distance < op.image.length := by
  obtain ⟨b, hb, -⟩ := map_eq_ok_iff.mp h
  exact (op.exists_byte_iff distance).mp ⟨b, hb⟩

/-- Whether a tail and the operands `A` before it fit is known once its count is. -/
theorem exists_tail_iff {A : Prop} {P Q : Nat → Prop}
    (h : op.base + distance < op.image.length → ∀ n, A ∧ P n ↔ Q n) :
    (A ∧ ∃ n, op.count distance = .ok n ∧ P n) ↔ ∃ n, op.count distance = .ok n ∧ Q n := by
  constructor
  · rintro ⟨ha, n, hn, hp⟩
    exact ⟨n, hn, (h (op.lt_length_of_count distance hn) n).mp ⟨ha, hp⟩⟩
  · rintro ⟨n, hn, hq⟩
    obtain ⟨ha, hp⟩ := (h (op.lt_length_of_count distance hn) n).mpr hq
    exact ⟨ha, n, hn, hp⟩

end OperandReader

namespace Opcode

theorem exists_encodedLength_iff (opcode : Opcode) (image : Image) (offset : Nat)
    (P : Nat → Prop) :
    (∃ length, opcode.encodedLength image offset = .ok length ∧ P length) ↔
      match opcode.tail with
      | none => P opcode.fixedSize
      | some tail => ∃ count, tailCount image offset tail.count = .ok count ∧
          P (opcode.fixedSize + count * tail.elementSize) := by
  unfold encodedLength
  cases opcode.tail with
  | none => simp
  | some tail =>
    simp only [map_eq_ok_iff]
    constructor
    · rintro ⟨_, ⟨count, hc, rfl⟩, h⟩
      exact ⟨count, hc, h⟩
    · rintro ⟨count, hc, h⟩
      exact ⟨_, ⟨count, hc, rfl⟩, h⟩

end Opcode

namespace OperandReader

theorem exists_instruction_iff (op : OperandReader) (opcode : Opcode)
    (h : op.base < op.image.length) :
    (∃ instruction, op.instruction opcode = .ok instruction) ↔
      ∃ length, opcode.encodedLength op.image op.base = .ok length ∧
        op.base + length ≤ op.image.length := by
  rw [Opcode.exists_encodedLength_iff]
  cases opcode
  case reserved which => cases which <;> exact iff_of_true ⟨_, rfl⟩ h
  all_goals
    simp only [instruction, exists_bind_eq_ok_iff, pure_eq_ok_iff, exists_eq', exists_and_right,
      and_true, true_iff, exists_byte_iff, exists_word_iff, exists_dword_iff, exists_bytes_iff,
      exists_words_iff, exists_dwords_iff, exists_pairs_iff, exists_maskedBytes_iff,
      exists_maskedWrites_iff, exists_portField_iff, exists_busAddress_iff, Opcode.tail,
      Opcode.fixedSize, Opcode.row, Opcode.plain, Opcode.counted]
  any_goals omega
  case i2cByte =>
    apply exists_congr
    intro n
    apply and_congr_right
    intro hn
    have := op.lt_length_of_count 3 hn
    omega
  case zmCrGroup | gpioNe =>
    apply exists_congr
    intro n
    apply and_congr_right
    intro hn
    have := op.lt_length_of_count 1 hn
    omega
  case ramRestrictPll =>
    simp only [Opcode.tailCount, Except.ok.injEq, exists_eq_left']
    omega
  case ramRestrictZmRegGroup =>
    simp only [Opcode.tailCount, map_eq_ok_iff]
    constructor
    · rintro ⟨b, hb, h⟩
      have := (op.exists_byte_iff 6).mp ⟨b, hb⟩
      exact ⟨_, ⟨b, hb, rfl⟩, by omega⟩
    · rintro ⟨_, ⟨b, hb, rfl⟩, h⟩
      exact ⟨b, hb, by omega⟩
  all_goals try simp only [← and_assoc]
  all_goals exact op.exists_tail_iff _ fun _ n => by omega

section Lists

variable {op : OperandReader} {distance count : Nat}

theorem length_bytes {bytes : List UInt8} (h : op.bytes distance count = .ok bytes) :
    bytes.length = count := Rom.length_slice h

theorem length_words {words : List UInt16} (h : op.words distance count = .ok words) :
    words.length = count := (length_of_mapM h).trans List.length_range

theorem length_dwords {dwords : List UInt32} (h : op.dwords distance count = .ok dwords) :
    dwords.length = count := (length_of_mapM h).trans List.length_range

theorem length_pairs {pairs : List BytePair} (h : op.pairs distance count = .ok pairs) :
    pairs.length = count := (length_of_mapM h).trans List.length_range

theorem length_maskedBytes {masked : List MaskedByte}
    (h : op.maskedBytes distance count = .ok masked) : masked.length = count :=
  (length_of_mapM h).trans List.length_range

theorem length_maskedWrites {writes : List MaskedWrite}
    (h : op.maskedWrites distance count = .ok writes) : writes.length = count :=
  (length_of_mapM h).trans List.length_range

theorem encodedLength_of_count {opcode : Opcode} {n elementSize tailSize : Nat}
    (ht : opcode.tail = some { count := .operand distance, elementSize })
    (hn : op.count distance = .ok n) (hs : tailSize = n * elementSize) :
    opcode.encodedLength op.image op.base = .ok (opcode.fixedSize + tailSize) := by
  have hc : Opcode.tailCount op.image op.base (.operand distance) = .ok n := hn
  simp only [Opcode.encodedLength, ht, hc, Except.map, hs]

end Lists

theorem opcode_size_of_instruction (op : OperandReader) (opcode : Opcode) :
    ∀ instruction, op.instruction opcode = .ok instruction →
      instruction.opcode = opcode ∧
        opcode.encodedLength op.image op.base = .ok instruction.size := by
  cases opcode
  all_goals simp only [instruction, forall_bind_eq_ok_iff, pure_eq_ok_iff, forall_eq']
  case ioRestrictPll =>
    intro _ _ _ _ _ _ n hn values hv
    exact ⟨rfl, encodedLength_of_count rfl hn (congrArg (· * 2) (length_words hv))⟩
  case ioRestrictProg | ioRestrictPll2 =>
    intro _ _ _ _ n hn values hv
    exact ⟨rfl, encodedLength_of_count rfl hn (congrArg (· * 4) (length_dwords hv))⟩
  case zmRegSequence | zmRegGroup =>
    intro _ _ n hn values hv
    exact ⟨rfl, encodedLength_of_count rfl hn (congrArg (· * 4) (length_dwords hv))⟩
  case indexAddressLatched =>
    intro _ _ _ _ _ _ _ _ n hn pairs hp
    exact ⟨rfl, encodedLength_of_count rfl hn (congrArg (· * 2) (length_pairs hp))⟩
  case zmI2cByte | zmTmdsGroup =>
    intro _ _ n hn pairs hp
    exact ⟨rfl, encodedLength_of_count rfl hn (congrArg (· * 2) (length_pairs hp))⟩
  case zmCrGroup =>
    intro n hn pairs hp
    exact ⟨rfl, encodedLength_of_count rfl hn (congrArg (· * 2) (length_pairs hp))⟩
  case i2cByte =>
    intro n hn writes hw _ _
    exact ⟨rfl, encodedLength_of_count rfl hn (congrArg (· * 3) (length_maskedWrites hw))⟩
  case auxch =>
    intro _ _ n hn masked hm
    exact ⟨rfl, encodedLength_of_count rfl hn (congrArg (· * 2) (length_maskedBytes hm))⟩
  case zmI2c | zmAuxch =>
    intro _ _ n hn bytes hb
    exact ⟨rfl, encodedLength_of_count rfl hn ((length_bytes hb).trans (Nat.mul_one n).symm)⟩
  case crIndexAddressLatched =>
    intro _ _ _ _ _ _ n hn bytes hb
    exact ⟨rfl, encodedLength_of_count rfl hn ((length_bytes hb).trans (Nat.mul_one n).symm)⟩
  case gpioNe =>
    intro n hn bytes hb
    exact ⟨rfl, encodedLength_of_count rfl hn ((length_bytes hb).trans (Nat.mul_one n).symm)⟩
  case ramRestrictPll =>
    intro _ _ values hv
    refine ⟨rfl, ?_⟩
    show Except.ok (2 + op.image.ramGroups * 4) = Except.ok (2 + values.length * 4)
    rw [length_dwords hv]
  case ramRestrictZmRegGroup =>
    intro b hb _ _ _ _ values hv
    have hc : Opcode.tailCount op.image op.base (.operandTimesGroups 6) =
        .ok (b.toNat * op.image.ramGroups) := map_eq_ok_iff.mpr ⟨b, hb, rfl⟩
    refine ⟨rfl, ?_⟩
    show (Opcode.tailCount op.image op.base (.operandTimesGroups 6)).map _ =
      Except.ok (7 + values.length * 4)
    rw [hc, length_dwords hv]
    rfl
  case reserved which =>
    cases which <;> exact ⟨rfl, rfl⟩
  -- all others have no tail
  all_goals
    intros
    exact ⟨rfl, rfl⟩

end OperandReader

namespace Image

theorem opcodeAt?_eq_some_iff (image : Image) (offset : Nat) (opcode : Opcode) :
    image.opcodeAt? offset = some opcode ↔ image.byte offset = .ok opcode.id := by
  unfold opcodeAt?
  constructor
  · intro h
    split at h
    · rename_i id hb
      rw [hb, Opcode.id_of_ofByte? h]
    · cases h
  · intro h
    rw [h]
    exact Opcode.ofByte?_id opcode

theorem opcodeAt?_of_le {image : Image} {offset : Nat} (h : image.length ≤ offset) :
    image.opcodeAt? offset = none := by
  have hb : image.byte offset = .error _ := Rom.byte_of_le image.rom h
  rw [opcodeAt?, hb]

theorem lt_length_of_opcodeAt? {image : Image} {offset : Nat} {opcode : Opcode}
    (h : image.opcodeAt? offset = some opcode) : offset < image.length :=
  lt_length_of_byte ((image.opcodeAt?_eq_some_iff offset opcode).mp h)

theorem opcodeAt?_of_byte {image : Image} {offset : Nat} {id : UInt8}
    (hb : image.byte offset = .ok id) : image.opcodeAt? offset = Opcode.ofByte? id := by
  rw [opcodeAt?, hb]

end Image

namespace Instruction

theorem decode_eq_ok_iff (image : Image) (offset : Nat) (instruction : Instruction) :
    decode image offset = .ok instruction ↔ ∃ opcode, image.opcodeAt? offset = some opcode ∧
      ({ image, base := offset } : OperandReader).instruction opcode = .ok instruction := by
  unfold decode Image.opcodeAt?
  cases image.byte offset with
  | error cause => simp
  | ok id =>
    cases ho : Opcode.ofByte? id with
    | none => simp [ho]
    | some opcode =>
      cases hi : ({ image, base := offset } : OperandReader).instruction opcode <;>
        simp [ho, hi]

theorem decode_opcode {image : Image} {offset : Nat} {instruction : Instruction}
    (h : decode image offset = .ok instruction) :
    image.opcodeAt? offset = some instruction.opcode ∧
      instruction.opcode.encodedLength image offset = .ok instruction.size := by
  obtain ⟨opcode, ho, hi⟩ := (decode_eq_ok_iff image offset instruction).mp h
  obtain ⟨rfl, hs⟩ := OperandReader.opcode_size_of_instruction _ opcode instruction hi
  exact ⟨ho, hs⟩

/-- Decoding succeeds exactly where the table of opcodes foresees an instruction that ends
inside the image, and the decoded instruction is of the foreseen opcode and size. -/
theorem decode_iff_extent (image : Image) (offset : Nat) :
    ((∃ instruction, decode image offset = .ok instruction) ↔
      ∃ opcode length, image.opcodeAt? offset = some opcode ∧
        opcode.encodedLength image offset = .ok length ∧ offset + length ≤ image.length) ∧
    ∀ instruction, decode image offset = .ok instruction →
      image.opcodeAt? offset = some instruction.opcode ∧
        instruction.opcode.encodedLength image offset = .ok instruction.size := by
  refine ⟨?_, fun instruction h => decode_opcode h⟩
  have hfits (opcode : Opcode) (h : image.opcodeAt? offset = some opcode) :=
    OperandReader.exists_instruction_iff { image, base := offset } opcode
      (Image.lt_length_of_byte ((image.opcodeAt?_eq_some_iff offset opcode).mp h))
  constructor
  · rintro ⟨instruction, h⟩
    obtain ⟨opcode, ho, hi⟩ := (decode_eq_ok_iff image offset instruction).mp h
    obtain ⟨length, hl, hle⟩ := (hfits opcode ho).mp ⟨instruction, hi⟩
    exact ⟨opcode, length, ho, hl, hle⟩
  · rintro ⟨opcode, length, ho, hl, hle⟩
    obtain ⟨instruction, hi⟩ := (hfits opcode ho).mpr ⟨length, hl, hle⟩
    exact ⟨instruction, (decode_eq_ok_iff image offset instruction).mpr ⟨opcode, ho, hi⟩⟩

/-- An instruction whose count of zero is the last byte of the image can be decoded. -/
theorem decode_extent_of_empty_tail :
    ∃ instruction, decode (.ofScript ⟨#[0, 0x54, 0]⟩) 1 = .ok instruction :=
  (decode_iff_extent (.ofScript ⟨#[0, 0x54, 0]⟩) 1).1.mpr
    ⟨.zmCrGroup, 2, by decide, rfl, by decide⟩

end Instruction

end RomScript
