import Mathlib.Data.List.Pairwise
import RomScript.Instruction.Basic
import RomScript.Proofs.Text.Cancellation

/-!
# The text of an instruction

Every text of an operand can be cancelled in front of whatever the instructions put
behind it, so among the instructions of one opcode the operands are determined by their
text. The mnemonic ends at the first blank and names the opcode, except that four
reserved bytes share one mnemonic; their operand text is the byte itself. Two
instructions with one text are therefore the same, with tails of any length.
-/

set_option autoImplicit false

namespace RomScript

section Operands

variable {r s : String}

@[simp] theorem hexByte_append_inj {a b : UInt8} :
    hex 2 a.toNat ++ r = hex 2 b.toNat ++ s ↔ a = b ∧ r = s := by
  rw [hex_append_inj (by omega) a.toNat_lt b.toNat_lt, UInt8.toNat_inj]

@[simp] theorem byteText_append_inj {a b : UInt8} :
    byteText a ++ r = byteText b ++ s ↔ a = b ∧ r = s := by
  rw [byteText, byteText, hexLit_append_inj (by omega) a.toNat_lt b.toNat_lt, UInt8.toNat_inj]

@[simp] theorem wordText_append_inj {a b : UInt16} :
    wordText a ++ r = wordText b ++ s ↔ a = b ∧ r = s := by
  rw [wordText, wordText, hexLit_append_inj (by omega) a.toNat_lt b.toNat_lt, UInt16.toNat_inj]

@[simp] theorem dwordText_append_inj {a b : UInt32} :
    dwordText a ++ r = dwordText b ++ s ↔ a = b ∧ r = s := by
  rw [dwordText, dwordText, hexLit_append_inj (by omega) a.toNat_lt b.toNat_lt, UInt32.toNat_inj]

@[simp] theorem byteText_inj {a b : UInt8} : byteText a = byteText b ↔ a = b :=
  inj_of_append byteText_append_inj

@[simp] theorem wordText_inj {a b : UInt16} : wordText a = wordText b ↔ a = b :=
  inj_of_append wordText_append_inj

@[simp] theorem dwordText_inj {a b : UInt32} : dwordText a = dwordText b ↔ a = b :=
  inj_of_append dwordText_append_inj

/-- A register may need more digits than its least width, and the bracket closes it. -/
@[simp] theorem regText_append_inj {a b : UInt32} :
    regText a ++ r = regText b ++ s ↔ a = b ∧ r = s := by
  have hbare (t : String) : Bare ("]" ++ t) := bare_append (by decide) (by decide)
  simp only [regText, String.append_assoc, String.append_right_inj,
    hexLit_append_inj_of_bare (hbare r) (hbare s), UInt32.toNat_inj]

@[simp] theorem regText_inj {a b : UInt32} : regText a = regText b ↔ a = b :=
  inj_of_append regText_append_inj

@[simp] theorem indexedText_append_inj {port port' : UInt16} {index index' : UInt8} :
    indexedText port index ++ r = indexedText port' index' ++ s ↔
      port = port' ∧ index = index' ∧ r = s := by
  simp [indexedText, String.append_assoc]

@[simp] theorem crText_append_inj {a b : UInt8} :
    crText a ++ r = crText b ++ s ↔ a = b ∧ r = s := by
  simp [crText, String.append_assoc]

@[simp] theorem crText_inj {a b : UInt8} : crText a = crText b ↔ a = b :=
  inj_of_append crText_append_inj

@[simp] theorem busText_append_inj {a b : BusAddress} :
    a.text ++ r = b.text ++ s ↔ a = b ∧ r = s := by
  cases a
  cases b
  simp [BusAddress.text, String.append_assoc, and_assoc]

theorem fieldText_append_inj {a b : PortField} (hr : Bare r) (hs : Bare s) :
    a.text ++ r = b.text ++ s ↔ a = b ∧ r = s := by
  cases a
  cases b
  simp [PortField.text, String.append_assoc, and_assoc, decimal_append_inj hr hs, UInt8.toNat_inj]

@[simp] theorem fieldText_closed_inj {a b : PortField} :
    a.text ++ ("] kHz" ++ r) = b.text ++ ("] kHz" ++ s) ↔ a = b ∧ r = s := by
  have hbare (t : String) : Bare ("] kHz" ++ t) := bare_append (by decide) (by decide)
  rw [fieldText_append_inj (hbare r) (hbare s), String.append_right_inj]

@[simp] theorem fieldText_inj {a b : PortField} : a.text = b.text ↔ a = b := by
  simpa using fieldText_append_inj (a := a) (b := b) (r := "") (s := "") (by decide) (by decide)

theorem shiftText_append_inj {a b : UInt8} (hr : Bare r) (hs : Bare s) :
    shiftText a ++ r = shiftText b ++ s ↔ a = b ∧ r = s := by
  have ha := a.toNat_lt
  have hb := b.toNat_lt
  have hmark {x y : String} : " >> " ++ x ≠ " << " ++ y := by
    intro h
    have hlist := congrArg String.toList h
    simp at hlist
  have hdecimal {m n : Nat} : toString m ++ r = toString n ++ s ↔ m = n ∧ r = s :=
    decimal_append_inj hr hs
  by_cases hright : a < 0x80 <;> by_cases hright' : b < 0x80 <;>
    simp only [shiftText, hright, hright', if_true, if_false, String.append_assoc,
      String.append_right_inj, hdecimal, ← UInt8.toNat_inj]
  · exact ⟨fun h => absurd h hmark, fun h => absurd (UInt8.toNat_inj.mp h.1 ▸ hright) hright'⟩
  · exact ⟨fun h => absurd h.symm hmark, fun h => absurd (UInt8.toNat_inj.mp h.1 ▸ hright') hright⟩
  · have hdistance : 0x100 - a.toNat = 0x100 - b.toNat ↔ a.toNat = b.toNat := by omega
    rw [hdistance]

@[simp] theorem countText_closed_inj {a b : UInt8} :
    a.toNat.repr ++ (" = " ++ r) = b.toNat.repr ++ (" = " ++ s) ↔ a = b ∧ r = s := by
  have hbare (t : String) : Bare (" = " ++ t) := bare_append (by decide) (by decide)
  rw [decimal_append_inj (hbare r) (hbare s), String.append_right_inj, UInt8.toNat_inj]

/-- No text is printed for a flag condition of zero. -/
theorem doublingText_inj {a b : UInt8} :
    (if a = 0 then "" else ", x2 if IO_FLAG " ++ byteText a) =
      (if b = 0 then "" else ", x2 if IO_FLAG " ++ byteText b) ↔ a = b := by
  by_cases ha : a = 0
  · by_cases hb : b = 0
    · simp [ha, hb]
    · simp [ha, hb, Ne.symm hb]
  · by_cases hb : b = 0 <;> simp [ha, hb]

/-- Wherever a shift is printed, the parenthesis around it closes behind the number. -/
@[simp] theorem shiftText_closed_inj {a b : UInt8} :
    shiftText a ++ (") & " ++ r) = shiftText b ++ (") & " ++ s) ↔ a = b ∧ r = s := by
  have hbare (t : String) : Bare (") & " ++ t) := bare_append (by decide) (by decide)
  rw [shiftText_append_inj (hbare r) (hbare s), String.append_right_inj]

end Operands

section Tails

variable {r s : String}

/-- Items of a braced list: cancelled in front of a separator and unlike a closing brace. -/
structure Braced {α : Type} (f : α → String) : Prop where
  cancels : Cancels f
  opens : ∀ a, ∃ c ∈ (f a).toList.head?, c ≠ '\x7d'

theorem Braced.closes {α : Type} {f : α → String} (hf : Braced f) (t : String) :
    Closes f ", " ("\x7d" ++ t) where
  bare := bare_append (by decide) (by decide)
  notSeparator := by
    intro t' h
    have hlist := congrArg String.toList h
    simp at hlist
  notItem := by
    intro a t' h
    obtain ⟨c, hc, hne⟩ := hf.opens a
    have hlist := congrArg String.toList h
    cases hitem : (f a).toList with
    | nil => simp [hitem] at hc
    | cons d ds =>
      simp only [hitem, List.head?_cons, Option.mem_some_iff] at hc
      simp only [String.toList_append, hitem, List.cons_append] at hlist
      exact hne (hc.symm.trans (List.head_eq_of_cons_eq hlist).symm)

theorem Braced.bracedText_append_inj {α : Type} {f : α → String} (hf : Braced f)
    {xs ys : List α} :
    bracedText (xs.map f) ++ r = bracedText (ys.map f) ++ s ↔ xs = ys ∧ r = s := by
  simp only [bracedText, String.append_assoc, String.append_right_inj,
    intercalate_append_inj hf.cancels (by decide) (by decide) (hf.closes r).ends (hf.closes s).ends]

theorem Braced.bracedText_inj {α : Type} {f : α → String} (hf : Braced f) {xs ys : List α} :
    bracedText (xs.map f) = bracedText (ys.map f) ↔ xs = ys :=
  inj_of_append hf.bracedText_append_inj

theorem braced_dwordText : Braced dwordText where
  cancels := fun _ _ _ _ _ _ h => dwordText_append_inj.mp h
  opens := fun _ => ⟨'0', by simp [dwordText, hexLit], by decide⟩

theorem braced_decimal : Braced fun n : Nat => toString n where
  cancels := fun _ _ _ _ hr hs h => (decimal_append_inj hr hs).mp h
  opens := by
    intro n
    obtain ⟨c, hc, hdigit⟩ := exists_digit_first n
    refine ⟨c, hc, ?_⟩
    rintro rfl
    exact absurd hdigit (by decide)

theorem braced_pairText : Braced BytePair.text where
  cancels := by
    rintro ⟨target, data⟩ ⟨target', data'⟩ r s - - h
    simpa [BytePair.text, String.append_assoc, and_assoc] using h
  opens := fun _ => ⟨'[', by simp [BytePair.text], by decide⟩

theorem braced_maskedWrite : Braced fun write : MaskedWrite =>
    "[" ++ byteText write.target ++ "]" ++
      mergeText (byteText write.mask) (byteText write.data) where
  cancels := by
    rintro ⟨target, mask, data⟩ ⟨target', mask', data'⟩ r s - - h
    simpa [mergeText, String.append_assoc, and_assoc] using h
  opens := fun _ => ⟨'[', by simp, by decide⟩

theorem braced_maskedByte : Braced fun write : MaskedByte =>
    "&= " ++ byteText write.mask ++ " |= " ++ byteText write.data where
  cancels := by
    rintro ⟨mask, data⟩ ⟨mask', data'⟩ r s - - h
    simpa [String.append_assoc, and_assoc] using h
  opens := fun _ => ⟨'&', by simp, by decide⟩

@[simp] theorem dwordsText_append_inj {xs ys : List UInt32} :
    dwordsText xs ++ r = dwordsText ys ++ s ↔ xs = ys ∧ r = s :=
  braced_dwordText.bracedText_append_inj

@[simp] theorem dwordsText_inj {xs ys : List UInt32} : dwordsText xs = dwordsText ys ↔ xs = ys :=
  braced_dwordText.bracedText_inj

@[simp] theorem decimalsText_append_inj {xs ys : List Nat} :
    decimalsText xs ++ r = decimalsText ys ++ s ↔ xs = ys ∧ r = s :=
  braced_decimal.bracedText_append_inj

@[simp] theorem decimalsText_inj {xs ys : List Nat} :
    decimalsText xs = decimalsText ys ↔ xs = ys :=
  braced_decimal.bracedText_inj

@[simp] theorem pairsText_inj {xs ys : List BytePair} : pairsText xs = pairsText ys ↔ xs = ys :=
  braced_pairText.bracedText_inj

/-- Bytes have no closing mark: they end where neither a digit nor a blank and a digit follow. -/
theorem ends_hexBytes {r : String} (hr : Bare r) (hnext : ∀ t, r = " " ++ t → Bare t) :
    Ends (fun byte : UInt8 => hex 2 byte.toNat) " " r where
  bare := hr
  notNext := fun byte t h => not_bare_hex_append (by omega) byte.toNat t (hnext _ h)
  notItem := fun byte t h => not_bare_hex_append (by omega) byte.toNat t (h ▸ hr)

theorem hexBytes_append_inj (hr : Ends (fun byte : UInt8 => hex 2 byte.toNat) " " r)
    (hs : Ends (fun byte : UInt8 => hex 2 byte.toNat) " " s) {xs ys : List UInt8} :
    hexBytes xs ++ r = hexBytes ys ++ s ↔ xs = ys ∧ r = s := by
  have hcancels : Cancels fun byte : UInt8 => hex 2 byte.toNat :=
    fun _ _ _ _ _ _ h => hexByte_append_inj.mp h
  exact intercalate_append_inj hcancels (by decide) (by decide) hr hs

@[simp] theorem hexBytes_inj {xs ys : List UInt8} : hexBytes xs = hexBytes ys ↔ xs = ys := by
  have hempty : Ends (fun byte : UInt8 => hex 2 byte.toNat) " " "" :=
    ends_hexBytes (by decide) fun t h => absurd (congrArg String.toList h) (by simp)
  have happend : hexBytes xs ++ "" = hexBytes ys ++ "" ↔ xs = ys ∧ "" = "" :=
    hexBytes_append_inj hempty hempty
  simpa using happend

@[simp] theorem map_toNat_inj {xs ys : List UInt32} :
    xs.map UInt32.toNat = ys.map UInt32.toNat ↔ xs = ys :=
  List.map_inj_right fun _ _ => UInt32.toNat_inj.mp

@[simp] theorem khz_inj {a b : UInt16} : a.toNat * 10 = b.toNat * 10 ↔ a = b := by
  rw [Nat.mul_left_inj (by omega), UInt16.toNat_inj]

@[simp] theorem map_khz_inj {xs ys : List UInt16} :
    xs.map (fun freq => freq.toNat * 10) = ys.map (fun freq => freq.toNat * 10) ↔ xs = ys :=
  List.map_inj_right fun _ _ => khz_inj.mp

end Tails

section Families

theorem Control.eq_of_operands {a b : Control} (ho : a.opcode = b.opcode)
    (h : a.operands = b.operands) : a = b := by
  unfold operands at h
  cases a <;> cases b <;> cases ho <;> simp_all [UInt8.toNat_inj]

theorem Condition.eq_of_operands {a b : Condition} (ho : a.opcode = b.opcode)
    (h : a.operands = b.operands) : a = b := by
  unfold operands at h
  cases a <;> cases b <;> cases ho <;> simp_all [String.append_assoc, UInt8.toNat_inj]

theorem RegisterOp.eq_of_operands {a b : RegisterOp} (ho : a.opcode = b.opcode)
    (h : a.operands = b.operands) : a = b := by
  unfold operands at h
  cases a <;> cases b <;> cases ho <;>
    simp_all [mergeText, String.append_assoc, UInt8.toNat_inj]

theorem PortOp.eq_of_operands {a b : PortOp} (ho : a.opcode = b.opcode)
    (h : a.operands = b.operands) : a = b := by
  unfold operands at h
  cases a <;> cases b <;> cases ho <;> simp_all [mergeText, String.append_assoc]

theorem ClockOp.eq_of_operands {a b : ClockOp} (ho : a.opcode = b.opcode)
    (h : a.operands = b.operands) : a = b := by
  unfold operands at h
  cases a <;> cases b <;> cases ho <;>
    simp_all [String.append_assoc, doublingText_inj, UInt16.toNat_inj, UInt32.toNat_inj]

theorem BusOp.eq_of_operands {a b : BusOp} (ho : a.opcode = b.opcode)
    (h : a.operands = b.operands) : a = b := by
  unfold operands at h
  cases a <;> cases b <;> cases ho
  case i2cByte.i2cByte.refl =>
    dsimp only at h
    rw [String.append_assoc, String.append_assoc, busText_append_inj, String.append_right_inj,
      braced_maskedWrite.bracedText_inj] at h
    simp [h]
  case auxch.auxch.refl =>
    dsimp only at h
    rw [String.append_assoc, String.append_assoc, String.append_assoc, String.append_assoc,
      String.append_right_inj, dwordText_append_inj, String.append_right_inj,
      braced_maskedByte.bracedText_inj] at h
    simp [h]
  all_goals simp_all [mergeText, String.append_assoc]

theorem BoardOp.eq_of_operands {a b : BoardOp} (ho : a.opcode = b.opcode)
    (h : a.operands = b.operands) : a = b := by
  unfold operands at h
  cases a <;> cases b <;> cases ho <;> simp_all

inductive Family
  | control
  | condition
  | register
  | port
  | clock
  | bus
  | board
  deriving DecidableEq

def Opcode.family : Opcode → Family
  | .repeatBlock | .endRepeat | .negate | .resume | .done | .jump | .sub | .subDirect
  | .reserved _ => .control
  | .condition | .ioCondition | .ioFlagCondition | .dpCondition | .conditionTime
  | .ramCondition | .ramCondition2 | .i2cIf | .i2cLongIf => .condition
  | .io | .indexIo | .zmIndexIo | .cr | .zmCr | .zmCrGroup | .crIndexAddressLatched
  | .ioMaskOr | .ioOr | .copy => .port
  | .pll | .pll2 | .ioRestrictPll | .ioRestrictPll2 | .ramRestrictPll | .time | .ltime => .clock
  | .i2cByte | .zmI2cByte | .zmI2c | .auxch | .zmAuxch | .tmds | .zmTmdsGroup => .bus
  | .computeMem | .gpio | .gpioNe | .configureMem | .configureClk | .configurePreinit => .board
  | _ => .register

def Instruction.family : Instruction → Family
  | .control _ => .control
  | .condition _ => .condition
  | .register _ => .register
  | .port _ => .port
  | .clock _ => .clock
  | .bus _ => .bus
  | .board _ => .board

theorem Instruction.family_opcode (i : Instruction) : i.opcode.family = i.family := by
  cases i with
  | control op => cases op <;> rfl
  | condition op => cases op <;> rfl
  | register op => cases op <;> rfl
  | port op => cases op <;> rfl
  | clock op => cases op <;> rfl
  | bus op => cases op <;> rfl
  | board op => cases op <;> rfl

theorem Instruction.eq_of_operands {i j : Instruction} (ho : i.opcode = j.opcode)
    (h : i.operands = j.operands) : i = j := by
  have hfamily : i.family = j.family := by rw [← family_opcode, ← family_opcode, ho]
  cases i <;> cases j <;> cases hfamily
  case control a b => exact congrArg _ (Control.eq_of_operands ho h)
  case condition a b => exact congrArg _ (Condition.eq_of_operands ho h)
  case register a b => exact congrArg _ (RegisterOp.eq_of_operands ho h)
  case port a b => exact congrArg _ (PortOp.eq_of_operands ho h)
  case clock a b => exact congrArg _ (ClockOp.eq_of_operands ho h)
  case bus a b => exact congrArg _ (BusOp.eq_of_operands ho h)
  case board a b => exact congrArg _ (BoardOp.eq_of_operands ho h)

end Families

section Mnemonics

theorem Opcode.mnemonic_pairwise : all.Pairwise fun a b =>
    a.mnemonic = b.mnemonic → a.mnemonic = "RESERVED" := by decide +kernel

theorem Opcode.blank_notMem_mnemonic (opcode : Opcode) : ' ' ∉ opcode.mnemonic.toList := by
  have hall : ∀ opcode ∈ all, ' ' ∉ opcode.mnemonic.toList := by decide +kernel
  exact hall opcode opcode.mem_all

theorem Opcode.exists_reserved_of_mnemonic {opcode : Opcode} (h : opcode.mnemonic = "RESERVED") :
    ∃ which, opcode = .reserved which := by
  cases opcode with
  | reserved which => exact ⟨which, rfl⟩
  | _ => exact absurd h (by decide)

/-- Only reserved bytes share their mnemonic. -/
theorem Opcode.eq_or_reserved {a b : Opcode} (h : a.mnemonic = b.mnemonic) :
    a = b ∨ ∃ which which', a = .reserved which ∧ b = .reserved which' := by
  by_cases hab : a = b
  · exact .inl hab
  · have : Std.Symm fun a b : Opcode => a.mnemonic = b.mnemonic → a.mnemonic = "RESERVED" :=
      ⟨fun a b hr hba => hba.trans (hr hba.symm)⟩
    have ha := mnemonic_pairwise.forall a.mem_all b.mem_all hab h
    obtain ⟨which, rfl⟩ := exists_reserved_of_mnemonic ha
    obtain ⟨which', rfl⟩ := exists_reserved_of_mnemonic (h.symm.trans ha)
    exact .inr ⟨which, which', rfl, rfl⟩

theorem Instruction.text_eq (i : Instruction) :
    i.text = i.opcode.mnemonic ++ (if i.operands = "" then "" else " " ++ i.operands) := by
  unfold text
  by_cases h : i.operands = "" <;> simp [h, String.append_assoc]

/-- The first blank of the text ends the mnemonic. -/
theorem Instruction.mnemonic_and_operands {i j : Instruction} (h : i.text = j.text) :
    i.opcode.mnemonic = j.opcode.mnemonic ∧ i.operands = j.operands := by
  have hfront (k : Instruction) : ∀ c ∈ k.opcode.mnemonic.toList, (c != ' ') = true :=
    fun c hc => bne_iff_ne.mpr fun hblank => k.opcode.blank_notMem_mnemonic (hblank ▸ hc)
  have hback (k : Instruction) :
      ∀ c ∈ (if k.operands = "" then "" else " " ++ k.operands).toList.head?,
        (c != ' ') = false := by
    split <;> simp
  have hlist := congrArg String.toList h
  rw [text_eq, text_eq, String.toList_append, String.toList_append] at hlist
  obtain ⟨hmnemonic, hoperands⟩ :=
    append_inj_of_head (hfront i) (hfront j) (hback i) (hback j) hlist
  refine ⟨String.toList_inj.mp hmnemonic, ?_⟩
  have hoperands := String.toList_inj.mp hoperands
  by_cases hi : i.operands = "" <;> by_cases hj : j.operands = "" <;> simp_all

theorem Instruction.eq_reserved {i : Instruction} {which : Reserved}
    (h : i.opcode = .reserved which) : i = .control (.reserved which) := by
  have hfamily := i.family_opcode
  rw [h] at hfamily
  cases i <;> cases hfamily
  case control op => cases op <;> cases h; rfl

/-- The text of an instruction determines the opcode and every operand, those of the tail
included. -/
theorem Instruction.text_injective : Function.Injective Instruction.text := by
  intro i j h
  obtain ⟨hmnemonic, hoperands⟩ := mnemonic_and_operands h
  obtain ho | ⟨which, which', hi, hj⟩ := Opcode.eq_or_reserved hmnemonic
  · exact eq_of_operands ho hoperands
  · obtain rfl := eq_reserved hi
    obtain rfl := eq_reserved hj
    have hid : (Opcode.reserved which).id = (Opcode.reserved which').id := byteText_inj.mp hoperands
    cases which <;> cases which' <;> cases hid <;> rfl

end Mnemonics

end RomScript
