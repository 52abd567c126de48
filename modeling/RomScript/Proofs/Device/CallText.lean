import RomScript.Device.Call
import RomScript.Proofs.Instruction.Rendering

/-!
# The text of a call

The first two characters of its text tell the part of the device that a call is about. Behind
them each number, address and list of bytes ends where no digit can follow, and what stands
between them tells reads from writes and finished transfers from failed ones. So two calls with
one text are the same call.
-/

set_option autoImplicit false

namespace RomScript

namespace Call

inductive Subject
  | register
  | port
  | i2c
  | aux
  | pll
  | pause
  | memory
  | gpios

def subject : Call → Subject
  | .readReg .. | .writeReg .. => .register
  | .readIndexed .. | .writeIndexed .. | .readPort .. | .writePort .. => .port
  | .i2cWrite .. | .i2cWriteRead .. => .i2c
  | .auxRead .. | .auxWrite .. => .aux
  | .programPll .. | .programPllId .. => .pll
  | .sleepMicros _ | .sleepMillis _ => .pause
  | .computeMemory => .memory
  | .resetGpios _ => .gpios

/-- The first two characters of the text. -/
def Subject.mark : Subject → List Char
  | .register => ['R', '[']
  | .port => ['I', 'O']
  | .i2c => ['I', '2']
  | .aux => ['A', 'U']
  | .pll => ['P', 'L']
  | .pause => ['s', 'l']
  | .memory => ['c', 'o']
  | .gpios => ['r', 'e']

theorem Subject.mark_inj {a b : Subject} (h : a.mark = b.mark) : a = b := by
  cases a <;> cases b <;> first | rfl | exact absurd h (by decide)

attribute [local simp] text subject

theorem take_text (call : Call) : call.text.toList.take 2 = call.subject.mark := by
  cases call with
  | resetGpios excluded =>
    by_cases h : excluded.isEmpty = true <;> simp [h, Subject.mark]
  | _ => simp [regName, portName, i2cName, auxName, Subject.mark]

theorem subject_eq_of_text {x y : Call} (h : x.text = y.text) : x.subject = y.subject :=
  Subject.mark_inj (by rw [← take_text, ← take_text, h])

theorem append_split {word first second : String} (h : word = first ++ second) (rest : String) :
    word ++ rest = first ++ (second ++ rest) := by
  rw [h, String.append_assoc]

section Places

variable {r s : String}

theorem regName_append_inj {a b : UInt32} :
    regName a ++ r = regName b ++ s ↔ a = b ∧ r = s := regText_append_inj

theorem portName_append_inj {a b : UInt16} :
    portName a ++ r = portName b ++ s ↔ a = b ∧ r = s := by
  simp only [portName, String.append_assoc, String.append_right_inj,
    hexLit_append_inj (by omega : 0 < 4) a.toNat_lt b.toNat_lt, UInt16.toNat_inj]

theorem indexName_append_inj {a b : UInt8} :
    indexName a ++ r = indexName b ++ s ↔ a = b ∧ r = s := by
  simp only [indexName, String.append_assoc, String.append_right_inj,
    hexLit_append_inj (by omega : 0 < 2) a.toNat_lt b.toNat_lt, UInt8.toNat_inj]

theorem decimal_mark_append_inj {m n : Nat} {mark : String} (hmark : Bare mark) (hne : mark ≠ "") :
    toString m ++ (mark ++ r) = toString n ++ (mark ++ s) ↔ m = n ∧ r = s := by
  have hdecimal : toString m ++ (mark ++ r) = toString n ++ (mark ++ s) ↔
      m = n ∧ mark ++ r = mark ++ s :=
    decimal_append_inj (bare_append hmark hne) (bare_append hmark hne)
  rw [hdecimal, String.append_right_inj]

theorem busNumber_append_inj {a b : UInt8} :
    toString a.toNat ++ ("]" ++ r) = toString b.toNat ++ ("]" ++ s) ↔ a = b ∧ r = s := by
  rw [decimal_mark_append_inj (by decide) (by decide), UInt8.toNat_inj]

theorem i2cName_append_inj {bus bus' addr addr' : UInt8} :
    i2cName bus addr ++ r = i2cName bus' addr' ++ s ↔ bus = bus' ∧ addr = addr' ∧ r = s := by
  simp only [i2cName, String.append_assoc, String.append_right_inj, busNumber_append_inj,
    indexName_append_inj]

/-- An address may need more digits than its least width, and the bracket closes it. -/
theorem auxName_append_inj {bus bus' : UInt8} {addr addr' : UInt32} :
    auxName bus addr ++ r = auxName bus' addr' ++ s ↔ bus = bus' ∧ addr = addr' ∧ r = s := by
  have hbare (t : String) : Bare ("]" ++ t) := bare_append (by decide) (by decide)
  have hsplit (t : String) : "][" ++ t = "]" ++ ("[" ++ t) := append_split (by decide) t
  simp only [auxName, String.append_assoc, String.append_right_inj, hsplit, busNumber_append_inj,
    hexLit_append_inj_of_bare (hbare r) (hbare s), UInt32.toNat_inj]

end Places

section Endings

theorem failureMark_inj {ok ok' : Bool} : failureMark ok = failureMark ok' ↔ ok = ok' := by
  cases ok <;> cases ok' <;> decide

theorem ends_failureMark (ok : Bool) :
    Ends (fun byte : UInt8 => hex 2 byte.toNat) " " (failureMark ok) := by
  cases ok with
  | true => exact ends_hexBytes (by decide) fun t h => absurd h.symm (by simp [failureMark])
  | false =>
    refine ends_hexBytes (by decide) fun t h => ?_
    have hmark : failureMark false = " " ++ "(failed)" := rfl
    rw [hmark, String.append_right_inj] at h
    rw [← h]
    decide

theorem ends_read (rest : String) :
    Ends (fun byte : UInt8 => hex 2 byte.toNat) " " (" read " ++ rest) := by
  have hsplit : " read " ++ rest = " " ++ ("read " ++ rest) := append_split (by decide) rest
  refine ends_hexBytes (bare_append (by decide) (by decide)) fun t h => ?_
  rw [hsplit, String.append_right_inj] at h
  rw [← h]
  exact bare_append (by decide) (by decide)

theorem hexBytes_failureMark_inj {xs ys : List UInt8} {ok ok' : Bool} :
    hexBytes xs ++ failureMark ok = hexBytes ys ++ failureMark ok' ↔ xs = ys ∧ ok = ok' := by
  rw [hexBytes_append_inj (ends_failureMark ok) (ends_failureMark ok'), failureMark_inj]

theorem failureMark_ne_read (ok : Bool) (rest : String) : failureMark ok ≠ " read " ++ rest := by
  have hne := append_ne_of_not_prefix (a := " (failed)") (b := " read ") (by decide) "" rest
  cases ok with
  | true => exact fun h => absurd h.symm (by simp [failureMark])
  | false => simpa [failureMark] using hne

theorem hexBytes_read_inj {xs ys : List UInt8} {r s : String} :
    hexBytes xs ++ (" read " ++ r) = hexBytes ys ++ (" read " ++ s) ↔ xs = ys ∧ r = s := by
  rw [hexBytes_append_inj (ends_read r) (ends_read s), String.append_right_inj]

/-- Nothing is read where a transfer only writes. -/
theorem hexBytes_failureMark_ne_read (xs ys : List UInt8) (ok : Bool) (rest : String) :
    hexBytes xs ++ failureMark ok ≠ hexBytes ys ++ (" read " ++ rest) := by
  rw [ne_eq, hexBytes_append_inj (ends_failureMark ok) (ends_read rest)]
  exact fun h => failureMark_ne_read ok rest h.2

theorem kilohertz_inj {a b : UInt32} {r s : String} :
    toString a.toNat ++ (" kHz" ++ r) = toString b.toNat ++ (" kHz" ++ s) ↔ a = b ∧ r = s := by
  rw [decimal_mark_append_inj (by decide) (by decide), UInt32.toNat_inj]

theorem number_word_inj {a b : UInt32} {word : String} :
    toString a.toNat ++ word = toString b.toNat ++ word ↔ a = b := by
  have hdecimal : toString a.toNat = toString b.toNat ↔ a.toNat = b.toNat := decimal_inj
  rw [String.append_left_inj, hdecimal, UInt32.toNat_inj]

end Endings

section Words

variable (r s : String)

theorem reads_ne_writes : " -> " ++ r ≠ " <- " ++ s := append_ne_of_not_prefix (by decide) r s

theorem read_ne_write : " read " ++ r ≠ " write " ++ s := append_ne_of_not_prefix (by decide) r s

/-- Behind a port stands its index or, if it has none, an arrow. -/
theorem indexName_ne {word : String}
    (h : ¬("[".toList <+: word.toList ∨ word.toList <+: "[".toList)) (index : UInt8) :
    indexName index ++ r ≠ word ++ s := by
  simp only [indexName, String.append_assoc]
  exact append_ne_of_not_prefix h _ s

theorem pll_ne_pllId (reg : UInt32) : "PLL " ++ (regName reg ++ r) ≠ "PLL #" ++ s := by
  have hsplit : "PLL #" ++ s = "PLL " ++ ("#" ++ s) := append_split (by decide) s
  simp only [hsplit, regName, String.append_assoc, ne_eq, String.append_right_inj]
  exact append_ne_of_not_prefix (by decide) _ s

end Words

/-! ## Subjects -/

section Subjects

variable {x y : Call} (h : x.text = y.text)

include h

theorem eq_of_register (hx : x.subject = .register) (hy : y.subject = .register) : x = y := by
  have hvalue {a b : UInt32} : hexLit 8 a.toNat = hexLit 8 b.toNat ↔ a = b := dwordText_inj
  cases x <;> cases hx <;> cases y <;> cases hy <;>
    simp only [text, String.append_assoc, regName_append_inj, String.append_right_inj, hvalue] at h
  case readReg.refl.writeReg.refl => exact absurd h.2 (reads_ne_writes _ _)
  case writeReg.refl.readReg.refl => exact absurd h.2.symm (reads_ne_writes _ _)
  all_goals rw [h.1, h.2]

theorem eq_of_port (hx : x.subject = .port) (hy : y.subject = .port) : x = y := by
  have hvalue {a b : UInt8} : hexLit 2 a.toNat = hexLit 2 b.toNat ↔ a = b := byteText_inj
  have hreads (index : UInt8) (r s : String) : indexName index ++ r ≠ " -> " ++ s :=
    indexName_ne r s (by decide) index
  have hwrites (index : UInt8) (r s : String) : indexName index ++ r ≠ " <- " ++ s :=
    indexName_ne r s (by decide) index
  cases x <;> cases hx <;> cases y <;> cases hy <;>
    simp only [text, String.append_assoc, portName_append_inj, indexName_append_inj,
      String.append_right_inj, hvalue] at h
  case readIndexed.refl.readIndexed.refl | writeIndexed.refl.writeIndexed.refl =>
    rw [h.1, h.2.1, h.2.2]
  case readPort.refl.readPort.refl | writePort.refl.writePort.refl => rw [h.1, h.2]
  -- a read and a write
  case readIndexed.refl.writeIndexed.refl => exact absurd h.2.2 (reads_ne_writes _ _)
  case writeIndexed.refl.readIndexed.refl => exact absurd h.2.2.symm (reads_ne_writes _ _)
  case readPort.refl.writePort.refl => exact absurd h.2 (reads_ne_writes _ _)
  case writePort.refl.readPort.refl => exact absurd h.2.symm (reads_ne_writes _ _)
  -- with an index and without one
  case readIndexed.refl.readPort.refl | writeIndexed.refl.readPort.refl =>
    exact absurd h.2 (hreads _ _ _)
  case readIndexed.refl.writePort.refl | writeIndexed.refl.writePort.refl =>
    exact absurd h.2 (hwrites _ _ _)
  case readPort.refl.readIndexed.refl | readPort.refl.writeIndexed.refl =>
    exact absurd h.2.symm (hreads _ _ _)
  case writePort.refl.readIndexed.refl | writePort.refl.writeIndexed.refl =>
    exact absurd h.2.symm (hwrites _ _ _)

theorem eq_of_i2c (hx : x.subject = .i2c) (hy : y.subject = .i2c) : x = y := by
  cases x <;> cases hx <;> cases y <;> cases hy <;>
    simp only [text, String.append_assoc, String.append_right_inj, i2cName_append_inj,
      hexBytes_failureMark_inj, hexBytes_read_inj] at h
  case i2cWrite.refl.i2cWriteRead.refl =>
    exact absurd h.2.2 (hexBytes_failureMark_ne_read _ _ _ _)
  case i2cWriteRead.refl.i2cWrite.refl =>
    exact absurd h.2.2.symm (hexBytes_failureMark_ne_read _ _ _ _)
  all_goals simp [h]

theorem eq_of_aux (hx : x.subject = .aux) (hy : y.subject = .aux) : x = y := by
  cases x <;> cases hx <;> cases y <;> cases hy <;>
    simp only [text, String.append_assoc, auxName_append_inj, String.append_right_inj,
      hexBytes_failureMark_inj] at h
  case auxRead.refl.auxWrite.refl => exact absurd h.2.2 (read_ne_write _ _)
  case auxWrite.refl.auxRead.refl => exact absurd h.2.2.symm (read_ne_write _ _)
  all_goals rw [h.1, h.2.1, h.2.2.1, h.2.2.2]

theorem eq_of_pll (hx : x.subject = .pll) (hy : y.subject = .pll) : x = y := by
  have hid {a b : UInt8} {r s : String} : hexLit 2 a.toNat ++ r = hexLit 2 b.toNat ++ s ↔
      a = b ∧ r = s := byteText_append_inj
  cases x <;> cases hx <;> cases y <;> cases hy <;> simp only [text, String.append_assoc] at h
  case programPll.refl.programPllId.refl => exact absurd h (pll_ne_pllId _ _ _)
  case programPllId.refl.programPll.refl => exact absurd h.symm (pll_ne_pllId _ _ _)
  case programPll.refl.programPll.refl =>
    simp only [String.append_right_inj, regName_append_inj, kilohertz_inj,
      failureMark_inj] at h
    rw [h.1, h.2.1, h.2.2]
  case programPllId.refl.programPllId.refl =>
    simp only [String.append_right_inj, hid, number_word_inj] at h
    rw [h.1, h.2]

theorem eq_of_pause (hx : x.subject = .pause) (hy : y.subject = .pause) : x = y := by
  have hunits (m n : Nat) : toString m ++ " us" ≠ toString n ++ " ms" := by
    intro heq
    obtain ⟨-, hword⟩ := (decimal_append_inj (by decide) (by decide)).mp heq
    exact absurd hword (by decide)
  cases x <;> cases hx <;> cases y <;> cases hy <;>
    simp only [text, String.append_assoc, String.append_right_inj, number_word_inj] at h
  case sleepMicros.refl.sleepMillis.refl => exact absurd h (hunits _ _)
  case sleepMillis.refl.sleepMicros.refl => exact absurd h.symm (hunits _ _)
  all_goals rw [h]

theorem eq_of_gpios (hx : x.subject = .gpios) (hy : y.subject = .gpios) : x = y := by
  have hall (t : String) : "reset gpios" ≠ "reset gpios except " ++ t := by
    intro heq
    have hlist := congrArg String.toList heq
    simp at hlist
  cases x <;> cases hx
  case resetGpios.refl excluded =>
    cases y <;> cases hy
    case resetGpios.refl excluded' =>
      cases excluded with
      | nil =>
        cases excluded' with
        | nil => rfl
        | cons pin pins => exact absurd h (hall _)
      | cons pin pins =>
        cases excluded' with
        | nil => exact absurd h.symm (hall _)
        | cons pin' pins' => rw [hexBytes_inj.mp ((String.append_right_inj _).mp h)]

end Subjects

/-- Two calls with one text are the same call, with all that was given to the device and all that
it answered. -/
theorem text_unambiguous : Function.Injective text := by
  intro x y h
  have hs := subject_eq_of_text h
  cases hx : x.subject with
  | register => exact eq_of_register h hx (hs.symm.trans hx)
  | port => exact eq_of_port h hx (hs.symm.trans hx)
  | i2c => exact eq_of_i2c h hx (hs.symm.trans hx)
  | aux => exact eq_of_aux h hx (hs.symm.trans hx)
  | pll => exact eq_of_pll h hx (hs.symm.trans hx)
  | pause => exact eq_of_pause h hx (hs.symm.trans hx)
  | gpios => exact eq_of_gpios h hx (hs.symm.trans hx)
  | memory =>
    have hy := hs.symm.trans hx
    cases x <;> cases hx
    cases y <;> cases hy
    rfl

end Call

end RomScript
