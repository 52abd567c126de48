import Mathlib.Data.List.TakeWhile
import Mathlib.Data.Nat.Digits.Defs
import RomScript.Proofs.Text.Cancellation

/-!
# The grammar of numbers

A text between its blanks is a number if behind its mark, once the underscores are dropped, stand
the digits of the base, with at most one plus sign in front. The reader takes these texts and no
other ones, to the value of the digits as long as it is below `2 ^ 64`. So it reads every such
number back from its digits, whatever zeros, underscores and blanks were added to them.
-/

set_option autoImplicit false

namespace RomScript

/-! ## The grammar -/

/-- The text is the core between blanks, and the core begins and ends with none. -/
structure Trimmed (text core : List Char) : Prop where
  split : ∃ front back, text = front ++ core ++ back ∧ (∀ c ∈ front, isBlank c = true) ∧
    ∀ c ∈ back, isBlank c = true
  first : ∀ c ∈ core.head?, isBlank c = false
  last : ∀ c ∈ core.getLast?, isBlank c = false

/-- The base of a text and what stands behind the mark for it. -/
inductive Marked : List Char → Nat → List Char → Prop
  | hex {mark : Char} (rest : List Char) (h : mark = 'x' ∨ mark = 'X') :
    Marked ('0' :: mark :: rest) 16 rest
  | binary {mark : Char} (rest : List Char) (h : mark = 'b' ∨ mark = 'B') :
    Marked ('0' :: mark :: rest) 2 rest
  | decimal (text : List Char)
    (h : ∀ mark rest, text = '0' :: mark :: rest → mark ∉ ['x', 'X', 'b', 'B']) :
    Marked text 10 text

def WritesDigit (base : Nat) (c : Char) (digit : Nat) : Prop :=
  digit < base ∧ c.toLower = digit.digitChar

/-- The characters are one or more digits, and this is their positional value. -/
def WritesNumber (base : Nat) (text : List Char) (value : Nat) : Prop :=
  text ≠ [] ∧ ∃ digits, List.Forall₂ (WritesDigit base) text digits ∧
    value = Nat.ofDigits base digits.reverse

/-- The text without the blanks around it is a number below `2 ^ 64`. -/
def IsNumber (core : List Char) (value : Nat) : Prop :=
  ∃ base behind digits, Marked core base behind ∧
    (behind.filter (· ≠ '_') = digits ∨ behind.filter (· ≠ '_') = '+' :: digits) ∧
    WritesNumber base digits value ∧ value < 2 ^ 64

/-- The text is made from the digits of a number in the base of its mark, by zeros in front of
them, underscores anywhere and blanks around. -/
structure Renders (text : List Char) (n : Nat) : Prop where
  parts : ∃ front mark base body back zeros, text = front ++ (mark ++ body) ++ back ∧
    (∀ c ∈ front, isBlank c = true) ∧ (∀ c ∈ back, isBlank c = true) ∧
    (mark, base) ∈
      [([], 10), (['0', 'x'], 16), (['0', 'X'], 16), (['0', 'b'], 2), (['0', 'B'], 2)] ∧
    (body.filter (· ≠ '_')).map Char.toLower = List.replicate zeros '0' ++ Nat.toDigits base n

/-! ## Blanks -/

theorem head?_dropWhile_isBlank (text : List Char) :
    ∀ c ∈ (text.dropWhile isBlank).head?, isBlank c = false := by
  intro c hc
  have h := List.head?_dropWhile_not isBlank text
  rw [Option.mem_def.mp hc] at h
  exact h

theorem dropWhile_isBlank_append {front rest : List Char} (hfront : ∀ c ∈ front, isBlank c = true)
    (hrest : ∀ c ∈ rest.head?, isBlank c = false) : (front ++ rest).dropWhile isBlank = rest := by
  rw [List.dropWhile_append_of_pos hfront]
  cases rest with
  | nil => rfl
  | cons c rest => simp [hrest c rfl]

theorem trimmed_trimBlank (text : List Char) : Trimmed text (trimBlank text) := by
  let rest := text.dropWhile isBlank
  let back := rest.reverse.takeWhile isBlank
  have hrest : rest = trimBlank text ++ back.reverse := by
    have hsplit : back ++ rest.reverse.dropWhile isBlank = rest.reverse :=
      List.takeWhile_append_dropWhile
    rw [trimBlank, ← List.reverse_append, hsplit, List.reverse_reverse]
  refine ⟨⟨text.takeWhile isBlank, back.reverse, ?_, ?_, ?_⟩, ?_, ?_⟩
  · rw [List.append_assoc, ← hrest]
    exact List.takeWhile_append_dropWhile.symm
  · exact fun c hc => List.mem_takeWhile_imp hc
  · exact fun c hc => List.mem_takeWhile_imp (List.mem_reverse.mp hc)
  · intro c hc
    refine head?_dropWhile_isBlank text c ?_
    show c ∈ rest.head?
    rw [hrest, List.head?_append, Option.mem_def.mp hc]
    rfl
  · intro c hc
    rw [trimBlank, List.getLast?_reverse] at hc
    exact head?_dropWhile_isBlank _ c hc

theorem trimBlank_eq {text core : List Char} (h : Trimmed text core) : trimBlank text = core := by
  obtain ⟨⟨front, back, rfl, hfront, hback⟩, hfirst, hlast⟩ := h
  have hends : (back.reverse ++ core.reverse).dropWhile isBlank = core.reverse := by
    refine dropWhile_isBlank_append (fun c hc => hback c (List.mem_reverse.mp hc)) fun c hc => ?_
    rw [List.head?_reverse] at hc
    exact hlast c hc
  cases core with
  | nil =>
    rw [List.append_nil, trimBlank, ← List.append_nil (front ++ back), dropWhile_isBlank_append]
    · rfl
    · intro c hc
      rcases List.mem_append.mp hc with hc | hc
      · exact hfront c hc
      · exact hback c hc
    · exact fun c hc => nomatch hc
  | cons c core =>
    have hrest : ∀ x ∈ (c :: core ++ back).head?, isBlank x = false := hfirst
    rw [List.append_assoc, trimBlank, dropWhile_isBlank_append hfront hrest, List.reverse_append,
      hends, List.reverse_reverse]

/-! ## Digits -/

theorem toNat_toLower (c : Char) : c.toLower.toNat =
    if 65 ≤ c.toNat ∧ c.toNat ≤ 90 then c.toNat + 32 else c.toNat := by
  have hiff : (c.val ≥ 'A'.val ∧ c.val ≤ 'Z'.val) ↔ 65 ≤ c.toNat ∧ c.toNat ≤ 90 := Iff.rfl
  by_cases h : 65 ≤ c.toNat ∧ c.toNat ≤ 90
  · have hupper : c.toLower.toNat = (c.toNat + 32) % 2 ^ 32 :=
      congrArg Char.toNat (dif_pos (hiff.mpr h))
    rw [hupper, if_pos h]
    omega
  · have hsame : c.toLower = c := dif_neg (mt hiff.mp h)
    rw [hsame, if_neg h]

theorem digitValue?_eq (base : Nat) (c : Char) : digitValue? base c = Option.filter (· < base)
    (if 48 ≤ c.toNat ∧ c.toNat ≤ 57 then some (c.toNat - 48)
      else if 97 ≤ c.toNat ∧ c.toNat ≤ 122 then some (c.toNat - 97 + 10)
      else if 65 ≤ c.toNat ∧ c.toNat ≤ 90 then some (c.toNat - 65 + 10)
      else none) := rfl

theorem digitValue?_toLower (base : Nat) (c : Char) :
    digitValue? base c.toLower = digitValue? base c := by
  rw [digitValue?_eq, digitValue?_eq, toNat_toLower]
  congr 1
  by_cases h : 65 ≤ c.toNat ∧ c.toNat ≤ 90
  · rw [if_pos h, if_neg (by omega), if_pos (by omega), if_neg (by omega), if_neg (by omega),
      if_pos h]
    exact congrArg some (by omega)
  · rw [if_neg h]

theorem toNat_digitChar {digit : Nat} (h : digit < 16) :
    digit.digitChar.toNat = if digit < 10 then digit + 48 else digit + 87 := by
  revert digit
  decide

theorem digitValue?_eq_some_iff {base : Nat} (hbase : base ≤ 16) (c : Char) (digit : Nat) :
    digitValue? base c = some digit ↔ WritesDigit base c digit := by
  constructor
  · intro h
    rw [digitValue?_eq, Option.filter_eq_some_iff, decide_eq_true_eq] at h
    obtain ⟨hvalue, hlt⟩ := h
    refine ⟨hlt, Char.toNat_inj.mp ?_⟩
    rw [toNat_toLower, toNat_digitChar (Nat.lt_of_lt_of_le hlt hbase)]
    by_cases hdecimal : 48 ≤ c.toNat ∧ c.toNat ≤ 57
    · rw [if_pos hdecimal, Option.some.injEq] at hvalue
      rw [if_neg (by omega), if_pos (by omega)]
      omega
    · rw [if_neg hdecimal] at hvalue
      by_cases hlower : 97 ≤ c.toNat ∧ c.toNat ≤ 122
      · rw [if_pos hlower, Option.some.injEq] at hvalue
        rw [if_neg (by omega), if_neg (by omega)]
        omega
      · rw [if_neg hlower] at hvalue
        by_cases hupper : 65 ≤ c.toNat ∧ c.toNat ≤ 90
        · rw [if_pos hupper, Option.some.injEq] at hvalue
          rw [if_pos hupper, if_neg (by omega)]
          omega
        · rw [if_neg hupper] at hvalue
          cases hvalue
  · rintro ⟨hlt, hc⟩
    rw [← digitValue?_toLower, hc]
    exact digitValue?_digitChar hlt hbase

/-- The digits are read from the front, so what was read before is shifted by their number. -/
theorem positional?_eq_some_iff {base : Nat} (hbase : base ≤ 16) (acc value : Nat)
    (text : List Char) :
    positional? base acc text = some value ↔ ∃ digits,
      List.Forall₂ (WritesDigit base) text digits ∧
        value = acc * base ^ digits.length + Nat.ofDigits base digits.reverse := by
  have hstep (acc digit : Nat) (digits : List Nat) :
      acc * base ^ (digit :: digits).length + Nat.ofDigits base (digit :: digits).reverse =
        (acc * base + digit) * base ^ digits.length + Nat.ofDigits base digits.reverse := by
    rw [Nat.ofDigits_reverse_cons, List.length_cons, Nat.pow_succ]
    ring
  induction text generalizing acc with
  | nil =>
    constructor
    · intro h
      obtain rfl := Option.some.inj h
      exact ⟨[], .nil, by simp⟩
    · rintro ⟨digits, hall, rfl⟩
      cases hall
      simp [positional?]
  | cons c rest ih =>
    simp only [positional?, Option.bind_eq_some_iff, digitValue?_eq_some_iff hbase]
    constructor
    · rintro ⟨digit, hdigit, hrest⟩
      obtain ⟨digits, hdigits, rfl⟩ := (ih _).mp hrest
      exact ⟨digit :: digits, .cons hdigit hdigits, (hstep acc digit digits).symm⟩
    · rintro ⟨_, hall, rfl⟩
      cases hall with
      | cons hdigit hdigits => exact ⟨_, hdigit, (ih _).mpr ⟨_, hdigits, hstep acc _ _⟩⟩

theorem writesNumber_iff {base : Nat} (hbase : base ≤ 16) (text : List Char) (value : Nat) :
    WritesNumber base text value ↔ text ≠ [] ∧ positional? base 0 text = some value := by
  rw [WritesNumber, positional?_eq_some_iff hbase]
  simp only [Nat.zero_mul, Nat.zero_add]

/-! ## The reader -/

theorem unsigned?_eq_some_iff {base : Nat} (hbase : base ≤ 16) (text : List Char) (value : Nat) :
    unsigned? base text = some value ↔
      ∃ digits, (text = digits ∨ text = '+' :: digits) ∧ WritesNumber base digits value := by
  have hplus (rest : List Char) : positional? base 0 ('+' :: rest) = none := rfl
  have hsign (rest : List Char) (h : rest ≠ []) :
      unsigned? base ('+' :: rest) = positional? base 0 rest := by
    cases rest with
    | nil => exact absurd rfl h
    | cons c rest => rfl
  have hplain (text : List Char) (h : text ≠ []) (hhead : text.head? ≠ some '+') :
      unsigned? base text = positional? base 0 text := by
    unfold unsigned?
    split
    · exact absurd rfl h
    · exact absurd rfl hhead
    · exact absurd rfl hhead
    · rfl
  simp only [writesNumber_iff hbase]
  constructor
  · intro h
    by_cases hnil : text = []
    · rw [hnil] at h
      cases h
    · by_cases hhead : text.head? = some '+'
      · obtain ⟨rest, rfl⟩ := List.head?_eq_some_iff.mp hhead
        by_cases hrest : rest = []
        · rw [hrest] at h
          cases h
        · exact ⟨rest, .inr rfl, hrest, hsign rest hrest ▸ h⟩
      · exact ⟨text, .inl rfl, hnil, hplain text hnil hhead ▸ h⟩
  · rintro ⟨digits, rfl | rfl, hdigits, hvalue⟩
    · by_cases hhead : text.head? = some '+'
      · obtain ⟨rest, rfl⟩ := List.head?_eq_some_iff.mp hhead
        rw [hplus] at hvalue
        cases hvalue
      · rw [hplain text hdigits hhead, hvalue]
    · rw [hsign digits hdigits, hvalue]

theorem splitBase_eq_iff (text behind : List Char) (base : Nat) :
    splitBase text = (base, behind) ↔ Marked text base behind := by
  constructor
  · intro h
    unfold splitBase at h
    split at h
    · cases h
      exact .hex _ (.inl rfl)
    · cases h
      exact .hex _ (.inr rfl)
    · cases h
      exact .binary _ (.inl rfl)
    · cases h
      exact .binary _ (.inr rfl)
    · rename_i hx hX hb hB
      cases h
      refine .decimal _ fun mark rest htext hmark => ?_
      simp only [List.mem_cons, List.not_mem_nil, or_false] at hmark
      rcases hmark with rfl | rfl | rfl | rfl
      · exact hx rest htext
      · exact hX rest htext
      · exact hb rest htext
      · exact hB rest htext
  · intro h
    cases h with
    | hex rest h => rcases h with rfl | rfl <;> rfl
    | binary rest h => rcases h with rfl | rfl <;> rfl
    | decimal _ h =>
      unfold splitBase
      split
      · simp at h
      · simp at h
      · simp at h
      · simp at h
      · rfl

theorem base_le_of_marked {text behind : List Char} {base : Nat} (h : Marked text base behind) :
    base ≤ 16 := by
  cases h <;> omega

def numberOf? (core : List Char) : Option Nat :=
  (unsigned? (splitBase core).1 ((splitBase core).2.filter (· ≠ '_'))).filter (· < 2 ^ 64)

theorem parseNumber_eq (text : String) :
    parseNumber text =
      if trimBlank text.toList = [] then .error .empty
      else
        match numberOf? (trimBlank text.toList) with
        | some value => .ok value
        | none => .error (.invalid text) := by
  unfold parseNumber numberOf?
  cases trimBlank text.toList with
  | nil => rfl
  | cons c rest =>
    simp only [reduceCtorEq, if_false]
    cases unsigned? (splitBase (c :: rest)).1 ((splitBase (c :: rest)).2.filter (· ≠ '_')) with
    | none => rfl
    | some value =>
      by_cases hlt : value < 2 ^ 64
      · have hkept : (some value).filter (· < 2 ^ 64) = some value := if_pos (decide_eq_true hlt)
        rw [hkept]
        exact if_pos hlt
      · have hdropped : (some value).filter (· < 2 ^ 64) = none := if_neg (by simpa using hlt)
        rw [hdropped]
        exact if_neg hlt

theorem numberOf?_eq_some_iff (core : List Char) (value : Nat) :
    numberOf? core = some value ↔ IsNumber core value := by
  have hmarked : Marked core (splitBase core).1 (splitBase core).2 :=
    (splitBase_eq_iff _ _ _).mp rfl
  rw [numberOf?, Option.filter_eq_some_iff, decide_eq_true_eq,
    unsigned?_eq_some_iff (base_le_of_marked hmarked)]
  constructor
  · rintro ⟨⟨digits, hdigits, hvalue⟩, hlt⟩
    exact ⟨_, _, digits, hmarked, hdigits, hvalue, hlt⟩
  · rintro ⟨base, behind, digits, hsplit, hdigits, hvalue, hlt⟩
    rw [← splitBase_eq_iff] at hsplit
    rw [hsplit]
    exact ⟨⟨digits, hdigits, hvalue⟩, hlt⟩

/-! ## Written numbers -/

theorem positional?_toLower (base acc : Nat) (text : List Char) :
    positional? base acc (text.map Char.toLower) = positional? base acc text := by
  induction text generalizing acc with
  | nil => rfl
  | cons c rest ih => simp only [List.map_cons, positional?, digitValue?_toLower, ih]

theorem isSome_of_positional? {base acc value : Nat} {text : List Char}
    (h : positional? base acc text = some value) {c : Char} (hc : c ∈ text) :
    (digitValue? base c).isSome = true := by
  induction text generalizing acc with
  | nil => cases hc
  | cons first rest ih =>
    obtain ⟨digit, hdigit, hrest⟩ := Option.bind_eq_some_iff.mp h
    rcases List.mem_cons.mp hc with rfl | hc
    · rw [hdigit, Option.isSome_some]
    · exact ih hrest hc

theorem isBlank_of_digit {base : Nat} {c : Char} (h : (digitValue? base c).isSome = true) :
    isBlank c = false := by
  by_contra hblank
  have hcode : ¬(48 ≤ c.toNat ∧ c.toNat ≤ 57) ∧ ¬(97 ≤ c.toNat ∧ c.toNat ≤ 122) ∧
      ¬(65 ≤ c.toNat ∧ c.toNat ≤ 90) := by
    simp only [isBlank, Bool.not_eq_false, Bool.or_eq_true, Bool.and_eq_true, decide_eq_true_eq,
      beq_iff_eq] at hblank
    omega
  rw [digitValue?_eq, if_neg hcode.1, if_neg hcode.2.1, if_neg hcode.2.2] at h
  cases h

theorem exists_isNumber_of_renders {text : List Char} {n : Nat} (h : Renders text n)
    (hlt : n < 2 ^ 64) : ∃ core, Trimmed text core ∧ IsNumber core n := by
  obtain ⟨front, mark, base, body, back, zeros, rfl, hfront, hback, hmark, hdigits⟩ := h
  have hbase : 1 < base ∧ base ≤ 16 := by
    simp only [List.mem_cons, Prod.mk.injEq, List.not_mem_nil, or_false] at hmark
    omega
  let digits := body.filter (· ≠ '_')
  have hvalue : positional? base 0 digits = some n := by
    rw [← positional?_toLower, hdigits, positional?_append,
      positional?_zeros (Nat.zero_lt_of_lt hbase.1), Option.bind_some]
    exact positional?_toDigits hbase.1 hbase.2 n
  have hne : digits ≠ [] := by
    intro hnil
    have hpos : 0 < (Nat.toDigits base n).length := Nat.length_toDigits_pos
    have hlength := congrArg List.length hdigits
    rw [show body.filter (· ≠ '_') = [] from hnil, List.length_append] at hlength
    simp only [List.map_nil, List.length_nil] at hlength
    omega
  have hdigit {c : Char} (hc : c ∈ body) : c = '_' ∨ (digitValue? base c).isSome = true := by
    by_cases hunderscore : c = '_'
    · exact .inl hunderscore
    · have hmem : c ∈ digits := List.mem_filter.mpr ⟨hc, decide_eq_true hunderscore⟩
      exact .inr (isSome_of_positional? hvalue hmem)
  have hblank : ∀ c ∈ mark ++ body, isBlank c = false := by
    intro c hc
    rcases List.mem_append.mp hc with hc | hc
    · have hmarks : ∀ pair ∈ [([], 10), (['0', 'x'], 16), (['0', 'X'], 16), (['0', 'b'], 2),
          (['0', 'B'], 2)], ((pair : List Char × Nat).1.all fun c => !isBlank c) = true := by decide
      have hletter := List.all_eq_true.mp (hmarks _ hmark) c hc
      rwa [Bool.not_eq_true'] at hletter
    · rcases hdigit hc with rfl | hc
      · rfl
      · exact isBlank_of_digit hc
  have hmarked : Marked (mark ++ body) base body := by
    simp only [List.mem_cons, Prod.mk.injEq, List.not_mem_nil, or_false] at hmark
    rcases hmark with ⟨rfl, rfl⟩ | ⟨rfl, rfl⟩ | ⟨rfl, rfl⟩ | ⟨rfl, rfl⟩ | ⟨rfl, rfl⟩
    · refine .decimal body fun letter rest hbody hletter => ?_
      have hmem : letter ∈ body := by simp [hbody]
      have hnone : (['x', 'X', 'b', 'B'].all fun c =>
          (digitValue? 10 c).isNone && c != '_') = true := by decide
      have hletter := List.all_eq_true.mp hnone letter hletter
      rw [Bool.and_eq_true, Option.isNone_iff_eq_none, bne_iff_ne] at hletter
      rcases hdigit hmem with h | h
      · exact absurd h hletter.2
      · rw [hletter.1] at h
        cases h
    · exact .hex body (.inl rfl)
    · exact .hex body (.inr rfl)
    · exact .binary body (.inl rfl)
    · exact .binary body (.inr rfl)
  refine ⟨mark ++ body, ⟨⟨front, back, rfl, hfront, hback⟩, ?_, ?_⟩,
    base, body, digits, hmarked, .inl rfl, (writesNumber_iff hbase.2 _ _).mpr ⟨hne, hvalue⟩, hlt⟩
  · exact fun c hc => hblank c (List.mem_of_mem_head? hc)
  · exact fun c hc => hblank c (List.mem_of_mem_getLast? hc)

/-- A text of blanks is empty. Any other one is read, without the blanks around it, by the
grammar, and refused as it stands if that gives it no value below `2 ^ 64`. So the digits of every
such number, with zeros, underscores and blanks added to them, are read back as the number. -/
theorem parseNumber_follows_grammar (text : String) :
    ∃ core, (∀ other, Trimmed text.toList other ↔ other = core) ∧
      (parseNumber text = .error .empty ↔ core = []) ∧
      (∀ value, parseNumber text = .ok value ↔ IsNumber core value) ∧
      (core ≠ [] → (¬∃ value, IsNumber core value) →
        parseNumber text = .error (.invalid text)) ∧
      ∀ n < 2 ^ 64, Renders text.toList n → parseNumber text = .ok n := by
  have hcore (other : List Char) : Trimmed text.toList other ↔ other = trimBlank text.toList :=
    ⟨fun h => (trimBlank_eq h).symm, fun h => h ▸ trimmed_trimBlank text.toList⟩
  have hwritten (n : Nat) (hlt : n < 2 ^ 64) (h : Renders text.toList n) :
      numberOf? (trimBlank text.toList) = some n := by
    obtain ⟨core, htrimmed, hnumber⟩ := exists_isNumber_of_renders h hlt
    rw [← (hcore core).mp htrimmed]
    exact (numberOf?_eq_some_iff core n).mpr hnumber
  refine ⟨trimBlank text.toList, hcore, ?_⟩
  simp only [← numberOf?_eq_some_iff]
  rw [parseNumber_eq]
  by_cases hnil : trimBlank text.toList = []
  · have hnone : numberOf? (trimBlank text.toList) = none := by
      rw [hnil]
      rfl
    rw [if_pos hnil]
    refine ⟨⟨fun _ => hnil, fun _ => rfl⟩, fun value => ?_, fun h => absurd hnil h,
      fun n hlt h => ?_⟩
    · rw [hnone]
      exact ⟨fun h => (nomatch h), fun h => (nomatch h)⟩
    · cases hnone.symm.trans (hwritten n hlt h)
  · rw [if_neg hnil]
    cases hnumber : numberOf? (trimBlank text.toList) with
    | none =>
      refine ⟨⟨fun h => (nomatch h), fun h => absurd h hnil⟩,
        fun value => ⟨fun h => (nomatch h), fun h => (nomatch h)⟩, fun _ _ => rfl,
        fun n hlt h => ?_⟩
      cases hnumber.symm.trans (hwritten n hlt h)
    | some value =>
      refine ⟨⟨fun h => (nomatch h), fun h => absurd h hnil⟩, fun other => ?_,
        fun _ hnone => absurd ⟨value, rfl⟩ hnone, fun n hlt h => ?_⟩
      · rw [Except.ok.injEq, Option.some.injEq]
      · exact congrArg Except.ok (Option.some.inj (hnumber.symm.trans (hwritten n hlt h)))

/-- Sixteen bits in capital and small letters. -/
theorem parseNumber_follows_grammar_of_mixed_case :
    Renders "\u3000 0X_0F_fFf_\t".toList 65535 ∧ parseNumber "\u3000 0X_0F_fFf_\t" = .ok 65535 := by
  obtain ⟨-, -, -, -, -, hrenders⟩ := parseNumber_follows_grammar "\u3000 0X_0F_fFf_\t"
  have h : Renders "\u3000 0X_0F_fFf_\t".toList 65535 :=
    ⟨['\u3000', ' '], ['0', 'X'], 16, ['_', '0', 'F', '_', 'f', 'F', 'f', '_'], ['\t'], 1,
      by decide, List.all_eq_true.mp (by decide), List.all_eq_true.mp (by decide), by decide,
      by decide⟩
  exact ⟨h, hrenders 65535 (by decide) h⟩

end RomScript
