import Mathlib.Algebra.Group.Nat.Defs
import RomScript.Text.Hex
import RomScript.Text.Number

/-!
# Texts that tell themselves apart

Digits are read back to the number they were written from, so two numbers of one width
with the same digits are the same. From there, a text can be cancelled at the front of a
longer one: a number of fixed width in front of anything, a decimal number in front of
anything but a digit, and a braced list in front of anything, once its items can be
cancelled in front of the separator and the closing brace.
-/

set_option autoImplicit false

namespace RomScript

theorem digitValue?_digitChar {base d : Nat} (hd : d < base) (hbase : base ≤ 16) :
    digitValue? base d.digitChar = some d := by
  have hvalue : ∀ d < 16, digitValue? 16 d.digitChar = some d := by decide
  have h := hvalue d (by omega)
  simp only [digitValue?, Option.filter_eq_some_iff, decide_eq_true_eq] at h ⊢
  exact ⟨h.1, hd⟩

theorem positional?_toDigits {base : Nat} (hone : 1 < base) (hbase : base ≤ 16) (n : Nat) :
    positional? base 0 (Nat.toDigits base n) = some n := by
  induction n using Nat.strongRecOn with
  | ind n ih =>
    rcases Nat.lt_or_ge n base with hn | hn
    · simp [Nat.toDigits_of_lt_base hn, positional?, digitValue?_digitChar hn hbase]
    · have hdigit := digitValue?_digitChar (Nat.mod_lt n (Nat.zero_lt_of_lt hone)) hbase
      rw [Nat.toDigits_of_base_le hone hn, positional?_append,
        ih (n / base) (Nat.div_lt_self (by omega) hone)]
      simp [positional?, hdigit, Nat.div_add_mod']

theorem positional?_zeros {base : Nat} (hbase : 0 < base) (k : Nat) :
    positional? base 0 (List.replicate k '0') = some 0 := by
  induction k with
  | zero => rfl
  | succ k ih =>
    have hzero : digitValue? base '0' = some 0 := by
      simp [digitValue?, Option.filter_eq_some_iff, hbase]
    simpa [List.replicate_succ, positional?, hzero] using ih

theorem positional?_hexDigits (width n : Nat) :
    positional? 16 0 (hexDigits width n) = some n := by
  rw [hexDigits, positional?_append, positional?_zeros (Nat.zero_lt_succ 15), Option.bind_some]
  exact positional?_toDigits (by omega) (Nat.le_refl 16) n

theorem hexDigits_inj {width m n : Nat} : hexDigits width m = hexDigits width n ↔ m = n := by
  refine ⟨fun h => ?_, fun h => h ▸ rfl⟩
  have hread := congrArg (positional? 16 0) h
  simpa only [positional?_hexDigits, Option.some.injEq] using hread

theorem length_hexDigits_of_lt {width n : Nat} (h : n < 16 ^ width) (hwidth : 0 < width) :
    (hexDigits width n).length = width := by
  have hle := (Nat.length_toDigits_le_iff (by omega) hwidth).mpr h
  rw [length_hexDigits, Nat.max_eq_left hle]

theorem hex_append_inj {width m n : Nat} {r s : String} (hwidth : 0 < width)
    (hm : m < 16 ^ width) (hn : n < 16 ^ width) :
    hex width m ++ r = hex width n ++ s ↔ m = n ∧ r = s := by
  refine ⟨fun h => ?_, fun ⟨hmn, hrs⟩ => hmn ▸ hrs ▸ rfl⟩
  have hlist := congrArg String.toList h
  simp only [String.toList_append, toList_hex] at hlist
  have hlength : (hexDigits width m).length = (hexDigits width n).length := by
    rw [length_hexDigits_of_lt hm hwidth, length_hexDigits_of_lt hn hwidth]
  obtain ⟨hdigits, hrest⟩ := List.append_inj hlist hlength
  exact ⟨hexDigits_inj.mp hdigits, String.toList_inj.mp hrest⟩

theorem hexLit_append_inj {width m n : Nat} {r s : String} (hwidth : 0 < width)
    (hm : m < 16 ^ width) (hn : n < 16 ^ width) :
    hexLit width m ++ r = hexLit width n ++ s ↔ m = n ∧ r = s := by
  simp only [hexLit, String.append_assoc, String.append_right_inj, hex_append_inj hwidth hm hn]

/-- Two texts with one mark behind them are split at the first character that is not theirs. -/
theorem append_inj_of_head {p : Char → Bool} {x y r s : List Char} (hx : ∀ c ∈ x, p c = true)
    (hy : ∀ c ∈ y, p c = true) (hr : ∀ c ∈ r.head?, p c = false)
    (hs : ∀ c ∈ s.head?, p c = false) (h : x ++ r = y ++ s) : x = y ∧ r = s := by
  have hrest {t : List Char} (ht : ∀ c ∈ t.head?, p c = false) : t.takeWhile p = [] := by
    cases t with
    | nil => rfl
    | cons c cs => simp [ht c rfl]
  have hfront := congrArg (List.takeWhile p) h
  rw [List.takeWhile_append_of_pos hx, List.takeWhile_append_of_pos hy, hrest hr, hrest hs,
    List.append_nil, List.append_nil] at hfront
  subst hfront
  exact ⟨rfl, List.append_cancel_left h⟩

theorem append_ne_of_not_prefix {a b : String}
    (h : ¬(a.toList <+: b.toList ∨ b.toList <+: a.toList)) (r s : String) : a ++ r ≠ b ++ s := by
  intro heq
  have ha : a.toList <+: (b ++ s).toList := by
    rw [← heq, String.toList_append]
    exact List.prefix_append _ _
  have hb : b.toList <+: (b ++ s).toList := by
    rw [String.toList_append]
    exact List.prefix_append _ _
  exact h (List.prefix_or_prefix_of_prefix ha hb)

/-- The text begins with no digit, not even with a hexadecimal one. -/
def Bare (text : String) : Prop := ∀ c ∈ text.toList.head?, (digitValue? 16 c).isSome = false

instance (text : String) : Decidable (Bare text) :=
  decidable_of_iff ((text.toList.head?.all fun c => (digitValue? 16 c).isNone) = true)
    (by cases h : text.toList.head? <;> simp [Bare, h])

theorem bare_append {front rest : String} (h : Bare front) (hne : front ≠ "") :
    Bare (front ++ rest) := by
  have hne' : front.toList ≠ [] := fun hnil => hne (String.toList_eq_nil_iff.mp hnil)
  obtain ⟨c, cs, hcs⟩ := List.exists_cons_of_ne_nil hne'
  simpa [Bare, hcs] using h

theorem isSome_of_mem_toDigits {base n : Nat} {c : Char} (hone : 1 < base) (hbase : base ≤ 16)
    (h : c ∈ Nat.toDigits base n) : (digitValue? 16 c).isSome = true := by
  have hdigit {d : Nat} (hd : d < base) : (digitValue? 16 d.digitChar).isSome = true := by
    rw [digitValue?_digitChar (Nat.lt_of_lt_of_le hd hbase) (Nat.le_refl 16), Option.isSome_some]
  induction n using Nat.strongRecOn with
  | ind n ih =>
    rcases Nat.lt_or_ge n base with hn | hn
    · rw [Nat.toDigits_of_lt_base hn, List.mem_singleton] at h
      exact h ▸ hdigit hn
    · rw [Nat.toDigits_of_base_le hone hn, List.mem_append, List.mem_singleton] at h
      obtain h | rfl := h
      · exact ih (n / base) (Nat.div_lt_self (by omega) hone) h
      · exact hdigit (Nat.mod_lt n (Nat.zero_lt_of_lt hone))

theorem isSome_of_mem_hexDigits {width n : Nat} {c : Char} (h : c ∈ hexDigits width n) :
    (digitValue? 16 c).isSome = true := by
  rw [hexDigits, List.mem_append] at h
  obtain h | h := h
  · obtain ⟨-, rfl⟩ := List.mem_replicate.mp h
    decide
  · exact isSome_of_mem_toDigits (by omega) (Nat.le_refl 16) h

/-- A number that may outgrow its width ends where the digits end. -/
theorem hexLit_append_inj_of_bare {width m n : Nat} {r s : String} (hr : Bare r) (hs : Bare s) :
    hexLit width m ++ r = hexLit width n ++ s ↔ m = n ∧ r = s := by
  refine ⟨fun h => ?_, fun ⟨hmn, hrs⟩ => hmn ▸ hrs ▸ rfl⟩
  simp only [hexLit, String.append_assoc, String.append_right_inj] at h
  have hlist := congrArg String.toList h
  simp only [String.toList_append, toList_hex] at hlist
  obtain ⟨hdigits, hrest⟩ := append_inj_of_head (fun _ => isSome_of_mem_hexDigits)
    (fun _ => isSome_of_mem_hexDigits) hr hs hlist
  exact ⟨hexDigits_inj.mp hdigits, String.toList_inj.mp hrest⟩

theorem toDigits_ten_inj {m n : Nat} : Nat.toDigits 10 m = Nat.toDigits 10 n ↔ m = n := by
  refine ⟨fun h => ?_, fun h => h ▸ rfl⟩
  have hread := congrArg (positional? 10 0) h
  simpa only [positional?_toDigits (by omega : 1 < 10) (by omega : 10 ≤ 16),
    Option.some.injEq] using hread

theorem decimal_append_inj {m n : Nat} {r s : String} (hr : Bare r) (hs : Bare s) :
    m.repr ++ r = n.repr ++ s ↔ m = n ∧ r = s := by
  refine ⟨fun h => ?_, fun ⟨hmn, hrs⟩ => hmn ▸ hrs ▸ rfl⟩
  have hlist := congrArg String.toList h
  simp only [String.toList_append, Nat.repr_eq_ofList_toDigits, String.toList_ofList] at hlist
  have hdigit (k : Nat) : ∀ c ∈ Nat.toDigits 10 k, (digitValue? 16 c).isSome = true :=
    fun _ => isSome_of_mem_toDigits (by omega) (by omega)
  obtain ⟨hdigits, hrest⟩ := append_inj_of_head (hdigit m) (hdigit n) hr hs hlist
  exact ⟨toDigits_ten_inj.mp hdigits, String.toList_inj.mp hrest⟩

@[simp] theorem decimal_inj {m n : Nat} : m.repr = n.repr ↔ m = n := by
  have hbare : Bare "" := by decide
  have happend := decimal_append_inj (m := m) (n := n) hbare hbare
  rwa [String.append_empty, String.append_empty, and_iff_left rfl] at happend

theorem exists_digit_first (n : Nat) :
    ∃ c ∈ n.repr.toList.head?, (digitValue? 16 c).isSome = true := by
  obtain ⟨c, cs, hcs⟩ := List.exists_cons_of_ne_nil (Nat.toDigits_ne_nil (n := n) (b := 10))
  have hc : c ∈ Nat.toDigits 10 n := by simp [hcs]
  exact ⟨c, by simp [Nat.repr_eq_ofList_toDigits, hcs],
    isSome_of_mem_toDigits (by omega) (by omega) hc⟩

theorem not_bare_hex_append {width : Nat} (h : 0 < width) (n : Nat) (t : String) :
    ¬Bare (hex width n ++ t) := by
  have hne : hexDigits width n ≠ [] := List.ne_nil_of_length_pos (by rw [length_hexDigits]; omega)
  obtain ⟨c, cs, hcs⟩ := List.exists_cons_of_ne_nil hne
  have hdigit : (digitValue? 16 c).isSome = true := isSome_of_mem_hexDigits (by rw [hcs]; simp)
  intro hbare
  have hnone := hbare c (by simp [hcs])
  rw [hdigit] at hnone
  cases hnone

section Lists

variable {α : Type} {f : α → String} {sep r s : String}

theorem inj_of_append (hf : ∀ {a b : α} {r s : String}, f a ++ r = f b ++ s ↔ a = b ∧ r = s)
    {a b : α} : f a = f b ↔ a = b := by
  simpa using hf (a := a) (b := b) (r := "") (s := "")

/-- The texts of two items can be told apart in front of anything but a digit. -/
def Cancels (f : α → String) : Prop :=
  ∀ ⦃a b : α⦄ ⦃r s : String⦄, Bare r → Bare s → f a ++ r = f b ++ s → a = b ∧ r = s

/-- No item and no separator stands where the list is closed. -/
structure Closes (f : α → String) (sep r : String) : Prop where
  bare : Bare r
  notSeparator : ∀ t, r ≠ sep ++ t
  notItem : ∀ a t, r ≠ f a ++ t

/-- No item stands where the list ends, and none behind a separator there. -/
structure Ends (f : α → String) (sep r : String) : Prop where
  bare : Bare r
  notNext : ∀ a t, r ≠ sep ++ (f a ++ t)
  notItem : ∀ a t, r ≠ f a ++ t

theorem Closes.ends (h : Closes f sep r) : Ends f sep r :=
  ⟨h.bare, fun _ _ => h.notSeparator _, h.notItem⟩

def separated (sep : String) (items : List String) : String :=
  String.join (items.map fun item => sep ++ item)

theorem separated_cons (sep item : String) (items : List String) :
    separated sep (item :: items) = sep ++ item ++ separated sep items := by
  simp [separated]

theorem intercalate_eq (sep item : String) (items : List String) :
    sep.intercalate (item :: items) = item ++ separated sep items := by
  induction items generalizing item with
  | nil => simp [separated]
  | cons next items ih =>
    rw [String.intercalate_cons_cons, ih, separated_cons]
    simp only [String.append_assoc]

theorem bare_separated (hsep : Bare sep) (hne : sep ≠ "") (hr : Bare r) (items : List String) :
    Bare (separated sep items ++ r) := by
  cases items with
  | nil => simpa [separated] using hr
  | cons item items =>
    rw [separated_cons, String.append_assoc, String.append_assoc]
    exact bare_append hsep hne

theorem separated_append_inj (hf : Cancels f) (hsep : Bare sep) (hne : sep ≠ "")
    (hr : Ends f sep r) (hs : Ends f sep s) {xs ys : List α}
    (h : separated sep (xs.map f) ++ r = separated sep (ys.map f) ++ s) : xs = ys ∧ r = s := by
  induction xs generalizing ys with
  | nil =>
    cases ys with
    | nil => exact ⟨rfl, by simpa [separated] using h⟩
    | cons y ys =>
      rw [List.map_cons, separated_cons, String.append_assoc, String.append_assoc] at h
      exact absurd (by simpa [separated] using h) (hr.notNext y _)
  | cons x xs ih =>
    rw [List.map_cons, separated_cons, String.append_assoc, String.append_assoc] at h
    cases ys with
    | nil => exact absurd (by simpa [separated] using h.symm) (hs.notNext x _)
    | cons y ys =>
      rw [List.map_cons, separated_cons, String.append_assoc, String.append_assoc,
        String.append_right_inj] at h
      obtain ⟨rfl, hrest⟩ := hf (bare_separated hsep hne hr.bare _)
        (bare_separated hsep hne hs.bare _) h
      obtain ⟨rfl, hrs⟩ := ih hrest
      exact ⟨rfl, hrs⟩

theorem intercalate_append_inj (hf : Cancels f) (hsep : Bare sep) (hne : sep ≠ "")
    (hr : Ends f sep r) (hs : Ends f sep s) {xs ys : List α} :
    sep.intercalate (xs.map f) ++ r = sep.intercalate (ys.map f) ++ s ↔ xs = ys ∧ r = s := by
  refine ⟨fun h => ?_, fun ⟨hxs, hrs⟩ => hxs ▸ hrs ▸ rfl⟩
  cases xs with
  | nil =>
    cases ys with
    | nil => exact ⟨rfl, by simpa using h⟩
    | cons y ys =>
      rw [List.map_cons, intercalate_eq, String.append_assoc] at h
      exact absurd (by simpa using h) (hr.notItem y _)
  | cons x xs =>
    rw [List.map_cons, intercalate_eq, String.append_assoc] at h
    cases ys with
    | nil => exact absurd (by simpa using h.symm) (hs.notItem x _)
    | cons y ys =>
      rw [List.map_cons, intercalate_eq, String.append_assoc] at h
      obtain ⟨rfl, hrest⟩ := hf (bare_separated hsep hne hr.bare _)
        (bare_separated hsep hne hs.bare _) h
      obtain ⟨rfl, hrs⟩ := separated_append_inj hf hsep hne hr hs hrest
      exact ⟨rfl, hrs⟩

end Lists

end RomScript
