import RomScript.Image.Entries

/-!
# Which reads succeed

A read succeeds exactly when its last byte is inside the image, so whether a chain of
reads succeeds depends on their places alone and not on what is read. Except for the
number of elements, a list of reads is treated as its last element.
-/

set_option autoImplicit false

namespace RomScript

section Except

variable {ε α β : Type}

theorem bind_eq_ok_iff {first : Except ε α} {next : α → Except ε β} {result : β} :
    first >>= next = .ok result ↔ ∃ value, first = .ok value ∧ next value = .ok result := by
  cases first <;> simp [Bind.bind, Except.bind]

@[simp] theorem exists_bind_eq_ok_iff {first : Except ε α} {next : α → Except ε β} :
    (∃ result, first >>= next = .ok result) ↔
      ∃ value, first = .ok value ∧ ∃ result, next value = .ok result := by
  cases first <;> simp [Bind.bind, Except.bind]

@[simp] theorem forall_bind_eq_ok_iff {first : Except ε α} {next : α → Except ε β}
    {P : β → Prop} :
    (∀ result, first >>= next = .ok result → P result) ↔
      ∀ value, first = .ok value → ∀ result, next value = .ok result → P result := by
  cases first <;> simp [Bind.bind, Except.bind]

@[simp] theorem exists_map_eq_ok_iff {f : α → β} {first : Except ε α} :
    (∃ result, f <$> first = .ok result) ↔ ∃ value, first = .ok value := by
  cases first <;> simp [Functor.map, Except.map]

@[simp] theorem pure_eq_ok_iff {value result : α} :
    (pure value : Except ε α) = .ok result ↔ value = result := by
  simp [pure, Except.pure]

theorem map_eq_ok_iff {f : α → β} {first : Except ε α} {result : β} :
    first.map f = .ok result ↔ ∃ value, first = .ok value ∧ f value = result := by
  cases first <;> simp [Except.map]

theorem eq_ok_of_toOption {result : Except ε α} {value : α} (h : result.toOption = some value) :
    result = .ok value := by
  cases result with
  | error cause => cases h
  | ok found => exact congrArg Except.ok (Option.some.inj h)

@[simp] theorem exists_mapM_eq_ok_iff (f : α → Except ε β) (items : List α) :
    (∃ results, items.mapM f = .ok results) ↔ ∀ item ∈ items, ∃ result, f item = .ok result := by
  induction items with
  | nil => simp
  | cons item rest ih =>
    simp only [List.mapM_cons, bind_eq_ok_iff, List.mem_cons, forall_eq_or_imp, ← ih]
    constructor
    · rintro ⟨_, result, hr, results, hrs, -⟩
      exact ⟨⟨result, hr⟩, ⟨results, hrs⟩⟩
    · rintro ⟨⟨result, hr⟩, ⟨results, hrs⟩⟩
      exact ⟨_, result, hr, results, hrs, rfl⟩

theorem length_of_mapM {f : α → Except ε β} {items : List α} {results : List β}
    (h : items.mapM f = .ok results) : results.length = items.length := by
  induction items generalizing results with
  | nil =>
    cases h
    rfl
  | cons item rest ih =>
    simp only [List.mapM_cons, bind_eq_ok_iff] at h
    obtain ⟨result, -, results', hrs, h⟩ := h
    cases h
    simp [ih hrs]

theorem getElem?_of_mapM {f : α → Except ε β} {items : List α} {results : List β}
    (h : items.mapM f = .ok results) {i : Nat} {item : α} (hi : items[i]? = some item) :
    ∃ result, f item = .ok result ∧ results[i]? = some result := by
  induction items generalizing results i with
  | nil => simp at hi
  | cons first rest ih =>
    simp only [List.mapM_cons, bind_eq_ok_iff] at h
    obtain ⟨result, hr, results', hrs, h⟩ := h
    cases h
    cases i with
    | zero =>
      obtain rfl := Option.some.inj hi
      exact ⟨result, hr, rfl⟩
    | succ i => exact ih hrs hi

end Except

namespace Rom

variable (rom : Rom) (offset : Nat)

theorem exists_byte_iff : (∃ b, rom.byte offset = .ok b) ↔ offset < rom.length := by
  simp only [byte_eq_ok_iff, Array.getElem?_eq_some_iff, length]
  exact ⟨fun ⟨_, h, _⟩ => h, fun h => ⟨_, h, rfl⟩⟩

theorem exists_word_iff : (∃ w, rom.word offset = .ok w) ↔ offset + 2 ≤ rom.length := by
  unfold word length
  split
  · rename_i b0 b1 h0 h1
    simp only [Except.ok.injEq, exists_eq', true_iff]
    have := (Array.getElem?_eq_some_iff.mp h1).1
    omega
  · rename_i h
    simp only [reduceCtorEq, exists_false, false_iff]
    intro hb
    exact h _ _ (Array.getElem?_eq_getElem (by omega)) (Array.getElem?_eq_getElem (by omega))

theorem exists_dword_iff : (∃ d, rom.dword offset = .ok d) ↔ offset + 4 ≤ rom.length := by
  unfold dword length
  split
  · rename_i b0 b1 b2 b3 h0 h1 h2 h3
    simp only [Except.ok.injEq, exists_eq', true_iff]
    have := (Array.getElem?_eq_some_iff.mp h3).1
    omega
  · rename_i h
    simp only [reduceCtorEq, exists_false, false_iff]
    intro hb
    exact h _ _ _ _ (Array.getElem?_eq_getElem (by omega)) (Array.getElem?_eq_getElem (by omega))
      (Array.getElem?_eq_getElem (by omega)) (Array.getElem?_eq_getElem (by omega))

theorem exists_slice_iff (count : Nat) :
    (∃ bytes, rom.slice offset count = .ok bytes) ↔ offset + count ≤ rom.length := by
  unfold slice
  split <;> simp_all

/-! A refused read tells where it was, how wide it was, and how long the image is. -/

variable {cause : ImageError}

theorem byte_refused (h : rom.byte offset = .error cause) : cause = rom.outside offset 1 := by
  unfold byte at h
  split at h
  · cases h
  · exact (Except.error.inj h).symm

theorem word_refused (h : rom.word offset = .error cause) : cause = rom.outside offset 2 := by
  unfold word at h
  split at h
  · cases h
  · exact (Except.error.inj h).symm

theorem dword_refused (h : rom.dword offset = .error cause) : cause = rom.outside offset 4 := by
  unfold dword at h
  split at h
  · cases h
  · exact (Except.error.inj h).symm

theorem slice_refused {count : Nat} (h : rom.slice offset count = .error cause) :
    cause = rom.outside offset count := by
  unfold slice at h
  split at h
  · cases h
  · exact (Except.error.inj h).symm

end Rom

namespace Image

theorem lt_length_of_byte {image : Image} {offset : Nat} {b : UInt8}
    (h : image.byte offset = .ok b) : offset < image.length :=
  (Rom.exists_byte_iff image.rom offset).mp ⟨b, h⟩

/-! ## Entries -/

variable (image : Image)

theorem exists_entryOffset_iff (id : TableId) (index size : Nat) (P : Nat → Prop) :
    (∃ offset, image.entryOffset id index size = .ok offset ∧ P offset) ↔
      ∃ base, image.directory.get? id = some base ∧ P (base.toNat + index * size) := by
  simp only [entryOffset, bind_eq_ok_iff, pure_eq_ok_iff, table]
  cases image.directory.get? id <;> simp

@[simp] theorem exists_byte_iff (offset : Nat) :
    (∃ b, image.byte offset = .ok b) ↔ offset < image.length :=
  Rom.exists_byte_iff image.rom offset

@[simp] theorem exists_word_iff (offset : Nat) :
    (∃ w, image.word offset = .ok w) ↔ offset + 2 ≤ image.length :=
  Rom.exists_word_iff image.rom offset

@[simp] theorem exists_dword_iff (offset : Nat) :
    (∃ d, image.dword offset = .ok d) ↔ offset + 4 ≤ image.length :=
  Rom.exists_dword_iff image.rom offset

def HasEntry (id : TableId) (index size : Nat) : Prop :=
  ∃ base, image.directory.get? id = some base ∧ base.toNat + index * size + size ≤ image.length

theorem exists_condition_iff (index : UInt8) :
    (∃ entry, image.condition index = .ok entry) ↔
      image.HasEntry .conditions index.toNat 12 := by
  simp only [condition, exists_bind_eq_ok_iff, pure_eq_ok_iff, exists_eq', and_true,
    exists_and_right, exists_dword_iff, exists_entryOffset_iff]
  refine exists_congr fun base => and_congr_right fun _ => ?_
  omega

theorem exists_ioCondition_iff (index : UInt8) :
    (∃ entry, image.ioCondition index = .ok entry) ↔
      image.HasEntry .ioConditions index.toNat 5 := by
  simp only [ioCondition, exists_bind_eq_ok_iff, pure_eq_ok_iff, exists_eq', and_true,
    exists_and_right, exists_byte_iff, exists_word_iff, exists_entryOffset_iff]
  refine exists_congr fun base => and_congr_right fun _ => ?_
  omega

theorem exists_ioFlagCondition_iff (index : UInt8) :
    (∃ entry, image.ioFlagCondition index = .ok entry) ↔
      image.HasEntry .ioFlagConditions index.toNat 9 := by
  simp only [ioFlagCondition, exists_bind_eq_ok_iff, pure_eq_ok_iff, exists_eq', and_true,
    exists_and_right, exists_byte_iff, exists_word_iff, exists_entryOffset_iff]
  refine exists_congr fun base => and_congr_right fun _ => ?_
  omega

theorem of_memInitEntry {index : UInt8} {entry : MemInitEntry}
    (h : image.memInitEntry index = .ok entry) :
    ∃ base, image.directory.get? .memInit = some base ∧
      entry.offset = base.toNat + index.toNat * 66 ∧ image.byte entry.offset = .ok entry.flags := by
  simp only [memInitEntry, entryOffset, table, bind_eq_ok_iff, pure_eq_ok_iff] at h
  obtain ⟨offset, ⟨start, hstart, rfl⟩, flags, hflags, mpll, -, nvpll, -, rfl⟩ := h
  cases hb : image.directory.get? .memInit with
  | none => simp [hb] at hstart
  | some base =>
    obtain rfl : base.toNat = start := by simpa [hb] using hstart
    exact ⟨base, rfl, rfl, hflags⟩

theorem exists_memInitEntry_iff (index : UInt8) :
    (∃ entry, image.memInitEntry index = .ok entry) ↔
      ∃ base, image.directory.get? .memInit = some base ∧
        base.toNat + index.toNat * 66 + 6 ≤ image.length := by
  simp only [memInitEntry, exists_bind_eq_ok_iff, pure_eq_ok_iff, exists_eq', and_true,
    exists_and_right, exists_byte_iff, exists_word_iff, exists_entryOffset_iff]
  refine exists_congr fun base => and_congr_right fun _ => ?_
  omega

end Image

end RomScript
