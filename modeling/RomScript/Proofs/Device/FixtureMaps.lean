import Mathlib.Data.List.Induction
import RomScript.OrderedMap

/-!
# Maps filled from lists

A map is filled from a list item by item, and what it holds in the end for a key comes from the
last item that gives something for the key. A map with an order keeps each key where it first
stood in the list.
-/

set_option autoImplicit false

namespace RomScript

def lastOf {ι β : Type} (pick : ι → Option β) (items : List ι) : Option β :=
  items.reverse.findSome? pick

section Last

variable {ι β γ μ : Type}

theorem lastOf_cons (pick : ι → Option β) (item : ι) (rest : List ι) :
    lastOf pick (item :: rest) = (lastOf pick rest).or (pick item) := by
  rw [lastOf, List.reverse_cons, List.findSome?_append, List.findSome?_singleton]
  rfl

theorem lastOf_eq_none_iff (pick : ι → Option β) (items : List ι) :
    lastOf pick items = none ↔ ∀ item ∈ items, pick item = none := by
  simp [lastOf, List.findSome?_eq_none_iff]

theorem isSome_lastOf_iff (pick : ι → Option β) (items : List ι) :
    (lastOf pick items).isSome = true ↔ ∃ item ∈ items, (pick item).isSome = true := by
  rw [← not_iff_not, Bool.not_eq_true, Option.isSome_eq_false_iff, Option.isNone_iff_eq_none,
    lastOf_eq_none_iff]
  simp

/-- An item that is put overrides, in what is seen of the whole, the items put before it. -/
theorem view_foldl (view : μ → Option β) (put : μ → ι → μ) (pick : ι → Option β) (items : List ι)
    (h : ∀ whole, ∀ item ∈ items, view (put whole item) = (pick item).or (view whole))
    (whole : μ) : view (items.foldl put whole) = (lastOf pick items).or (view whole) := by
  -- Items further back in the list are put later, so they are asked first.
  induction items generalizing whole with
  | nil => rfl
  | cons item rest ih =>
    rw [List.foldl_cons, ih fun whole item hitem => h whole item (List.mem_cons_of_mem _ hitem),
      h whole item List.mem_cons_self, lastOf_cons, Option.or_assoc]

end Last

namespace OrderedMap

variable {κ α β : Type} [DecidableEq κ]

/-- The map is what a document's pairs come to: each key where it first stands, with the value
that it is given last. -/
structure Collapses (pairs : List (κ × α)) (map : OrderedMap κ α) : Prop where
  keys : map.keys = (pairs.map Prod.fst).eraseDups
  get? : ∀ key, map.get? key = lastOf (fun pair => if pair.1 = key then some pair.2 else none) pairs

theorem ofList_concat (pairs : List (κ × α)) (pair : κ × α) :
    ofList (pairs ++ [pair]) = (ofList pairs).insert pair.1 pair.2 := by
  rw [ofList, List.foldl_append]
  rfl

theorem collapses_ofList (pairs : List (κ × α)) : Collapses pairs (ofList pairs) := by
  refine ⟨?_, fun key => ?_⟩
  · induction pairs using List.reverseRecOn with
    | nil => rfl
    | append_singleton pairs pair ih =>
      rw [ofList_concat, keys_insert, ih, List.map_append, List.eraseDups_append]
      by_cases hmem : pair.1 ∈ pairs.map Prod.fst
      · have hnone : [pair.1].removeAll (pairs.map Prod.fst) = [] := by
          simpa [List.removeAll] using hmem
        rw [if_pos (List.mem_eraseDups.mpr hmem), List.map_singleton, hnone, List.eraseDups_nil,
          List.append_nil]
      · have hall : [pair.1].removeAll (pairs.map Prod.fst) = [pair.1] := by
          simpa [List.removeAll] using hmem
        rw [if_neg (mt List.mem_eraseDups.mp hmem), List.map_singleton, hall]
        rfl
  · refine (view_foldl (·.get? key) (fun map pair => map.insert pair.1 pair.2) _ pairs
      (fun map pair _ => ?_) empty).trans Option.or_none
    rw [get?_insert]
    by_cases hkey : pair.1 = key
    · rw [if_pos hkey, if_pos hkey, Option.some_or]
    · rw [if_neg hkey, if_neg hkey, Option.none_or]

/-- As each key stands once in a map, its entry is also the last one for it. -/
theorem lastOf_entries (map : OrderedMap κ α) (key : κ) (f : α → Option β) :
    lastOf (fun entry => if entry.1 = key then f entry.2 else none) map.entries =
      (map.get? key).bind f := by
  obtain ⟨entries, hnodup⟩ := map
  rw [get?]
  induction entries with
  | nil => rfl
  | cons entry rest ih =>
    obtain ⟨hfirst, hrest⟩ := List.nodup_cons.mp hnodup
    rw [lastOf_cons, findEntry]
    by_cases hkey : entry.1 = key
    · have hnone : lastOf (fun entry => if entry.1 = key then f entry.2 else none) rest = none := by
        refine (lastOf_eq_none_iff _ rest).mpr fun other hother => if_neg fun h => hfirst ?_
        exact List.mem_map.mpr ⟨other, hother, h.trans hkey.symm⟩
      rw [hnone, if_pos hkey, if_pos hkey, Option.none_or, Option.bind_some]
    · rw [ih hrest, if_neg hkey, if_neg hkey, Option.or_none]

/-! ## Changing a value -/

def modify (map : OrderedMap κ α) (key : κ) (start : α) (change : α → α) : OrderedMap κ α :=
  map.insert key (change ((map.get? key).getD start))

theorem get?_modify (map : OrderedMap κ α) (key other : κ) (start : α) (change : α → α) :
    (map.modify key start change).get? other =
      if key = other then some (change ((map.get? other).getD start)) else map.get? other := by
  rw [modify, get?_insert]
  by_cases h : key = other
  · rw [h]
  · rw [if_neg h, if_neg h]

theorem insert_insert (map : OrderedMap κ α) (key : κ) (first second : α) :
    (map.insert key first).insert key second = map.insert key second := by
  obtain ⟨entries, hnodup⟩ := map
  have hset : setEntry key second (setEntry key first entries) = setEntry key second entries := by
    clear hnodup
    induction entries with
    | nil => simp [setEntry]
    | cons entry rest ih =>
      by_cases hkey : entry.1 = key
      · simp [setEntry, hkey]
      · simp [setEntry, hkey, ih]
  simp only [insert, hset]

theorem modify_modify (map : OrderedMap κ α) (key : κ) (start : α) (first second : α → α) :
    (map.modify key start first).modify key start second =
      map.modify key start (second ∘ first) := by
  rw [modify, get?_modify, if_pos rfl, Option.getD_some, modify, insert_insert]
  rfl

theorem foldl_modify {ι : Type} (map : OrderedMap κ α) (key : κ) (start : α) (first : α → α)
    (change : α → ι → α) (items : List ι) :
    items.foldl (fun map item => map.modify key start (change · item))
        (map.modify key start first) =
      map.modify key start fun value => items.foldl change (first value) := by
  induction items generalizing first with
  | nil => rfl
  | cons item rest ih =>
    rw [List.foldl_cons, modify_modify, ih]
    rfl

section Modifies

variable {ι : Type} {keyOf : ι → κ} {start : α} {change : ι → α → α} {key : κ} {items : List ι}
  {named : ι → Prop} [DecidablePred named]

/-- What is seen of the value of a key comes from the last item that changes this value and gives
something for it. -/
theorem view_modifies (view : α → Option β) (pick : ι → Option β)
    (hkey : ∀ item ∈ items, (keyOf item = key ↔ named item))
    (hstart : ∀ item ∈ items, view (change item start) = pick item)
    (hchange : ∀ item ∈ items, ∀ value, view (change item value) = (pick item).or (view value)) :
    ((items.foldl (fun map item => map.modify (keyOf item) start (change item)) empty).get?
        key).bind view =
      lastOf (fun item => if named item then pick item else none) items := by
  refine (view_foldl (fun map : OrderedMap κ α => (map.get? key).bind view) _ _ items
    (fun map item hitem => ?_) empty).trans Option.or_none
  rw [get?_modify]
  by_cases hnamed : named item
  · rw [if_pos ((hkey item hitem).mpr hnamed), if_pos hnamed, Option.bind_some]
    cases map.get? key with
    | none => exact (hstart item hitem).trans Option.or_none.symm
    | some value => exact hchange item hitem value
  · rw [if_neg (mt (hkey item hitem).mp hnamed), if_neg hnamed, Option.none_or]

theorem isSome_modifies (hkey : ∀ item ∈ items, (keyOf item = key ↔ named item)) :
    ((items.foldl (fun map item => map.modify (keyOf item) start (change item)) empty).get?
        key).isSome = true ↔
      ∃ item ∈ items, named item := by
  let map := items.foldl (fun map item => map.modify (keyOf item) start (change item)) empty
  have hview : ((map.get? key).bind fun _ => some ()) =
      lastOf (fun item => if named item then some () else none) items :=
    view_modifies _ (fun _ => some ()) hkey (fun _ _ => rfl) fun _ _ _ => rfl
  have hsome : (map.get? key).isSome = ((map.get? key).bind fun _ => some ()).isSome := by
    cases map.get? key <;> rfl
  show (map.get? key).isSome = true ↔ _
  rw [hsome, hview, isSome_lastOf_iff]
  refine exists_congr fun item => and_congr_right fun _ => ?_
  by_cases hnamed : named item
  · simp [hnamed]
  · simp [hnamed]

end Modifies

end OrderedMap

end RomScript
