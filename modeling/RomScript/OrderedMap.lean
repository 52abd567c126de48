/-!
# Maps that keep their order

A map lists its keys in the order of their first insertion. Setting a key again
replaces its value where it stands. The view is `get?`; the list of entries is
what a listing prints.
-/

set_option autoImplicit false

namespace RomScript

variable {κ α : Type} [DecidableEq κ]

/-- The entries with `key` set: in its place if it is there, at the end if not. -/
def setEntry (key : κ) (value : α) : List (κ × α) → List (κ × α)
  | [] => [(key, value)]
  | entry :: rest =>
    if entry.1 = key then (key, value) :: rest else entry :: setEntry key value rest

def findEntry (key : κ) : List (κ × α) → Option α
  | [] => none
  | entry :: rest => if entry.1 = key then some entry.2 else findEntry key rest

theorem keys_setEntry (key : κ) (value : α) (entries : List (κ × α)) :
    (setEntry key value entries).map Prod.fst =
      if key ∈ entries.map Prod.fst then entries.map Prod.fst
      else entries.map Prod.fst ++ [key] := by
  induction entries with
  | nil => simp [setEntry]
  | cons entry rest ih =>
    by_cases h : entry.1 = key
    · simp [setEntry, h]
    · have hk : ¬ key = entry.1 := fun e => h e.symm
      simp only [setEntry, if_neg h, List.map_cons, ih, List.mem_cons, hk, false_or]
      split <;> simp

theorem findEntry_setEntry (key other : κ) (value : α) (entries : List (κ × α)) :
    findEntry other (setEntry key value entries) =
      if key = other then some value else findEntry other entries := by
  induction entries with
  | nil => simp [setEntry, findEntry]
  | cons entry rest ih =>
    by_cases h : entry.1 = key
    · subst h
      simp only [setEntry, if_pos, findEntry]
      split <;> simp_all
    · simp only [setEntry, if_neg h, findEntry, ih]
      by_cases ho : entry.1 = other
      · have hk : ¬ key = other := fun e => h (ho.trans e.symm)
        simp [ho, hk]
      · simp [ho]

/-- A map with its entries in the order of first insertion, each key once. -/
structure OrderedMap (κ α : Type) [DecidableEq κ] where
  entries : List (κ × α)
  nodup_keys : (entries.map Prod.fst).Nodup

namespace OrderedMap

def empty : OrderedMap κ α := ⟨[], List.nodup_nil⟩

instance : EmptyCollection (OrderedMap κ α) := ⟨empty⟩

instance : Inhabited (OrderedMap κ α) := ⟨empty⟩

def keys (map : OrderedMap κ α) : List κ := map.entries.map Prod.fst

def size (map : OrderedMap κ α) : Nat := map.entries.length

def get? (map : OrderedMap κ α) (key : κ) : Option α := findEntry key map.entries

def contains (map : OrderedMap κ α) (key : κ) : Bool := (map.get? key).isSome

def insert (map : OrderedMap κ α) (key : κ) (value : α) : OrderedMap κ α where
  entries := setEntry key value map.entries
  nodup_keys := by
    rw [keys_setEntry]
    split
    · exact map.nodup_keys
    · rename_i h
      rw [List.nodup_append]
      refine ⟨map.nodup_keys, by simp, ?_⟩
      intro a ha b hb
      rw [List.mem_singleton] at hb
      subst hb
      exact fun e => h (e ▸ ha)

/-- Later pairs replace the value of an equal key and leave it in its place. -/
def ofList (pairs : List (κ × α)) : OrderedMap κ α :=
  pairs.foldl (fun map pair => map.insert pair.1 pair.2) empty

theorem get?_insert (map : OrderedMap κ α) (key other : κ) (value : α) :
    (map.insert key value).get? other = if key = other then some value else map.get? other :=
  findEntry_setEntry key other value map.entries

@[simp] theorem get?_insert_self (map : OrderedMap κ α) (key : κ) (value : α) :
    (map.insert key value).get? key = some value := by
  rw [get?_insert, if_pos rfl]

theorem get?_insert_of_ne (map : OrderedMap κ α) {key other : κ} (value : α) (h : key ≠ other) :
    (map.insert key value).get? other = map.get? other := by
  rw [get?_insert, if_neg h]

theorem keys_insert (map : OrderedMap κ α) (key : κ) (value : α) :
    (map.insert key value).keys = if key ∈ map.keys then map.keys else map.keys ++ [key] :=
  keys_setEntry key value map.entries

end OrderedMap

end RomScript
