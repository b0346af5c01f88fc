import Mathlib.Logic.Basic

/-!
# Concord.Lib.Multimap

Maps with several values for a key, such as the headers of a message.  The
values of one key are in order; the order of the keys means nothing, so two
maps are the same if `getAll` is.
-/

/-- The entries of a map, each key with one of its values. -/
structure Multimap (K V : Type*) where
  entries : List (K × V)
  deriving DecidableEq, Repr

namespace Multimap

variable {K V : Type*}

def empty : Multimap K V := ⟨[]⟩

/-- One more value of a key. -/
def append (map : Multimap K V) (key : K) (value : V) : Multimap K V :=
  ⟨map.entries ++ [(key, value)]⟩

variable [DecidableEq K]

/-- The values of a key. -/
def getAll (map : Multimap K V) (key : K) : List V :=
  (map.entries.filter (·.1 = key)).map (·.2)

def get (map : Multimap K V) (key : K) : Option V := (map.getAll key).head?

def containsKey (map : Multimap K V) (key : K) : Bool := map.entries.any (·.1 = key)

/-- Replace the values of a key by one. -/
def insert (map : Multimap K V) (key : K) (value : V) : Multimap K V :=
  ⟨map.entries.filter (·.1 ≠ key) ++ [(key, value)]⟩

def remove (map : Multimap K V) (key : K) : Multimap K V :=
  ⟨map.entries.filter (·.1 ≠ key)⟩

/-- Replace the values of every key of `map'` by those of `map'`. -/
def override (map map' : Multimap K V) : Multimap K V :=
  ⟨map.entries.filter (fun entry => ¬ map'.containsKey entry.1) ++ map'.entries⟩

/-! ## what operations leave -/

variable {map map' : Multimap K V} {key key' : K} {value : V}

theorem filter_ne_of_ne (entries : List (K × V)) (h : key' ≠ key) :
    (entries.filter (·.1 ≠ key)).filter (·.1 = key') = entries.filter (·.1 = key') := by
  rw [List.filter_filter]
  refine List.filter_congr fun entry _ => ?_
  by_cases hkey : entry.1 = key'
  · simp [hkey, h]
  · simp [hkey]

@[simp] theorem getAll_insert_self : (map.insert key value).getAll key = [value] := by
  simp [getAll, insert]

theorem getAll_insert_of_ne (h : key' ≠ key) :
    (map.insert key value).getAll key' = map.getAll key' := by
  have hne : ¬ key = key' := fun he => h he.symm
  simp only [getAll, insert, List.filter_append, filter_ne_of_ne map.entries h]
  simp [hne]

@[simp] theorem getAll_remove_self : (map.remove key).getAll key = [] := by
  simp [getAll, remove]

theorem getAll_remove_of_ne (h : key' ≠ key) :
    (map.remove key).getAll key' = map.getAll key' := by
  simp only [getAll, remove, filter_ne_of_ne map.entries h]

theorem containsKey_eq_false_iff : map.containsKey key = false ↔ map.getAll key = [] := by
  simp [containsKey, getAll, List.filter_eq_nil_iff]

/-- The values of the second map, if it has any. -/
theorem getAll_override :
    (map.override map').getAll key =
      if map'.containsKey key then map'.getAll key else map.getAll key := by
  have hfilter : (map.entries.filter (fun entry => ¬ map'.containsKey entry.1)).filter
      (·.1 = key) = if map'.containsKey key then [] else map.entries.filter (·.1 = key) := by
    rw [List.filter_filter]
    split
    · next hkey =>
        rw [List.filter_eq_nil_iff]
        rintro entry _
        by_cases hentry : entry.1 = key <;> simp [hentry, hkey]
    · next hkey =>
        refine List.filter_congr fun entry _ => ?_
        by_cases hentry : entry.1 = key <;> simp [hentry, hkey]
  have happend : (map.override map').getAll key =
      ((map.entries.filter (fun entry => ¬ map'.containsKey entry.1)).filter (·.1 = key)).map
        (·.2) ++ map'.getAll key := by
    simp only [getAll, override, List.filter_append, List.map_append]
  rw [happend, hfilter]
  split
  · simp
  · next hkey =>
      rw [Bool.not_eq_true, containsKey_eq_false_iff] at hkey
      rw [hkey, List.append_nil, getAll]

/-- A key that only one of two maps has keeps its values. -/
theorem getAll_override_of_not_mem (h : map.containsKey key = false) :
    (map.override map').getAll key = map'.getAll key := by
  rw [getAll_override]
  split
  · rfl
  · next hkey =>
      rw [Bool.not_eq_true, containsKey_eq_false_iff] at hkey
      rw [hkey, containsKey_eq_false_iff.mp h]

end Multimap
