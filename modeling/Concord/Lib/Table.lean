import Mathlib.Data.List.AList

/-!
# Concord.Lib.Table

Hash tables, as association lists with one entry per key.  Lookup and
insertion are Mathlib's; what is added is `retain`, which keeps the entries
that pass a test, and the size of a table.
-/

/-- A table from `K` to `V`. -/
abbrev Table (K V : Type*) := AList (fun _ : K => V)

namespace Table

variable {K V : Type*} [DecidableEq K]

/-- The number of entries. -/
def size (table : Table K V) : Nat := table.entries.length

omit [DecidableEq K] in
/-- An empty table. -/
@[simp] theorem size_empty : size (∅ : Table K V) = 0 := rfl

/-- Keep the entries that pass a test. -/
def retain (keep : K → V → Bool) (table : Table K V) : Table K V where
  entries := table.entries.filter (fun entry => keep entry.1 entry.2)
  nodupKeys := table.nodupKeys.sublist List.filter_sublist

/-- What is retained is looked up as before. -/
theorem lookup_retain (keep : K → V → Bool) (table : Table K V) (key : K) :
    (table.retain keep).lookup key = (table.lookup key).filter (keep key) := by
  ext value
  rw [← Option.mem_def, AList.mem_lookup_iff, retain, List.mem_filter, Option.filter_eq_some_iff,
    ← Option.mem_def, AList.mem_lookup_iff]

/-- An entry survives exactly when it passes the test. -/
theorem lookup_retain_eq_some {keep : K → V → Bool} {table : Table K V} {key : K} {value : V} :
    (table.retain keep).lookup key = some value ↔
      table.lookup key = some value ∧ keep key value = true := by
  rw [lookup_retain, Option.filter_eq_some_iff]

/-- A table that is to be kept is kept as it is. -/
theorem retain_eq_self {keep : K → V → Bool} {table : Table K V}
    (h : ∀ key value, table.lookup key = some value → keep key value = true) :
    table.retain keep = table := by
  apply AList.ext
  refine List.filter_eq_self.mpr (fun entry hmem => ?_)
  exact h entry.1 entry.2 (AList.mem_lookup_iff.mpr hmem)

/-- Erase the keys of a list. -/
def eraseAll (table : Table K V) (keys : List K) : Table K V :=
  keys.foldl (fun table key => table.erase key) table

/-- Erased keys are gone, the others stay. -/
theorem lookup_eraseAll (table : Table K V) (keys : List K) (key : K) :
    (table.eraseAll keys).lookup key = if key ∈ keys then none else table.lookup key := by
  unfold eraseAll
  induction keys generalizing table with
  | nil => rfl
  | cons first keys ih =>
      rw [List.foldl_cons, ih]
      by_cases hrest : key ∈ keys
      · rw [if_pos hrest, if_pos (List.mem_cons_of_mem _ hrest)]
      · by_cases hfirst : key = first
        · subst hfirst
          rw [if_neg hrest, if_pos List.mem_cons_self, AList.lookup_erase]
        · have hnot : key ∉ first :: keys := by simp [hfirst, hrest]
          rw [if_neg hrest, if_neg hnot, AList.lookup_erase_ne hfirst]

/-- What is left after erasing. -/
theorem lookup_eraseAll_eq_some {table : Table K V} {keys : List K} {key : K} {value : V} :
    (table.eraseAll keys).lookup key = some value ↔
      key ∉ keys ∧ table.lookup key = some value := by
  rw [lookup_eraseAll]
  by_cases hmem : key ∈ keys
  · simp [hmem]
  · simp [hmem]

/-- A key in the table has its value. -/
theorem mem_iff_exists_lookup {table : Table K V} {key : K} :
    key ∈ table ↔ ∃ value, table.lookup key = some value := by
  rw [← AList.lookup_isSome, Option.isSome_iff_exists]

/-! ## size -/

omit [DecidableEq K] in
/-- As many keys as entries. -/
theorem length_keys (table : Table K V) : table.keys.length = table.size := by
  unfold AList.keys List.keys size
  rw [List.length_map]

omit [DecidableEq K] in
/-- A table whose keys are listed is no larger than the list. -/
theorem size_le_of_subset {table : Table K V} {keys : List K} (h : ∀ key ∈ table, key ∈ keys) :
    table.size ≤ keys.length := by
  have hsubset : table.keys ⊆ keys := fun key hmem => h key (AList.mem_keys.mpr hmem)
  rw [← length_keys]
  exact (List.subperm_of_subset table.keys_nodup hsubset).length_le

/-- A new value for an old key adds no entry. -/
theorem size_insert_of_mem {table : Table K V} {key : K} (h : key ∈ table) (value : V) :
    size (table.insert key value) ≤ table.size := by
  have hsubset : ∀ other ∈ table.insert key value, other ∈ table.keys := by
    intro other hmem
    cases (AList.mem_insert _).mp hmem with
    | inl heq => exact heq ▸ AList.mem_keys.mp h
    | inr hold => exact AList.mem_keys.mp hold
  rw [← length_keys table]
  exact size_le_of_subset hsubset

/-- An insertion adds one entry at most. -/
theorem size_insert_le (table : Table K V) (key : K) (value : V) :
    size (table.insert key value) ≤ table.size + 1 := by
  have hsubset : ∀ other ∈ table.insert key value, other ∈ key :: table.keys := by
    intro other hmem
    cases (AList.mem_insert _).mp hmem with
    | inl heq => exact heq ▸ List.mem_cons_self
    | inr hold => exact List.mem_cons_of_mem _ (AList.mem_keys.mp hold)
  rw [← length_keys table]
  exact size_le_of_subset hsubset

omit [DecidableEq K] in
/-- A table is smaller than a list of keys that has one more. -/
theorem size_lt_of_subset {table : Table K V} {keys : List K} (h : ∀ key ∈ table, key ∈ keys)
    {key : K} (hkey : key ∈ keys) (hnew : key ∉ table) : table.size < keys.length := by
  have hnodup : (key :: table.keys).Nodup :=
    List.nodup_cons.mpr ⟨fun hmem => hnew (AList.mem_keys.mpr hmem), table.keys_nodup⟩
  have hsubset : key :: table.keys ⊆ keys := by
    intro other hmem
    cases List.mem_cons.mp hmem with
    | inl heq => exact heq ▸ hkey
    | inr hmem => exact h other (AList.mem_keys.mpr hmem)
  have hlength := (List.subperm_of_subset hnodup hsubset).length_le
  rw [List.length_cons, length_keys] at hlength
  exact hlength

end Table
