import Mathlib.Data.List.Basic
import Mathlib.Data.List.Induction
import Mathlib.Data.List.Nodup
import Mathlib.Logic.Function.Basic

/-!
# Concord.Lib.Keyed

Lists of elements with a key, and the maps they fill: `first` keeps the first
element of each key, `last` the last.
-/

namespace Keyed

variable {K α : Type*} [DecidableEq K] (key : α → K)

/-- Write an element at its key. -/
def insert (map : K → Option α) (x : α) : K → Option α := Function.update map (key x) (some x)

/-- The first element of each key. -/
def first (xs : List α) : K → Option α := fun k => xs.find? (key · = k)

/-- The last element of each key. -/
def last (xs : List α) : K → Option α := fun k => xs.reverse.find? (key · = k)

/-- The elements that are the first ones of their key, in order. -/
def keepFirst (xs : List α) : List α :=
  xs.foldl (fun kept x => if kept.any (fun prev => key prev = key x) then kept else kept ++ [x]) []

variable {key}

/-! ## the last element -/

/-- One more insertion. -/
theorem insert_last (xs : List α) (x : α) :
    insert key (last key xs) x = last key (xs ++ [x]) := by
  funext k
  unfold insert last
  rw [List.reverse_append, List.reverse_singleton, List.singleton_append, List.find?_cons]
  by_cases h : k = key x
  · simp [h]
  · have h' : ¬ key x = k := fun heq => h heq.symm
    simp [h, h']

/-- Inserting one element after the other keeps the last one of each key. -/
theorem foldl_insert (xs more : List α) :
    more.foldl (insert key) (last key xs) = last key (xs ++ more) := by
  induction more generalizing xs with
  | nil => rw [List.foldl_nil, List.append_nil]
  | cons x more ih =>
      rw [List.foldl_cons, insert_last, ih, List.append_assoc, List.singleton_append]

/-- The last element of a key is in the list. -/
theorem last_mem {xs : List α} {k : K} {x : α} (h : last key xs k = some x) : x ∈ xs :=
  List.mem_reverse.mp (List.mem_of_find?_eq_some h)

/-- And has the key. -/
theorem last_key {xs : List α} {k : K} {x : α} (h : last key xs k = some x) : key x = k := by
  have hfound := List.find?_some h
  simpa using hfound

/-- Every element's key has a last element. -/
theorem exists_last {xs : List α} {x : α} (hx : x ∈ xs) : ∃ y, last key xs (key x) = some y := by
  unfold last
  rw [← Option.isSome_iff_exists, List.find?_isSome]
  exact ⟨x, List.mem_reverse.mpr hx, decide_eq_true rfl⟩

/-- Where no key is there twice, an element is found at its key. -/
theorem last_eq_some_of_nodup {xs : List α} (hnodup : (xs.map key).Nodup) {x : α} (hx : x ∈ xs) :
    last key xs (key x) = some x := by
  obtain ⟨y, hy⟩ : ∃ y, last key xs (key x) = some y := exists_last hx
  rw [hy, List.inj_on_of_nodup_map hnodup (last_mem hy) hx (last_key hy)]

/-! ## the first element -/

/-- The first element of a key after one more. -/
theorem first_append (xs : List α) (x : α) (k : K) :
    first key (xs ++ [x]) k = (first key xs k).or (if key x = k then some x else none) := by
  unfold first
  rw [List.find?_append, List.find?_singleton]
  simp

/-- The first element of a key has the key. -/
theorem first_key {xs : List α} {k : K} {x : α} (h : first key xs k = some x) : key x = k := by
  have hfound := List.find?_some h
  simpa using hfound

/-- And is in the list. -/
theorem first_mem {xs : List α} {k : K} {x : α} (h : first key xs k = some x) : x ∈ xs :=
  List.mem_of_find?_eq_some h

/-- A key without elements has no first. -/
theorem first_eq_none_iff {xs : List α} {k : K} :
    first key xs k = none ↔ ∀ x ∈ xs, key x ≠ k := by
  unfold first
  simp [List.find?_eq_none]

/-- Adding an element writes it unless its key is taken. -/
theorem first_append_eq (xs : List α) (x : α) :
    first key (xs ++ [x]) =
      if (first key xs (key x)).isSome then first key xs else insert key (first key xs) x := by
  funext k
  rw [first_append]
  by_cases hk : key x = k
  · subst hk
    cases hfirst : first key xs (key x) with
    | some prev => simp [hfirst]
    | none => simp [insert]
  · cases hfirst : first key xs (key x) with
    | some prev => simp [hk]
    | none =>
        have hne : k ≠ key x := fun h => hk h.symm
        simp [insert, hk, hne]

/-- One more element is kept if its key is new. -/
theorem keepFirst_append (xs : List α) (x : α) :
    keepFirst key (xs ++ [x]) =
      if (keepFirst key xs).any (fun prev => key prev = key x) then keepFirst key xs
      else keepFirst key xs ++ [x] := by
  unfold keepFirst
  rw [List.foldl_append, List.foldl_cons, List.foldl_nil]

/-- A key is kept if it has a first element. -/
theorem any_key_eq_isSome {kept xs : List α}
    (h : ∀ {x}, x ∈ kept ↔ first key xs (key x) = some x) (k : K) :
    kept.any (fun prev => key prev = k) = (first key xs k).isSome := by
  rw [Bool.eq_iff_iff, List.any_eq_true, Option.isSome_iff_exists]
  constructor
  · intro hex
    obtain ⟨prev, hmem, hkey⟩ := hex
    have hfirst := h.mp hmem
    rw [of_decide_eq_true hkey] at hfirst
    exact ⟨prev, hfirst⟩
  · intro hex
    obtain ⟨prev, hfirst⟩ := hex
    have hkey := first_key hfirst
    refine ⟨prev, h.mpr ?_, decide_eq_true hkey⟩
    rw [hkey]
    exact hfirst

/-- The kept elements are the first ones of their keys. -/
theorem mem_keepFirst_iff {xs : List α} {x : α} :
    x ∈ keepFirst key xs ↔ first key xs (key x) = some x := by
  induction xs using List.reverseRecOn generalizing x with
  | nil => simp [keepFirst, first]
  | append_singleton xs y ih =>
      have hany := any_key_eq_isSome ih (key y)
      rw [keepFirst_append, first_append, hany]
      by_cases hy : (first key xs (key y)).isSome
      · rw [if_pos hy, ih]
        cases hfirst : first key xs (key x) with
        | some prev => rw [Option.some_or]
        | none =>
            have hne : key y ≠ key x := by
              intro heq
              rw [heq, hfirst] at hy
              cases hy
            simp [hne]
      · rw [if_neg hy, List.mem_append, List.mem_singleton, ih]
        rw [Option.not_isSome_iff_eq_none] at hy
        cases hfirst : first key xs (key x) with
        | some prev =>
            rw [Option.some_or]
            constructor
            · intro h
              cases h with
              | inl h => exact h
              | inr h => rw [h, hy] at hfirst; cases hfirst
            · exact Or.inl
        | none =>
            rw [Option.none_or]
            constructor
            · intro h
              cases h with
              | inl h => cases h
              | inr h => rw [h, if_pos rfl]
            · intro h
              split at h
              · exact Or.inr (Option.some.inj h).symm
              · cases h

/-- The same of all that are kept. -/
theorem keepFirst_any (xs : List α) (k : K) :
    (keepFirst key xs).any (fun prev => key prev = k) = (first key xs k).isSome :=
  any_key_eq_isSome mem_keepFirst_iff k

/-- A key is kept if an element has it. -/
theorem mem_map_keepFirst_iff {xs : List α} {k : K} :
    k ∈ (keepFirst key xs).map key ↔ k ∈ xs.map key := by
  have hkept : k ∈ (keepFirst key xs).map key ↔ (first key xs k).isSome := by
    rw [← keepFirst_any, List.any_eq_true, List.mem_map]
    simp
  rw [hkept]
  unfold first
  rw [List.find?_isSome, List.mem_map]
  simp

/-- What is kept has distinct keys. -/
theorem nodup_keepFirst (xs : List α) : ((keepFirst key xs).map key).Nodup := by
  induction xs using List.reverseRecOn with
  | nil => exact List.nodup_nil
  | append_singleton xs x ih =>
      rw [keepFirst_append]
      split
      · exact ih
      · next hnew =>
          rw [List.map_append, List.map_singleton, List.nodup_append]
          refine ⟨ih, by simp, ?_⟩
          intro k hk k' hk' heq
          obtain ⟨prev, hprev, rfl⟩ := List.mem_map.mp hk
          rw [List.mem_singleton.mp hk'] at heq
          exact hnew (List.any_eq_true.mpr ⟨prev, hprev, decide_eq_true heq⟩)

/-- The kept elements are found at their keys. -/
theorem filterMap_first_keepFirst (xs : List α) :
    ((keepFirst key xs).map key).filterMap (first key xs) = keepFirst key xs := by
  have hkept : ∀ x ∈ keepFirst key xs, (first key xs ∘ key) x = some x :=
    fun x hx => mem_keepFirst_iff.mp hx
  rw [List.filterMap_map, List.filterMap_congr hkept, List.filterMap_some]

/-! ## pairs -/

/-- Values computed from the elements of a list are found at their keys. -/
theorem lookup_zip {β : Type*} {f : α → Option β} {xs : List α} {ys : List β}
    (h : xs.mapM f = some ys) (hnodup : (xs.map key).Nodup) {x : α} (hx : x ∈ xs) :
    ∃ y, f x = some y ∧ ((xs.map key).zip ys).lookup (key x) = some y := by
  induction xs generalizing ys with
  | nil => exact absurd hx List.not_mem_nil
  | cons x' xs ih =>
      rw [List.mapM_cons, Option.bind_eq_bind, Option.bind_eq_some_iff] at h
      obtain ⟨y, hy, hrest⟩ := h
      obtain ⟨ys', hys, hcons⟩ := Option.bind_eq_some_iff.mp hrest
      cases hcons
      rw [List.map_cons, List.nodup_cons] at hnodup
      rw [List.map_cons, List.zip_cons_cons, List.lookup_cons]
      cases List.mem_cons.mp hx with
      | inl heq =>
          rw [heq, beq_self_eq_true]
          exact ⟨y, hy, rfl⟩
      | inr hmem =>
          have hne : key x ≠ key x' := by
            intro heq
            exact hnodup.1 (heq ▸ List.mem_map_of_mem hmem)
          rw [beq_false_of_ne hne]
          exact ih hys hnodup.2 hmem

end Keyed
