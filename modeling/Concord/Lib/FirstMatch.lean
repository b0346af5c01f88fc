import Mathlib.Logic.Basic

/-!
# Concord.Lib.FirstMatch

Linear searches that return the first match together with its position: a
search by a narrower predicate that still accepts the first match of a wider
one returns the same element, and a search by position returns the first
position that answers.
-/

namespace FirstMatch

variable {α β : Type*}

/-- Narrowing a search keeps its first match if that still matches. -/
theorem find?_of_imp {p q : α → Bool} {xs : List α} {x : α} (h : xs.find? p = some x)
    (hq : q x = true) (himp : ∀ y, q y = true → p y = true) : xs.find? q = some x := by
  obtain ⟨_, before, after, rfl, hbefore⟩ := List.find?_eq_some_iff_append.mp h
  refine List.find?_eq_some_iff_append.mpr ⟨hq, before, after, rfl, fun y hy => ?_⟩
  have hp := hbefore y hy
  cases hqy : q y with
  | false => rfl
  | true =>
      rw [himp y hqy] at hp
      contradiction

/-- The element at the first position that matches is the one found. -/
theorem find?_of_first {p : α → Bool} {xs : List α} {k : Nat} {x : α} (hx : xs[k]? = some x)
    (hp : p x = true) (hbefore : ∀ i x', i < k → xs[i]? = some x' → p x' = false) :
    xs.find? p = some x := by
  induction xs generalizing k with
  | nil => simp at hx
  | cons z zs ih =>
      rw [List.find?_cons]
      cases k with
      | zero =>
          rw [List.getElem?_cons_zero, Option.some.injEq] at hx
          rw [hx, hp]
      | succ k =>
          rw [List.getElem?_cons_succ] at hx
          have hz : p z = false := hbefore 0 z (Nat.succ_pos k) rfl
          rw [hz]
          exact ih hx (fun i x' hi hx' => hbefore (i + 1) x' (by omega) hx')

/-- The only element that matches is the one found. -/
theorem find?_of_unique {p : α → Bool} {xs : List α} {x : α} (hx : x ∈ xs) (hp : p x = true)
    (hunique : ∀ y ∈ xs, p y = true → y = x) : xs.find? p = some x := by
  cases hfind : xs.find? p with
  | none => exact absurd hp (List.find?_eq_none.mp hfind x hx)
  | some y => rw [hunique y (List.mem_of_find?_eq_some hfind) (List.find?_some hfind)]

theorem findSome?_zipIdx_from {xs : List α} {f : α × Nat → Option β} {n k : Nat} {x : α} {y : β}
    (hx : xs[k]? = some x) (hy : f (x, n + k) = some y)
    (hbefore : ∀ i x', i < k → xs[i]? = some x' → f (x', n + i) = none) :
    (xs.zipIdx n).findSome? f = some y := by
  induction xs generalizing n k with
  | nil => simp at hx
  | cons z zs ih =>
      rw [List.zipIdx_cons, List.findSome?_cons]
      cases k with
      | zero =>
          rw [List.getElem?_cons_zero, Option.some.injEq] at hx
          rw [hx]
          simp only [Nat.add_zero] at hy
          rw [hy]
      | succ k =>
          rw [List.getElem?_cons_succ] at hx
          have hz : f (z, n) = none := hbefore 0 z (Nat.succ_pos k) rfl
          rw [hz]
          have hy' : f (x, n + 1 + k) = some y := by
            rw [Nat.add_assoc, Nat.add_comm 1 k]
            exact hy
          refine ih hx hy' (fun i x' hi hx' => ?_)
          have hi' := hbefore (i + 1) x' (by omega) hx'
          rw [Nat.add_assoc, Nat.add_comm 1 i]
          exact hi'

/-- A search over positions stops at the first one that answers. -/
theorem findSome?_zipIdx {xs : List α} {f : α × Nat → Option β} {k : Nat} {x : α} {y : β}
    (hx : xs[k]? = some x) (hy : f (x, k) = some y)
    (hbefore : ∀ i x', i < k → xs[i]? = some x' → f (x', i) = none) :
    xs.zipIdx.findSome? f = some y := by
  refine findSome?_zipIdx_from hx (by rw [Nat.zero_add]; exact hy) (fun i x' hi hx' => ?_)
  rw [Nat.zero_add]
  exact hbefore i x' hi hx'

end FirstMatch
