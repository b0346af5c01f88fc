import Mathlib.Data.List.Nodup
import Mathlib.Data.List.Perm.Basic

/-!
# Concord.Lib.Affix

Lists of derived names: strings with something put before or after them, and
lists that take several names from each element.
-/

namespace Affix

/-! ## strings -/

theorem append_ne {a b c : String} (h : b.toList.isSuffixOf c.toList = false) : a ++ b ≠ c := by
  intro heq
  rw [← heq, String.toList_append, Bool.eq_false_iff] at h
  exact h (by simp)

theorem ne_append {a b c : String} (h : a.toList.isPrefixOf c.toList = false) : c ≠ a ++ b := by
  intro heq
  rw [heq, String.toList_append, Bool.eq_false_iff] at h
  exact h (by simp)

/-- What comes before ends of one length is the same. -/
theorem left_eq_of_append_eq {a b c d : String} (h : a ++ b = c ++ d)
    (hlength : b.toList.length = d.toList.length) : a = c := by
  have hchars := congrArg String.toList h
  rw [String.toList_append, String.toList_append] at hchars
  exact String.toList_inj.mp (List.append_inj' hchars hlength).1

theorem append_ne_append {a b c d : String} {x y : Char} (hb : b.toList.getLast? = some x)
    (hd : d.toList.getLast? = some y) (hne : x ≠ y) : a ++ b ≠ c ++ d := by
  intro heq
  have hlast := congrArg (fun name => name.toList.getLast?) heq
  simp only [String.toList_append, List.getLast?_append, hb, hd, Option.some_or,
    Option.some.injEq] at hlast
  exact hne hlast

/-! ## several names from each element -/

variable {α β : Type*}

/-- The first names of the elements are apart from the others. -/
theorem nodup_flatMap_cons_iff {xs : List α} {f : α → β} {g : α → List β} :
    (xs.flatMap (fun x => f x :: g x)).Nodup ↔
      (xs.map f).Nodup ∧ (xs.flatMap g).Nodup ∧ ∀ x ∈ xs, ∀ y ∈ xs, f x ∉ g y := by
  rw [← (List.map_append_flatMap_perm xs f g).nodup_iff, List.nodup_append']
  constructor
  · intro h
    refine ⟨h.1, h.2.1, fun x hx y hy hmem => ?_⟩
    exact h.2.2 (List.mem_map_of_mem hx) (List.mem_flatMap.mpr ⟨y, hy, hmem⟩)
  · intro h
    refine ⟨h.1, h.2.1, fun b hb hb' => ?_⟩
    obtain ⟨x, hx, rfl⟩ := List.mem_map.mp hb
    obtain ⟨y, hy, hmem⟩ := List.mem_flatMap.mp hb'
    exact h.2.2 x hx y hy hmem

/-- Names that only some elements have. -/
theorem flatMap_filter (xs : List α) (p : α → Bool) (f : α → List β) :
    (xs.filter p).flatMap f = xs.flatMap (fun x => if p x then f x else []) := by
  induction xs with
  | nil => rfl
  | cons x xs ih =>
      rw [List.flatMap_cons, ← ih]
      cases hp : p x with
      | false => simp [hp]
      | true => simp [hp]

end Affix
