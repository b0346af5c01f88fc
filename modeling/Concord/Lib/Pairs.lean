import Mathlib.Data.List.Forall2

/-!
# Concord.Lib.Pairs

Lists that correspond element by element.
-/

namespace Pairs

variable {α β γ : Type*} {R : α → β → Prop} {xs : List α} {ys : List β}

/-- What corresponding elements agree on, the lists agree on. -/
theorem map_eq_map {f : α → γ} {g : β → γ} (hR : ∀ {x y}, R x y → f x = g y)
    (h : List.Forall₂ R xs ys) : xs.map f = ys.map g := by
  induction h with
  | nil => rfl
  | cons hxy _ ih => rw [List.map_cons, List.map_cons, ih, hR hxy]

theorem exists_left (h : List.Forall₂ R xs ys) {y : β} (hy : y ∈ ys) : ∃ x ∈ xs, R x y := by
  induction h with
  | nil => simp at hy
  | cons hxy _ ih =>
      cases List.mem_cons.mp hy with
      | inl heq => exact ⟨_, List.mem_cons_self, heq ▸ hxy⟩
      | inr hrest =>
          obtain ⟨x, hx, hR⟩ := ih hrest
          exact ⟨x, List.mem_cons_of_mem _ hx, hR⟩

theorem exists_right (h : List.Forall₂ R xs ys) {x : α} (hx : x ∈ xs) : ∃ y ∈ ys, R x y :=
  exists_left h.flip hx

/-- Corresponding elements are elements. -/
theorem mem_left (h : List.Forall₂ R xs ys) :
    List.Forall₂ (fun x y => x ∈ xs ∧ R x y) xs ys :=
  (List.forall₂_and_left xs ys).mpr ⟨fun _ hx => hx, h⟩

theorem mem_right (h : List.Forall₂ R xs ys) :
    List.Forall₂ (fun x y => y ∈ ys ∧ R x y) xs ys :=
  (mem_left h.flip).flip

theorem both {S : α → β → Prop} (h : List.Forall₂ R xs ys) (h' : List.Forall₂ S xs ys) :
    List.Forall₂ (fun x y => R x y ∧ S x y) xs ys := by
  induction h with
  | nil => exact .nil
  | cons hR _ ih =>
      cases h' with
      | cons hS hrest => exact .cons ⟨hR, hS⟩ (ih hrest)

/-- Elements that all have a partner make up a list of partners. -/
theorem exists_partners (h : ∀ x ∈ xs, ∃ y, R x y) : ∃ ys, List.Forall₂ R xs ys := by
  induction xs with
  | nil => exact ⟨[], .nil⟩
  | cons x xs ih =>
      obtain ⟨y, hy⟩ := h x List.mem_cons_self
      obtain ⟨ys, hys⟩ := ih (fun x' hx' => h x' (List.mem_cons_of_mem _ hx'))
      exact ⟨y :: ys, .cons hy hys⟩

end Pairs
