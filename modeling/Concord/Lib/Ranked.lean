import Mathlib.Data.Finset.Card
import Mathlib.Data.Finset.Filter
import Mathlib.Logic.Relation

/-!
# Concord.Lib.Ranked

Relations without cycles.  Where the relation stays inside finitely many
elements, having no cycle is having a rank that goes down along it.
-/

namespace Ranked

variable {α : Type*} {R : α → α → Prop}

open Relation

/-- No element comes back to itself. -/
def Acyclic (R : α → α → Prop) : Prop := ∀ a, ¬ TransGen R a a

/-- The rank goes down along the relation. -/
def Descends (R : α → α → Prop) (rank : α → Nat) : Prop := ∀ a b, R a b → rank b < rank a

theorem Descends.transGen {rank : α → Nat} (h : Descends R rank) {a b : α}
    (hpath : TransGen R a b) : rank b < rank a := by
  induction hpath with
  | single hstep => exact h _ _ hstep
  | tail _ hstep ih => exact (h _ _ hstep).trans ih

theorem Descends.acyclic {rank : α → Nat} (h : Descends R rank) : Acyclic R := by
  intro a hcycle
  exact Nat.lt_irrefl _ (h.transGen hcycle)

open Classical in
/-- How many of the nodes an element leads to. -/
noncomputable def height (R : α → α → Prop) (nodes : Finset α) (a : α) : Nat :=
  (nodes.filter (TransGen R a)).card

/-- What a step leads to leads to less. -/
theorem Acyclic.height_descends (h : Acyclic R) {nodes : Finset α}
    (hnodes : ∀ a b, R a b → b ∈ nodes) : Descends R (height R nodes) := by
  classical
  intro a b hstep
  unfold height
  refine Finset.card_lt_card (Finset.ssubset_iff_subset_ne.mpr ⟨?_, ?_⟩)
  · intro c hc
    rw [Finset.mem_filter] at hc ⊢
    exact ⟨hc.1, .head hstep hc.2⟩
  · intro heq
    -- `b` is reached from `a`, so it would have to be reached from itself
    have hb : b ∈ nodes.filter (TransGen R a) :=
      Finset.mem_filter.mpr ⟨hnodes a b hstep, .single hstep⟩
    rw [← heq, Finset.mem_filter] at hb
    exact h b hb.2

theorem acyclic_iff_exists_rank {nodes : Finset α} (hnodes : ∀ a b, R a b → b ∈ nodes) :
    Acyclic R ↔ ∃ rank, Descends R rank := by
  constructor
  · intro h
    exact ⟨_, h.height_descends hnodes⟩
  · intro h
    obtain ⟨rank, hrank⟩ := h
    exact hrank.acyclic

end Ranked
