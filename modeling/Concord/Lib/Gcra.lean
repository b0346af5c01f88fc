import Mathlib.Order.Basic
import Mathlib.Order.Lattice

/-!
# Concord.Lib.Gcra

The generic cell rate algorithm.  A limiter holds the arrival time at which
its next cell would be on schedule; a request for some cells is granted when
it does not run ahead of that schedule by more than a burst.

A limiter is full from its arrival time on: then it answers like a new one.

A crate with this algorithm is assumed to start a limiter full, to answer each
request against the arrival time as one step, and to keep the limiter as it was
when it refuses.  Times are unbounded here: where a crate counts nanoseconds in
64 bits, this is what it computes as long as they do not overflow.
-/

namespace Gcra

/-- One cell every `cell`, `burst` of them at once. -/
structure Quota where
  cell : Nat
  burst : Nat
  deriving DecidableEq, Repr

/-- A limiter: its quota and its theoretical arrival time. -/
structure Limiter where
  quota : Quota
  tat : Nat
  deriving DecidableEq, Repr

/-- A new limiter is full. -/
def direct (quota : Quota) (now : Nat) : Limiter := ⟨quota, now⟩

/-- The first moment at which `n` cells are granted. -/
def Limiter.earliest (limiter : Limiter) (n : Nat) : Nat :=
  limiter.tat + n * limiter.quota.cell - limiter.quota.burst * limiter.quota.cell

/-- Ask for `n` cells: the limiter after they are granted, or how long it
takes until they are. -/
def Limiter.checkN (limiter : Limiter) (n now : Nat) : Except Nat Limiter :=
  if now < limiter.earliest n then .error (limiter.earliest n - now)
  else .ok { limiter with tat := max limiter.tat now + n * limiter.quota.cell }

theorem Limiter.checkN_quota {limiter granted : Limiter} {n now : Nat}
    (h : limiter.checkN n now = .ok granted) : granted.quota = limiter.quota := by
  unfold Limiter.checkN at h
  split at h
  · cases h
  · cases h
    rfl

/-- Two limiters that cannot be told apart from `now` on. -/
def Limiter.Alike (now : Nat) (limiter other : Limiter) : Prop :=
  limiter.quota = other.quota ∧ max limiter.tat now = max other.tat now

theorem Limiter.Alike.refl (now : Nat) (limiter : Limiter) : limiter.Alike now limiter := ⟨rfl, rfl⟩

theorem Limiter.Alike.later {now later : Nat} {limiter other : Limiter}
    (h : limiter.Alike now other) (hle : now ≤ later) : limiter.Alike later other := by
  refine ⟨h.1, ?_⟩
  have htat := h.2
  omega

/-- Full limiters of one quota are alike. -/
theorem alike_of_full {now : Nat} {limiter other : Limiter} (hquota : limiter.quota = other.quota)
    (h : limiter.tat ≤ now) (h' : other.tat ≤ now) : limiter.Alike now other := by
  refine ⟨hquota, ?_⟩
  rw [max_eq_right h, max_eq_right h']

theorem earliest_le_of_full {limiter : Limiter} {n now : Nat} (hn : n ≤ limiter.quota.burst)
    (h : limiter.tat ≤ now) : limiter.earliest n ≤ now := by
  have hcells := Nat.mul_le_mul_right limiter.quota.cell hn
  unfold Limiter.earliest
  omega

/-- Limiters that are alike are owed the same and grant the same. -/
theorem checkN_alike {now n : Nat} {limiter other : Limiter} (h : limiter.Alike now other)
    (hn : n ≤ limiter.quota.burst) :
    (∃ delay, limiter.checkN n now = .error delay ∧ other.checkN n now = .error delay) ∨
      ∃ granted granted', limiter.checkN n now = .ok granted ∧
        other.checkN n now = .ok granted' ∧ granted.Alike now granted' := by
  obtain ⟨hquota, htat⟩ := h
  have hearliest : now < limiter.earliest n ∨ now < other.earliest n →
      limiter.earliest n = other.earliest n := by
    intro hlt
    have hsame : limiter.tat = other.tat := by
      cases hlt with
      | inl hlt =>
          have hfull : ¬ limiter.tat ≤ now :=
            fun h => absurd (earliest_le_of_full hn h) (Nat.not_le_of_lt hlt)
          omega
      | inr hlt =>
          have hfull : ¬ other.tat ≤ now :=
            fun h => absurd (earliest_le_of_full (hquota ▸ hn) h) (Nat.not_le_of_lt hlt)
          omega
    unfold Limiter.earliest
    rw [hsame, hquota]
  unfold Limiter.checkN
  by_cases hlt : now < limiter.earliest n
  · left
    have heq := hearliest (.inl hlt)
    refine ⟨limiter.earliest n - now, if_pos hlt, ?_⟩
    rw [← heq, if_pos hlt]
  · right
    have hlt' : ¬ now < other.earliest n := by
      intro h
      rw [hearliest (.inr h)] at hlt
      exact hlt h
    refine ⟨_, _, if_neg hlt, if_neg hlt', hquota, ?_⟩
    simp only [htat, hquota]

end Gcra
