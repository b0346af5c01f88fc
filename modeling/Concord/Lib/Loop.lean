import Mathlib.Logic.Basic

/-!
# Concord.Lib.Loop

Loops that return from their body: a turn either goes round again with a new
state or leaves the loop with a result.

`run` takes its turns from a budget.  A loop whose turns lower a measure
never runs out of it (`run_isSome`), and then what its turns keep holds of
the result (`run_rule`).  `Reaches` relates the states seen at the head of
the loop, and `run_eq_of_reaches` says that the turn that leaves the loop
decides the result of the whole run.
-/

namespace Loop

variable {σ ρ : Type*} {turn : σ → σ ⊕ ρ}

/-- Take turns until one leaves the loop; `none` if the budget is used up. -/
def run (turn : σ → σ ⊕ ρ) : Nat → σ → Option ρ
  | 0, _ => none
  | budget + 1, s =>
    match turn s with
    | .inl s' => run turn budget s'
    | .inr r => some r

/-- `Reaches turn s s'`: the loop entered at `s` comes to its head at `s'`. -/
inductive Reaches (turn : σ → σ ⊕ ρ) (s : σ) : σ → Prop
  | refl : Reaches turn s s
  | tail {s' s'' : σ} (h : Reaches turn s s') (ht : turn s' = .inl s'') : Reaches turn s s''

/-- **Invariant rule**: what every turn keeps holds whenever the loop comes
to its head. -/
theorem Reaches.invariant {I : σ → Prop} (hkeep : ∀ {s s'}, I s → turn s = .inl s' → I s')
    {s s' : σ} (h : Reaches turn s s') (hs : I s) : I s' := by
  induction h with
  | refl => exact hs
  | tail _ ht ih => exact hkeep ih ht

/-- A loop entered at `s` and one entered a turn later reach the same states. -/
theorem Reaches.head {s s' s'' : σ} (ht : turn s = .inl s') (h : Reaches turn s' s'') :
    Reaches turn s s'' := by
  induction h with
  | refl => exact .tail .refl ht
  | tail _ ht' ih => exact .tail ih ht'

/-- A state the loop reaches is where it was entered, or it is reached from
the head of the next turn. -/
theorem Reaches.cases_head {s s'' : σ} (h : Reaches turn s s'') :
    s = s'' ∨ ∃ s', turn s = .inl s' ∧ Reaches turn s' s'' := by
  induction h with
  | refl => exact .inl rfl
  | @tail a b _ ht ih =>
      cases ih with
      | inl heq => exact .inr ⟨b, heq ▸ ht, .refl⟩
      | inr hnext =>
          obtain ⟨s', hs, hr⟩ := hnext
          exact .inr ⟨s', hs, .tail hr ht⟩

/-- Of two states the loop reaches, one is reached from the other. -/
theorem Reaches.total {s a b : σ} (ha : Reaches turn s a) (hb : Reaches turn s b) :
    Reaches turn a b ∨ Reaches turn b a := by
  induction hb with
  | refl => exact .inr ha
  | @tail b b' _ ht ih =>
      cases ih with
      | inl h => exact .inl (.tail h ht)
      | inr h =>
          -- From `b` the loop goes to `b'` or stays.
          cases h.cases_head with
          | inl heq => exact .inl (heq ▸ .tail .refl ht)
          | inr hnext =>
              obtain ⟨c, hc, hca⟩ := hnext
              rw [ht, Sum.inl.injEq] at hc
              exact .inr (hc ▸ hca)

/-- A run leaves the loop at one state only. -/
theorem Reaches.eq_of_leaves {s a b : σ} {r r' : ρ} (ha : Reaches turn s a)
    (hb : Reaches turn s b) (hra : turn a = .inr r) (hrb : turn b = .inr r') : a = b := by
  have hstay : ∀ {a b r}, turn a = .inr r → Reaches turn a b → a = b := by
    intro a b r hra h
    cases h.cases_head with
    | inl heq => exact heq
    | inr hnext =>
        obtain ⟨c, hc, _⟩ := hnext
        rw [hra] at hc
        contradiction
  cases ha.total hb with
  | inl h => exact hstay hra h
  | inr h => exact (hstay hrb h).symm

/-- A result comes from a turn taken at a state the loop reached. -/
theorem reaches_of_run {budget : Nat} {s : σ} {r : ρ} (h : run turn budget s = some r) :
    ∃ s', Reaches turn s s' ∧ turn s' = .inr r := by
  induction budget generalizing s with
  | zero => contradiction
  | succ budget ih =>
      simp only [run] at h
      cases ht : turn s with
      | inl s' =>
          simp only [ht] at h
          obtain ⟨s'', hr, hd⟩ := ih h
          exact ⟨s'', hr.head ht, hd⟩
      | inr r' =>
          simp only [ht, Option.some.injEq] at h
          exact ⟨s, .refl, h ▸ ht⟩

/-- **Result rule**: a result satisfies whatever the last turn establishes
from what all turns keep. -/
theorem run_rule {I : σ → Prop} {Q : ρ → Prop}
    (hkeep : ∀ {s s'}, I s → turn s = .inl s' → I s')
    (hleave : ∀ {s r}, I s → turn s = .inr r → Q r)
    {budget : Nat} {s : σ} {r : ρ} (h : run turn budget s = some r) (hs : I s) : Q r := by
  obtain ⟨s', hr, hd⟩ := reaches_of_run h
  exact hleave (hr.invariant hkeep hs) hd

/-- **Termination rule**: a budget above a measure that every turn lowers is
enough. -/
theorem run_isSome {I : σ → Prop} {m : σ → Nat}
    (hkeep : ∀ {s s'}, I s → turn s = .inl s' → I s' ∧ m s' < m s)
    {budget : Nat} {s : σ} (hs : I s) (hm : m s < budget) :
    ∃ r, run turn budget s = some r := by
  induction budget generalizing s with
  | zero => omega
  | succ budget ih =>
      simp only [run]
      cases ht : turn s with
      | inl s' =>
          obtain ⟨hs', hlt⟩ := hkeep hs ht
          exact ih hs' (by omega)
      | inr r => exact ⟨r, rfl⟩

/-- From every state the loop reaches, the run that is left has the same
result. -/
theorem run_of_reaches {budget : Nat} {s s' : σ} {r : ρ} (h : Reaches turn s s')
    (hr : run turn budget s = some r) : ∃ budget', run turn budget' s' = some r := by
  induction h with
  | refl => exact ⟨budget, hr⟩
  | tail _ ht ih =>
      obtain ⟨budget', hrest⟩ := ih
      cases budget' with
      | zero => contradiction
      | succ budget' =>
          simp only [run, ht] at hrest
          exact ⟨budget', hrest⟩

/-- The turn that leaves the loop decides the result. -/
theorem run_eq_of_reaches {budget : Nat} {s s' : σ} {r r' : ρ} (h : Reaches turn s s')
    (hr : run turn budget s = some r) (ht : turn s' = .inr r') : r = r' := by
  obtain ⟨budget', hrest⟩ := run_of_reaches h hr
  cases budget' with
  | zero => contradiction
  | succ budget' =>
      simp only [run, ht, Option.some.injEq] at hrest
      exact hrest.symm

/-- Loops that differ only in what they make of their results. -/
theorem run_map {ρ' : Type*} {turn' : σ → σ ⊕ ρ'} {f : ρ → ρ'}
    (hturn : ∀ s, turn' s = (turn s).map id f) (budget : Nat) (s : σ) :
    run turn' budget s = (run turn budget s).map f := by
  induction budget generalizing s with
  | zero => rfl
  | succ budget ih =>
      simp only [run, hturn]
      cases turn s with
      | inl s' => exact ih s'
      | inr r => rfl

end Loop
