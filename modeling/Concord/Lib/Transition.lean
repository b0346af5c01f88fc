import Mathlib.Logic.Basic

/-!
# Concord.Lib.Transition

Labelled transition systems that answer: a partial step function
`step : σ → α → Option (σ × ω)` takes a label and returns the next state
together with what the step hands back to its caller.  A label that is not
enabled returns `none`.

`exec` runs a list of labels and collects the answers.  The rules below are
the only inductions over runs the development needs:

* `exec_invariant` — a property of states that every step keeps;
* `exec_history` — a property of the state and of everything handed out so
  far (the *history*), extended by one answer at each step;
* `exec_relates` — a reflexive and transitive relation between the first and
  the last state of a run;
* `exec_lockstep` — two systems that answer the same on the same labels.
-/

namespace Transition

variable {σ α ω : Type*} {step : σ → α → Option (σ × ω)}

/-- Run the labels in order, collecting the answers. -/
def exec (step : σ → α → Option (σ × ω)) : σ → List α → Option (σ × List ω)
  | s, [] => some (s, [])
  | s, a :: as =>
    match step s a with
    | none => none
    | some (s', o) =>
      match exec step s' as with
      | none => none
      | some (s'', os) => some (s'', o :: os)

/-! ## runs taken apart -/

@[simp] theorem exec_nil (s : σ) : exec step s [] = some (s, []) := rfl

theorem exec_cons_eq_some {s s'' : σ} {a : α} {as : List α} {os : List ω} :
    exec step s (a :: as) = some (s'', os) ↔
      ∃ s' o os', step s a = some (s', o) ∧ exec step s' as = some (s'', os') ∧
        os = o :: os' := by
  constructor
  · intro h
    simp only [exec] at h
    cases ha : step s a with
    | none => simp only [ha] at h; contradiction
    | some p =>
        obtain ⟨s', o⟩ := p
        simp only [ha] at h
        cases hr : exec step s' as with
        | none => simp only [hr] at h; contradiction
        | some q =>
            obtain ⟨t, os'⟩ := q
            simp only [hr, Option.some.injEq, Prod.mk.injEq] at h
            obtain ⟨rfl, rfl⟩ := h
            exact ⟨s', o, os', rfl, hr, rfl⟩
  · rintro ⟨s', o, os', ha, hr, rfl⟩
    simp only [exec, ha, hr]

theorem exec_append_eq_some {s s'' : σ} {as bs : List α} {os : List ω} :
    exec step s (as ++ bs) = some (s'', os) ↔
      ∃ s' os₁ os₂, exec step s as = some (s', os₁) ∧
        exec step s' bs = some (s'', os₂) ∧ os = os₁ ++ os₂ := by
  induction as generalizing s os with
  | nil =>
      constructor
      · intro h
        exact ⟨s, [], os, rfl, h, rfl⟩
      · rintro ⟨s', os₁, os₂, h₁, h₂, rfl⟩
        simp only [exec_nil, Option.some.injEq, Prod.mk.injEq] at h₁
        obtain ⟨rfl, rfl⟩ := h₁
        exact h₂
  | cons a as ih =>
      simp only [List.cons_append, exec_cons_eq_some, ih]
      constructor
      · rintro ⟨s₁, o, _, hstep, ⟨s₂, os₁, os₂, h₁, h₂, rfl⟩, rfl⟩
        exact ⟨s₂, o :: os₁, os₂, ⟨s₁, o, os₁, hstep, h₁, rfl⟩, h₂, rfl⟩
      · rintro ⟨s₂, _, os₂, ⟨s₁, o, os₁, hstep, h₁, rfl⟩, h₂, rfl⟩
        exact ⟨s₁, o, os₁ ++ os₂, hstep, ⟨s₂, os₁, os₂, h₁, h₂, rfl⟩, rfl⟩

/-- A run of a system with fewer steps is one of the system. -/
theorem exec_of_restricted {fewer : σ → α → Option (σ × ω)}
    (h : ∀ {s a r}, fewer s a = some r → step s a = some r) {s s' : σ} {as : List α} {os : List ω}
    (hrun : exec fewer s as = some (s', os)) : exec step s as = some (s', os) := by
  induction as generalizing s os with
  | nil => exact hrun
  | cons a as ih =>
      obtain ⟨s₁, o, os', ha, hr, rfl⟩ := exec_cons_eq_some.mp hrun
      exact exec_cons_eq_some.mpr ⟨s₁, o, os', h ha, ih hr, rfl⟩

/-! ## the induction rules -/

/-- **Invariant rule**: what every step keeps, every run keeps. -/
theorem exec_invariant {I : σ → Prop}
    (hstep : ∀ {s a s' o}, I s → step s a = some (s', o) → I s')
    {s s' : σ} {as : List α} {os : List ω} (h : exec step s as = some (s', os)) (hs : I s) :
    I s' := by
  induction as generalizing s os with
  | nil =>
      simp only [exec_nil, Option.some.injEq, Prod.mk.injEq] at h
      exact h.1 ▸ hs
  | cons a as ih =>
      obtain ⟨s₁, o, os', ha, hr, _⟩ := exec_cons_eq_some.mp h
      exact ih hr (hstep hs ha)

/-- What the steps with certain labels keep, a run with such labels keeps. -/
theorem exec_invariant_of_labels {I : σ → Prop} {P : α → Prop}
    (hstep : ∀ {s a s' o}, P a → I s → step s a = some (s', o) → I s')
    {s s' : σ} {as : List α} {os : List ω} (h : exec step s as = some (s', os))
    (hP : ∀ a ∈ as, P a) (hs : I s) : I s' := by
  induction as generalizing s os with
  | nil =>
      simp only [exec_nil, Option.some.injEq, Prod.mk.injEq] at h
      exact h.1 ▸ hs
  | cons a as ih =>
      obtain ⟨s₁, o, os', ha, hr, _⟩ := exec_cons_eq_some.mp h
      have hrest : ∀ a ∈ as, P a := fun b hmem => hP b (List.mem_cons_of_mem _ hmem)
      exact ih hr hrest (hstep (hP a List.mem_cons_self) hs ha)

/-- **History rule**: a property of the state and of the answers so far that
every step extends holds of the answers of a whole run. -/
theorem exec_history {I : σ → List ω → Prop}
    (hstep : ∀ {s hist a s' o}, I s hist → step s a = some (s', o) → I s' (hist ++ [o]))
    {s s' : σ} {as : List α} {hist os : List ω} (h : exec step s as = some (s', os))
    (hs : I s hist) : I s' (hist ++ os) := by
  induction as generalizing s hist os with
  | nil =>
      simp only [exec_nil, Option.some.injEq, Prod.mk.injEq] at h
      obtain ⟨rfl, rfl⟩ := h
      simpa using hs
  | cons a as ih =>
      obtain ⟨s₁, o, os', ha, hr, rfl⟩ := exec_cons_eq_some.mp h
      simpa using ih hr (hstep hs ha)

/-- **Relation rule**: a reflexive, transitive relation that every step
respects relates the two ends of a run. -/
theorem exec_relates {R : σ → σ → Prop} (hrefl : ∀ s, R s s)
    (htrans : ∀ {s t u}, R s t → R t u → R s u)
    (hstep : ∀ {s a s' o}, step s a = some (s', o) → R s s')
    {s s' : σ} {as : List α} {os : List ω} (h : exec step s as = some (s', os)) : R s s' := by
  induction as generalizing s os with
  | nil =>
      simp only [exec_nil, Option.some.injEq, Prod.mk.injEq] at h
      exact h.1 ▸ hrefl s
  | cons a as ih =>
      obtain ⟨s₁, o, os', ha, hr, _⟩ := exec_cons_eq_some.mp h
      exact htrans (hstep ha) (ih hr)

/-! ## two systems -/

/-- Every step of a run meets a condition on the label and on the state
before it. -/
def Along (step : σ → α → Option (σ × ω)) (ok : σ → α → Prop) : σ → List α → Prop
  | _, [] => True
  | s, a :: as => ok s a ∧ ∀ s' o, step s a = some (s', o) → Along step ok s' as

/-- Two systems give the same answers if a relation between their states, which
may depend on the labels to come, is kept by steps that both refuse or both
take with the same answer. -/
theorem exec_lockstep {σ' : Type*} {step' : σ' → α → Option (σ' × ω)} {R : List α → σ → σ' → Prop}
    (hstep : ∀ a as s t, R (a :: as) s t →
      (step s a = none ∧ step' t a = none) ∨
        ∃ s' t' o, step s a = some (s', o) ∧ step' t a = some (t', o) ∧ R as s' t')
    {as : List α} {s : σ} {t : σ'} (h : R as s t) :
    (exec step s as).map Prod.snd = (exec step' t as).map Prod.snd := by
  induction as generalizing s t with
  | nil => rfl
  | cons a as ih =>
      cases hstep a as s t h with
      | inl hrefused => simp only [exec, hrefused.1, hrefused.2, Option.map_none]
      | inr htaken =>
          obtain ⟨s', t', o, hs, ht, hR⟩ := htaken
          have hrest := ih hR
          simp only [exec, hs, ht]
          cases hexec : exec step s' as with
          | none =>
              rw [hexec] at hrest
              cases hexec' : exec step' t' as with
              | none => rfl
              | some q =>
                  rw [hexec'] at hrest
                  cases hrest
          | some p =>
              rw [hexec] at hrest
              cases hexec' : exec step' t' as with
              | none =>
                  rw [hexec'] at hrest
                  cases hrest
              | some q =>
                  rw [hexec', Option.map_some, Option.map_some, Option.some.injEq] at hrest
                  simp only [Option.map_some, hrest]

/-- A run is answered alike by the other system, and the relation holds at its
end. -/
theorem exec_of_lockstep {σ' : Type*} {step' : σ' → α → Option (σ' × ω)}
    {R : List α → σ → σ' → Prop}
    (hstep : ∀ a as s t, R (a :: as) s t →
      (step s a = none ∧ step' t a = none) ∨
        ∃ s' t' o, step s a = some (s', o) ∧ step' t a = some (t', o) ∧ R as s' t')
    {as : List α} {s s' : σ} {t : σ'} {os : List ω} (h : R as s t)
    (hexec : exec step s as = some (s', os)) :
    ∃ t', exec step' t as = some (t', os) ∧ R [] s' t' := by
  induction as generalizing s t os with
  | nil =>
      simp only [exec_nil, Option.some.injEq, Prod.mk.injEq] at hexec
      obtain ⟨rfl, rfl⟩ := hexec
      exact ⟨t, rfl, h⟩
  | cons a as ih =>
      obtain ⟨s₁, o, os', ha, hr, rfl⟩ := exec_cons_eq_some.mp hexec
      rcases hstep a as s t h with ⟨hnone, _⟩ | ⟨s₂, t₁, o', hs, ht, hR⟩
      · rw [ha] at hnone
        contradiction
      · rw [ha, Option.some.injEq, Prod.mk.injEq] at hs
        obtain ⟨rfl, rfl⟩ := hs
        obtain ⟨t', hexec', hR'⟩ := ih hR hr
        exact ⟨t', exec_cons_eq_some.mpr ⟨t₁, o, os', ht, hexec', rfl⟩, hR'⟩

end Transition
