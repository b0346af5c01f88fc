import Concord.Lib.Transition

/-!
# Concord.Lib.Trace

Systems that are given by a relation `R s a o s'`: from `s`, the label `a` may
be answered with `o` and leave `s'`.

`Path` is a run of such a system.  `path_of_exec` is the simulation rule: the
runs of a step function are runs of the relation on a view of its states, if
each step is one of the relation.
-/

namespace Transition

variable {σ α ω : Type*}

/-- A run of a relation, with its labels and its answers. -/
inductive Path (R : σ → α → ω → σ → Prop) : σ → List α → List ω → σ → Prop
  | nil (s : σ) : Path R s [] [] s
  | cons {s s' s'' : σ} {a : α} {o : ω} {as : List α} {os : List ω} (h : R s a o s')
      (hrest : Path R s' as os s'') : Path R s (a :: as) (o :: os) s''

/-- **Simulation rule**, under an invariant of the states that are viewed. -/
theorem path_of_exec {τ : Type*} {step : τ → α → Option (τ × ω)} {R : σ → α → ω → σ → Prop}
    {I : τ → Prop} {view : τ → σ}
    (hkeep : ∀ {t a t' o}, I t → step t a = some (t', o) → I t')
    (hsim : ∀ {t a t' o}, I t → step t a = some (t', o) → R (view t) a o (view t'))
    {as : List α} {t t' : τ} {os : List ω} (hexec : exec step t as = some (t', os)) (ht : I t) :
    Path R (view t) as os (view t') := by
  induction as generalizing t os with
  | nil =>
      simp only [exec_nil, Option.some.injEq, Prod.mk.injEq] at hexec
      obtain ⟨rfl, rfl⟩ := hexec
      exact .nil _
  | cons a as ih =>
      obtain ⟨u, o, os', hstep, hrest, rfl⟩ := exec_cons_eq_some.mp hexec
      exact .cons (hsim ht hstep) (ih hrest (hkeep ht hstep))

/-- What steps with certain labels keep, and what they answer meanwhile. -/
theorem Path.keeps {R : σ → α → ω → σ → Prop} {I : σ → Prop} {P : α → Prop} {Q : α → ω → Prop}
    (hstep : ∀ {s a o s'}, P a → I s → R s a o s' → I s' ∧ Q a o) {s s' : σ} {as : List α}
    {os : List ω} (h : Path R s as os s') (hP : ∀ a ∈ as, P a) (hs : I s) :
    I s' ∧ ∀ answered ∈ as.zip os, Q answered.1 answered.2 := by
  induction h with
  | nil => exact ⟨hs, by simp⟩
  | cons hR _ ih =>
      obtain ⟨hI, hQ⟩ := hstep (hP _ List.mem_cons_self) hs hR
      have hrest := ih (fun a hmem => hP a (List.mem_cons_of_mem _ hmem)) hI
      refine ⟨hrest.1, ?_⟩
      simpa using ⟨hQ, fun a o hmem => hrest.2 (a, o) hmem⟩

end Transition
