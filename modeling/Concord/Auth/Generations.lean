import Concord.Auth.SlotWorld

/-!
# Concord.Auth.Generations

The generation counter of a credential slot over whole runs: it never goes
back, no two credentials are ever handed out under one generation, and a
step that would need a generation past `u64::MAX` is refused with the slot
left as it was.

Three facts about a single move carry everything:

* `Move.generation_le` — the generation does not decrease;
* `Move.state_eq_of_generation_eq` — a move that keeps the generation keeps
  the state, unless the slot was in flight;
* `Move.state_of_leased` — a lease is handed out under the state it leaves.

An in-flight generation has never been handed out, so a commit and a
rollback, the two moves that store a value without advancing the counter,
each bind a number nobody has seen.
-/

namespace Concord

open Checked Transition

variable {T : Type*}

/-! ## one move -/

/-- No move goes back in generations. -/
theorem Move.generation_le {w w' : World T} {o : Outcome T} (h : Move w w' o) :
    w.state.generation ≤ w'.state.generation := by
  cases h with
  | started ho hg => simp
  | stored ha hp hs => simp [hs]
  | storedFailure ha hp hs => simp [hs]
  | rolledBack ha hd hs => simp [hs]
  | manualSet hg => simp
  | manualCleared hg => simp
  | invalidated hs hg => simp [hs]
  | forgotten hs => simp [hs]
  | _ => exact Nat.le_refl _

/-- A move that stays at a generation stays in its state, except that an
attempt in flight may end or lose the credential it would restore. -/
theorem Move.state_eq_of_generation_eq {w w' : World T} {o : Outcome T} (h : Move w w' o)
    (hg : w'.state.generation = w.state.generation) (ho : w.state.owner? = none) :
    w'.state = w.state := by
  cases h with
  | started ho' hle => simp at hg
  | stored ha hp hs => simp [hs] at ho
  | storedFailure ha hp hs => simp [hs] at ho
  | rolledBack ha hd hs => simp [hs] at ho
  | manualSet hle => simp at hg
  | manualCleared hle => simp at hg
  | invalidated hs hle => simp [hs] at hg
  | forgotten hs => simp [hs] at ho
  | _ => rfl

/-- A lease is a copy of the credential the slot holds once the step is
over. -/
theorem Move.state_of_leased {w w' : World T} {lease : CredentialLease (Stored T)}
    (h : Move w w' (.leased lease)) : w'.state = .valid lease.value lease.generation := by
  cases h with
  | handedOut hs => exact hs
  | stored ha hp hs => simp

/-! ## whole runs -/

/-- What the leases handed out so far say about the slot: none is from a
later generation, one of the current generation is the current credential,
and two of one generation are the same credential. -/
structure Bound (w : World T) (history : List (Outcome T)) : Prop where
  le : ∀ lease, .leased lease ∈ history → lease.generation ≤ w.state.generation
  current : ∀ lease, .leased lease ∈ history → lease.generation = w.state.generation →
    w.state = .valid lease.value lease.generation
  unique : ∀ lease lease', .leased lease ∈ history → .leased lease' ∈ history →
    lease.generation = lease'.generation → lease.value = lease'.value

/-- Nothing was leased at the start. -/
theorem bound_start (provider : Except AuthError Unit) :
    Bound (World.start provider : World T) [] :=
  ⟨by simp, by simp, by simp⟩

/-- One move extends the history without breaking the binding. -/
theorem Bound.move {w w' : World T} {o : Outcome T} {history : List (Outcome T)}
    (hb : Bound w history) (h : Move w w' o) : Bound w' (history ++ [o]) := by
  have hgen := h.generation_le
  -- Only the lease of this very step is from the generation it leaves.
  have hnew : ∀ lease, o = .leased lease →
      w'.state = .valid lease.value lease.generation := by
    intro lease ho
    subst ho
    exact h.state_of_leased
  have hle : ∀ lease, .leased lease ∈ history ++ [o] →
      lease.generation ≤ w'.state.generation := by
    intro lease hl
    cases List.mem_append.mp hl with
    | inl hold => exact Nat.le_trans (hb.le lease hold) hgen
    | inr hlast =>
        have hs := hnew lease (List.mem_singleton.mp hlast).symm
        exact Nat.le_of_eq (by rw [hs, CredentialSlotState.generation_valid])
  have hcurrent : ∀ lease, .leased lease ∈ history ++ [o] →
      lease.generation = w'.state.generation →
      w'.state = .valid lease.value lease.generation := by
    intro lease hl hg
    cases List.mem_append.mp hl with
    | inl hold =>
        have hg' : w'.state.generation = w.state.generation := by
          have := hb.le lease hold
          omega
        have hs := hb.current lease hold (hg.trans hg')
        rw [h.state_eq_of_generation_eq hg' (by rw [hs]; rfl), hs]
    | inr hlast => exact hnew lease (List.mem_singleton.mp hlast).symm
  have hearlier : ∀ lease, .leased lease ∈ history ++ [o] →
      lease.generation ≠ w'.state.generation → .leased lease ∈ history := by
    intro lease hl hne
    cases List.mem_append.mp hl with
    | inl hold => exact hold
    | inr hlast =>
        have hs := hnew lease (List.mem_singleton.mp hlast).symm
        rw [hs, CredentialSlotState.generation_valid] at hne
        contradiction
  refine ⟨hle, hcurrent, fun lease lease' hl hl' hg => ?_⟩
  by_cases hcur : lease.generation = w'.state.generation
  · have hs := hcurrent lease hl hcur
    have hs' := hcurrent lease' hl' (hg ▸ hcur)
    rw [hs] at hs'
    exact (CredentialSlotState.valid.inj hs').1
  · exact hb.unique lease lease' (hearlier lease hl hcur) (hearlier lease' hl' (hg ▸ hcur)) hg

section runs

variable [CredentialMaterial T] {provider : Except AuthError Unit}

/-- In every reachable world the leases are bound to their generations. -/
theorem bound_of_exec {labels : List (Label T)} {w : World T} {history : List (Outcome T)}
    (h : exec World.step (World.start provider) labels = some (w, history)) :
    Bound w history := by
  simpa using exec_history (I := Bound) (fun hb hs => hb.move (World.step_move hs)) h
    (bound_start provider)

/-- No run goes back in generations. -/
theorem generation_le_of_exec {labels : List (Label T)} {w w' : World T}
    {history : List (Outcome T)} (h : exec World.step w labels = some (w', history)) :
    w.state.generation ≤ w'.state.generation :=
  exec_relates (R := fun w w' => w.state.generation ≤ w'.state.generation)
    (fun _ => Nat.le_refl _) Nat.le_trans (fun hs => (World.step_move hs).generation_le) h

end runs

/-! ## the last generation -/

/-- A pass of `get_or_refresh` over this state would start an attempt. -/
def CredentialSlotState.NeedsAttempt [CredentialMaterial T] (state : CredentialSlotState T)
    (policy : AuthStepPolicy) (now : Instant) : Prop :=
  match state with
  | .valid value _ => ∃ reason, credentialRefreshReason value policy now = .ok (some reason)
  | .failed _ _ retryAfter => retryAfter.any (now < ·) = false
  | .empty _ => True
  | .refreshing _ _ _ _ => False

/-- The label makes the slot draw a new generation: the code reaches
`checked_add(1)`. -/
def World.DrawsGeneration [CredentialMaterial T] (w : World T) : Label T → Prop
  | .getOrRefresh policy now _ => w.slot.providerRef = .ok () ∧ w.state.NeedsAttempt policy now
  | .setManual _ => w.slot.initError = none
  | .clearManual => w.slot.initError = none
  | .invalidateGeneration generation =>
    w.slot.providerRef = .ok () ∧
      ∃ value current, w.state = .valid value current ∧ generation.all (· = current)
  | .invalidateGenerationLocal generation =>
    ∃ value current, w.state = .valid value current ∧ generation.all (· = current)
  | _ => False

/-- At the last generation a pass of `get_or_refresh` that would start an
attempt returns an error instead. -/
theorem getOrRefresh_of_max [CredentialMaterial T] {inner : CredentialSlotInner T}
    {policy : AuthStepPolicy} {now : Instant} (notify : NotifyId) (now' : Instant)
    (hmax : inner.state.generation = u64Max) (hd : inner.state.NeedsAttempt policy now) :
    ∃ error nextOwner, getOrRefresh inner policy notify now now' =
      (⟨inner.state, nextOwner⟩, .returned (.error error)) := by
  have hnext := nextGeneration_of_max hmax
  obtain ⟨state, next⟩ := inner
  cases state with
  | valid value generation =>
      obtain ⟨reason, hr⟩ := hd
      exact ⟨generationOverflow, next, by simp only [getOrRefresh, hr, hnext]⟩
  | failed generation error retryAfter =>
      have hpast : retryAfter.any (now < ·) = false := hd
      refine ⟨generationOverflow, next, ?_⟩
      simp only [getOrRefresh, hpast, hnext, Bool.false_eq_true, if_false]
  | empty generation =>
      simp only [getOrRefresh]
      split
      · next error _ => exact ⟨error, next, rfl⟩
      · next owner inner' ho =>
          obtain ⟨_, rfl⟩ := nextRefreshOwner_eq_ok ho
          simp only [hnext]
          exact ⟨generationOverflow, next + 1, rfl⟩
  | refreshing n g o p => exact absurd hd id

/-- At the last generation a manual value is refused. -/
theorem setManual_of_max {inner : CredentialSlotInner T} (value : T)
    (hmax : inner.state.generation = u64Max) :
    setManual inner value = (inner, .error generationOverflow) := by
  simp only [setManual, nextGeneration_of_max hmax]

/-- So is a manual clear. -/
theorem clearManual_of_max {inner : CredentialSlotInner T}
    (hmax : inner.state.generation = u64Max) :
    clearManual inner = (inner, .error generationOverflow) := by
  simp only [clearManual, nextGeneration_of_max hmax]

/-- An invalidation that meets the current credential at the last
generation returns an error and removes nothing. -/
theorem invalidateGenerationState_of_max {inner : CredentialSlotInner T}
    {generation : Option Nat} {value : T} {current : Nat}
    (hs : inner.state = .valid value current) (hg : generation.all (· = current))
    (hmax : inner.state.generation = u64Max) :
    invalidateGenerationState inner generation = (inner, .error generationOverflow) := by
  have hcur : current = u64Max := by simpa [hs] using hmax
  have hnone : checkedAdd u64Max current 1 = none :=
    checkedAdd_eq_none_iff.mpr (by omega)
  simp only [invalidateGenerationState, hs, hg, if_true, hnone]

/-- **Refusal at the last generation**: the step returns an error and the
slot keeps its state. -/
theorem World.step_of_max [CredentialMaterial T] {w : World T} {label : Label T}
    (hd : w.DrawsGeneration label) (hmax : w.state.generation = u64Max) :
    ∃ w' error, w.step label = some (w', .failed error) ∧ w'.state = w.state := by
  have hmax' : w.inner.state.generation = u64Max := hmax
  cases label with
  | getOrRefresh policy now now' =>
      obtain ⟨hp, hd⟩ := hd
      obtain ⟨error, nextOwner, he⟩ := getOrRefresh_of_max w.nextNotify now' hmax' hd
      refine ⟨w.withInner ⟨w.inner.state, nextOwner⟩, error, ?_, rfl⟩
      simp only [World.step, hp, he]
  | setManual value =>
      have hi : w.slot.initError = none := hd
      refine ⟨w.withInner w.inner, generationOverflow, ?_, rfl⟩
      simp only [World.step, hi, setManual_of_max _ hmax']
  | clearManual =>
      have hi : w.slot.initError = none := hd
      refine ⟨w.withInner w.inner, generationOverflow, ?_, rfl⟩
      simp only [World.step, hi, clearManual_of_max hmax']
  | invalidateGeneration generation =>
      obtain ⟨hp, value, current, hs, hg⟩ := hd
      have hs : w.inner.state = .valid value current := hs
      refine ⟨w.withInner w.inner, generationOverflow, ?_, rfl⟩
      simp only [World.step, hp, invalidateGenerationState_of_max hs hg hmax']
  | invalidateGenerationLocal generation =>
      obtain ⟨value, current, hs, hg⟩ := hd
      have hs : w.inner.state = .valid value current := hs
      refine ⟨w.withInner w.inner, generationOverflow, ?_, rfl⟩
      simp only [World.step, invalidateGenerationState_of_max hs hg hmax']
  | _ => exact absurd hd id

/-- **Generations bind credentials**: along every run of a slot the
generation never decreases, two leases of one generation carry the same
stored credential, and a step that would draw a generation past the last one
returns an error and leaves the state as it was. -/
theorem generations_bind_credentials [CredentialMaterial T] {provider : Except AuthError Unit}
    {labels labels' : List (Label T)} {w w' : World T} {history history' : List (Outcome T)}
    (hrun : exec World.step (World.start provider) labels = some (w, history))
    (hrun' : exec World.step w labels' = some (w', history')) :
    w.state.generation ≤ w'.state.generation ∧
    (∀ lease lease', .leased lease ∈ history ++ history' → .leased lease' ∈ history ++ history' →
      lease.generation = lease'.generation → lease.value = lease'.value) ∧
    (∀ label, w'.DrawsGeneration label → w'.state.generation = u64Max →
      ∃ w'' error, w'.step label = some (w'', .failed error) ∧ w''.state = w'.state) := by
  have hall : exec World.step (World.start provider) (labels ++ labels') =
      some (w', history ++ history') :=
    exec_append_eq_some.mpr ⟨w, history, history', hrun, hrun', rfl⟩
  exact ⟨generation_le_of_exec hrun', (bound_of_exec hall).unique,
    fun label hd hmax => World.step_of_max hd hmax⟩

/-- A credential is leased, restored by a cancelled refresh and leased
again: one credential under two generations, no generation with two. -/
theorem generations_bind_credentials_restored :
    let token : Stored AccessToken := ⟨0, "t", some 100⟩
    let strict : AuthStepPolicy := { AuthStepPolicy.default with refreshSkew := 0 }
    ∃ w w' : World AccessToken,
      exec World.step (World.start (.ok ())) [.setManual token.value, .getOrRefresh strict 0 0] =
        some (w, [.done, .leased ⟨token, 1⟩]) ∧
      exec World.step w [.getOrRefresh .default 0 0, .dropGuard 1, .getOrRefresh strict 0 0] =
        some (w', [.done, .done, .leased ⟨token, 2⟩]) ∧
      w.state.generation ≤ w'.state.generation := by
  intro token strict
  have hrun : exec World.step (World.start (.ok ()))
      [.setManual token.value, .getOrRefresh strict 0 0] =
      some (⟨⟨true, none, .valid token 1, 1⟩, [], [], [], 0, 1⟩,
        [.done, .leased ⟨token, 1⟩]) := rfl
  have hrun' : exec World.step ⟨⟨true, none, .valid token 1, 1⟩, [], [], [], 0, 1⟩
      [.getOrRefresh .default 0 0, .dropGuard 1, .getOrRefresh strict 0 0] =
      some (⟨⟨true, none, .valid token 2, 2⟩, [], [], [0], 1, 1⟩,
        [.done, .done, .leased ⟨token, 2⟩]) := rfl
  exact ⟨_, _, hrun, hrun', (generations_bind_credentials hrun hrun').1⟩

end Concord
