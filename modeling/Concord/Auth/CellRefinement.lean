import Concord.Auth.Cell
import Concord.Lib.Trace

/-!
# Concord.Auth.CellRefinement

The credential slot refines the cell (`slot_refines_cell`): every run of the slot
is a run of the cell with the same labels and the same answers.

The cell of a world is read off the state of its slot and the attempt that owns
it.  `Flight`, the invariant of the attempts, says that there is one, and that it
is the one whose commit the slot takes.
-/

namespace Concord

open Checked Transition

variable {T : Type*}

/-! ## the slot seen as a cell -/

/-- What an attempt will leave if it is given up. -/
def RefreshPrevious.holding : RefreshPrevious (Stored T) → Holding T
  | .empty => .nothing
  | .valid value generation => .credential ⟨value, generation⟩
  | .failed error retryAfter => .failure error retryAfter

/-- What a slot holds, during an attempt as before it. -/
def CredentialSlotState.holding : CredentialSlotState (Stored T) → Holding T
  | .empty _ => .nothing
  | .valid value generation => .credential ⟨value, generation⟩
  | .refreshing _ _ _ previous => previous.holding
  | .failed _ error retryAfter => .failure error retryAfter

/-- How far an attempt is. -/
def Phase.stage : Phase T → Stage T
  | .awaiting => .asked
  | .checked result _ => .answered result
  | .returning => .leaving

/-- The cell that a slot is an implementation of. -/
def World.cell (w : World T) : Cell T where
  holding := w.state.holding
  fetch := w.state.owner?.bind fun owner =>
    (w.attempt? owner).map fun attempt => (owner, attempt.phase.stage)

/-! ## the attempts of a slot -/

section attempts

variable {w : World T} {owner owner' : RefreshOwnerId}

/-- Every attempt is found by its owner. -/
theorem attempt?_of_mem (hf : Flight w) {a : Attempt T} (ha : a ∈ w.attempts)
    (howner : a.guard.owner = owner) : w.attempt? owner = some a := by
  cases hfind : w.attempt? owner with
  | none =>
      have hnone := List.find?_eq_none.mp hfind a ha
      simp [howner] at hnone
  | some b =>
      obtain ⟨hb, hsame⟩ := attempt?_eq_some hfind
      rw [hf.eq_of_owner hb ha (hsame.trans howner.symm)]

/-- An attempt is replaced by one of the same owner. -/
theorem owner_replaced {attempt : Attempt T} (howner : attempt.guard.owner = owner)
    (b : Attempt T) :
    (if b.guard.owner = owner then attempt else b).guard.owner = b.guard.owner := by
  split
  · next heq => rw [howner, heq]
  · rfl

/-- An attempt that is set is the one that is found. -/
theorem attempt?_setAttempt {a attempt : Attempt T} (h : w.attempt? owner = some a)
    (howner : attempt.guard.owner = owner) :
    (w.setAttempt owner attempt).attempt? owner = some attempt := by
  have hfind : w.attempts.find? (fun b => decide (b.guard.owner = owner)) = some a := h
  have howner' := (attempt?_eq_some h).2
  simp only [World.attempt?, World.setAttempt, List.find?_map, Function.comp_def,
    owner_replaced howner]
  simp [hfind, howner']

/-- The other attempts are found as before. -/
theorem attempt?_setAttempt_of_ne {attempt : Attempt T} (howner : attempt.guard.owner = owner)
    (hne : owner' ≠ owner) :
    (w.setAttempt owner attempt).attempt? owner' = w.attempt? owner' := by
  cases hfind : w.attempt? owner' with
  | none =>
      have hnone : w.attempts.find? (fun b => decide (b.guard.owner = owner')) = none := hfind
      simp only [World.attempt?, World.setAttempt, List.find?_map, Function.comp_def,
        owner_replaced howner]
      simp [hnone]
  | some a =>
      have hsome : w.attempts.find? (fun b => decide (b.guard.owner = owner')) = some a := hfind
      have hkept : a.guard.owner ≠ owner := by
        rw [(attempt?_eq_some hfind).2]
        exact hne
      simp only [World.attempt?, World.setAttempt, List.find?_map, Function.comp_def,
        owner_replaced howner]
      simp [hsome, hkept]

/-- So are they when one is removed. -/
theorem attempt?_removeAttempt_of_ne (hne : owner' ≠ owner) :
    (w.removeAttempt owner).attempt? owner' = w.attempt? owner' := by
  have hsame : ∀ b : Attempt T,
      decide (decide (b.guard.owner ≠ owner) = true ∧ decide (b.guard.owner = owner') = true) =
        decide (b.guard.owner = owner') := by
    intro b
    by_cases h : b.guard.owner = owner'
    · simp [h, hne]
    · simp [h]
  simp only [World.attempt?, World.removeAttempt, List.find?_filter, hsame]

/-- The attempt in flight is armed, and has the generation of the slot. -/
theorem exists_attempt (hf : Flight w) (h : w.state.owner? = some owner) :
    ∃ a, w.attempt? owner = some a ∧ a.guard = ⟨owner, false⟩ ∧
      ∃ notify previous, w.state = .refreshing notify a.generation owner previous := by
  cases hstate : w.state with
  | refreshing notify generation owner' previous =>
      rw [hstate, CredentialSlotState.owner?_refreshing, Option.some.injEq] at h
      subst h
      obtain ⟨a, ha, hguard, rfl⟩ := hf.owned hstate
      exact ⟨a, attempt?_of_mem hf ha (by rw [hguard]), hguard, notify, previous, rfl⟩
  | empty generation => simp [hstate] at h
  | valid value generation => simp [hstate] at h
  | failed generation error retryAfter => simp [hstate] at h

end attempts

/-! ## one step -/

section step

variable {provider : Except AuthError Unit} {w w' : World T} {owner : RefreshOwnerId}

/-- A slot made with a provider, or with the error that there is none. -/
structure World.MadeWith (w : World T) (provider : Except AuthError Unit) : Prop where
  providerRef : w.slot.providerRef = provider
  initError : ∀ error, w.slot.initError = some error → provider = .error error

/-- The owner in the slot has an armed attempt, the fetch of the cell. -/
theorem fetch_of_owner (hf : Flight w) (h : w.state.owner? = some owner) :
    ∃ a, w.attempt? owner = some a ∧ a.guard = ⟨owner, false⟩ ∧
      w.cell.fetch = some (owner, a.phase.stage) := by
  obtain ⟨a, hfind, hguard, _⟩ := exists_attempt hf h
  exact ⟨a, hfind, hguard, by simp [World.cell, h, hfind]⟩

/-- A slot without an owner is a cell without a fetch. -/
theorem fetch_of_idle (h : w.state.owner? = none) : w.cell.fetch = none := by
  simp [World.cell, h]

/-- The fetch of the cell is that of the owner in the slot. -/
theorem owner_of_fetch {fetch : RefreshOwnerId × Stage T} (h : w.cell.fetch = some fetch) :
    w.state.owner? = some fetch.1 := by
  cases howner : w.state.owner? with
  | none => simp [World.cell, howner] at h
  | some owner =>
      cases hfind : w.attempt? owner with
      | none => simp [World.cell, howner, hfind] at h
      | some a =>
          simp only [World.cell, howner, Option.bind_some, hfind, Option.map_some,
            Option.some.injEq] at h
          rw [← h]

/-- A change to attempts that do not own the slot is not seen. -/
theorem cell_eq_of (hstate : w'.state = w.state)
    (h : ∀ owner, w.state.owner? = some owner → w'.attempt? owner = w.attempt? owner) :
    w'.cell = w.cell := by
  cases howner : w.state.owner? with
  | none => simp [World.cell, hstate, howner]
  | some owner => simp [World.cell, hstate, howner, h owner howner]

/-- What an attempt keeps of an idle slot is what the slot holds. -/
theorem holding_previous {state : CredentialSlotState (Stored T)} (h : state.owner? = none) :
    state.previous.holding = state.holding := by
  cases state with
  | refreshing joined generation owner previous => simp at h
  | empty generation => rfl
  | valid value generation => rfl
  | failed generation error retryAfter => rfl

/-- An attempt that is given up restores what it kept, under its own generation. -/
theorem holding_intoStateAt (previous : RefreshPrevious (Stored T)) (generation : Nat) :
    (previous.intoStateAt generation).holding = previous.holding.renumber generation := by
  cases previous with
  | empty => rfl
  | valid value old => rfl
  | failed error retryAfter => rfl

/-- A cell with a credential is a slot that holds it. -/
theorem held_of_holding {state : CredentialSlotState (Stored T)}
    {lease : CredentialLease (Stored T)} (h : state.holding = .credential lease) :
    state.held? = some lease := by
  cases state with
  | empty generation => cases h
  | failed generation error retryAfter => cases h
  | valid value generation =>
      cases h
      rfl
  | refreshing joined generation owner previous =>
      cases previous with
      | empty => cases h
      | failed error retryAfter => cases h
      | valid value old =>
          cases h
          rfl

/-- An idle slot with a credential hands it out. -/
theorem getCached_of_holding {inner : CredentialSlotInner (Stored T)}
    {lease : CredentialLease (Stored T)} (hidle : inner.state.owner? = none)
    (h : inner.state.holding = .credential lease) : getCached inner = some lease := by
  obtain ⟨state, next⟩ := inner
  cases state with
  | empty generation => cases h
  | failed generation error retryAfter => cases h
  | refreshing joined generation owner previous => cases hidle
  | valid value generation =>
      cases h
      rfl

/-- The cell after an attempt was started. -/
theorem cell_started (hf : Flight w) (hidle : w.state.owner? = none) (generation : Nat) :
    ((w.withInner ⟨.refreshing w.nextNotify generation w.inner.nextOwner w.state.previous,
        w.inner.nextOwner + 1⟩).begin generation ⟨w.inner.nextOwner, false⟩).cell =
      { w.cell with fetch := some (w.inner.nextOwner, .asked) } := by
  have hnone : w.attempts.find? (fun b => decide (b.guard.owner = w.inner.nextOwner)) = none := by
    rw [List.find?_eq_none]
    intro b hb
    have hne := Nat.ne_of_lt (hf.fresh b hb)
    simp [hne]
  have hholding := holding_previous hidle
  simp [World.cell, World.attempt?, hnone, CredentialSlotState.holding, hholding, Phase.stage]

/-- A failure is stored with the time until which it is to be waited out, if the
clock goes that far. -/
theorem commitSlotResultStore_error {inner : CredentialSlotInner (Stored T)} {generation : Nat}
    {guard : RefreshGuard} {notify : NotifyId}
    (hcheck : commitSlotResultCheck inner generation guard = some notify) (error : AuthError)
    (now : Instant) :
    (∃ wait, error.retryAfter = some wait ∧ instantMax < now + wait ∧
      commitSlotResultStore inner generation guard (.error error) now =
        ⟨inner, guard, false, .error retryAfterOverflow⟩) ∨
    (∀ wait ∈ error.retryAfter, now + wait ≤ instantMax) ∧
      commitSlotResultStore inner generation guard (.error error) now =
        ⟨{ inner with state := .failed generation error (error.retryAfter.map (now + ·)) },
          guard.disarm, true, .ok (.failed error)⟩ := by
  cases hretry : error.retryAfter with
  | none => exact .inr ⟨by simp, by simp [commitSlotResultStore, hcheck, hretry]⟩
  | some wait =>
      cases hadd : checkedAdd instantMax now wait with
      | none =>
          have hover := checkedAdd_eq_none_iff.mp hadd
          refine .inl ⟨wait, rfl, hover, ?_⟩
          simp [commitSlotResultStore, hcheck, hretry, checkedAuthInstantAdd, hadd,
            retryAfterOverflow]
      | some retryAt =>
          obtain ⟨hle, rfl⟩ := checkedAdd_eq_some_iff.mp hadd
          refine .inr ⟨by simpa using hle, ?_⟩
          simp [commitSlotResultStore, hcheck, hretry, checkedAuthInstantAdd, hadd]

/-- The attempt in flight is not stale. -/
theorem check_of_fetch (hf : Flight w) {a : Attempt T} (hfind : w.attempt? owner = some a)
    {stage : Stage T} (h : w.cell.fetch = some (owner, stage)) :
    a.guard.disarmed = false ∧
      ∃ notify, commitSlotResultCheck w.inner a.generation a.guard = some notify := by
  obtain ⟨b, hfind', hguard, notify, previous, hstate⟩ := exists_attempt hf (owner_of_fetch h)
  rw [hfind, Option.some.injEq] at hfind'
  subst hfind'
  refine ⟨by rw [hguard], notify, ?_⟩
  rw [commitSlotResultCheck_eq_some_iff, hguard]
  exact ⟨previous, hstate⟩

/-- What an attempt does that does not own the slot is not seen. -/
theorem cell_setAttempt_of_stale (hf : Flight w) {a : Attempt T}
    (hfind : w.attempt? owner = some a)
    (hstale : commitSlotResultCheck w.inner a.generation a.guard = none) (attempt : Attempt T)
    (howner : attempt.guard.owner = owner) :
    (∀ stage, w.cell.fetch ≠ some (owner, stage)) ∧
      (w.setAttempt owner attempt).cell = w.cell := by
  have hnot : ∀ stage, w.cell.fetch ≠ some (owner, stage) := by
    intro stage h
    obtain ⟨_, notify, hcheck⟩ := check_of_fetch hf hfind h
    rw [hstale] at hcheck
    contradiction
  refine ⟨hnot, cell_eq_of rfl ?_⟩
  intro owner' howner'
  refine attempt?_setAttempt_of_ne howner ?_
  rintro rfl
  obtain ⟨b, _, _, hfetch⟩ := fetch_of_owner hf howner'
  exact hnot _ hfetch

/-- A change of the owner's attempt is a change of the fetch. -/
theorem cell_setAttempt_of_owner (h : w.state.owner? = some owner) {a : Attempt T}
    (hfind : w.attempt? owner = some a) (attempt : Attempt T)
    (howner : attempt.guard.owner = owner) :
    w.cell.fetch = some (owner, a.phase.stage) ∧ (w.setAttempt owner attempt).cell =
      { w.cell with fetch := some (owner, attempt.phase.stage) } := by
  have hset := attempt?_setAttempt hfind howner
  refine ⟨by simp [World.cell, h, hfind], ?_⟩
  simp [World.cell, h, hset]

/-- What a credential has to be refreshed for, or why that cannot be said. -/
theorem exhausted_of_refreshReason [CredentialMaterial T] {value : Stored T}
    {policy : AuthStepPolicy} {now : Instant} {error : AuthError} (h : credentialRefreshReason value policy now = .error error) :
    Exhausted error := by
  unfold credentialRefreshReason at h
  split at h
  · cases h
  · split at h
    · cases h
    · split at h
      · next hadd =>
          cases h
          unfold checkedAuthInstantAdd at hadd
          split at hadd
          · cases hadd
          · cases hadd
            exact .inr (.inr rfl)
      · split at h
        · cases h
        · cases h

/-- There is no next generation after `u64::MAX`. -/
theorem exhausted_of_nextGeneration {state : CredentialSlotState (Stored T)} {error : AuthError}
    (h : nextGeneration state = .error error) : Exhausted error := by
  unfold nextGeneration at h
  split at h
  · cases h
  · cases h
    exact .inl rfl

/-- There is no next owner after `u64::MAX`. -/
theorem exhausted_of_nextRefreshOwner {inner : CredentialSlotInner (Stored T)} {error : AuthError}
    (h : inner.nextRefreshOwner = .error error) : Exhausted error := by
  unfold CredentialSlotInner.nextRefreshOwner at h
  split at h
  · cases h
  · cases h
    exact .inr (.inl rfl)

variable [CredentialMaterial T]

/-- A pass that hands nothing out waits, or finds that what is held does not
serve. -/
inductive PassOf (holding : Holding T) (policy : AuthStepPolicy) (now : Instant) :
    GetOrRefreshPass (Stored T) → Prop
  | leased {lease : CredentialLease (Stored T)} (h : holding.Serves policy now (.leased lease)) :
      PassOf holding policy now (.returned (.ok lease))
  | backsOff {error : AuthError} (h : holding.Serves policy now (.failed error)) :
      PassOf holding policy now (.returned (.error error))
  | exhausted {error : AuthError} (h : Exhausted error)
      (hdue : ∀ outcome, ¬ holding.Serves policy now outcome) :
      PassOf holding policy now (.returned (.error error))
  | joins {notify : NotifyId} : PassOf holding policy now (.action (.wait notify))
  | acquires {generation : Nat} {guard : RefreshGuard}
      (hdue : ∀ outcome, ¬ holding.Serves policy now outcome) :
      PassOf holding policy now (.action (.acquire generation guard))
  | refreshes {current : Stored T} {generation : Nat} {guard : RefreshGuard}
      {reason : CredentialRefreshReason} (hdue : ∀ outcome, ¬ holding.Serves policy now outcome) :
      PassOf holding policy now (.action (.refresh current generation guard reason))

/-- What a caller is handed at once, or told, is decided by what is held. -/
theorem passOf_getOrRefresh (inner : CredentialSlotInner (Stored T)) (policy : AuthStepPolicy)
    (notify : NotifyId) (now now' : Instant) :
    PassOf inner.state.holding policy now (getOrRefresh inner policy notify now now').2 := by
  obtain ⟨state, next⟩ := inner
  cases state with
  | valid value generation =>
      have hserves : ∀ outcome, credentialRefreshReason value policy now ≠ .ok none →
          ¬ (Holding.credential (T := T) ⟨value, generation⟩).Serves policy now outcome :=
        fun outcome hne h => hne h.2
      simp only [getOrRefresh, CredentialSlotState.holding]
      cases hreason : credentialRefreshReason value policy now with
      | error error =>
          exact .exhausted (exhausted_of_refreshReason hreason)
            (fun outcome => hserves outcome (by simp [hreason]))
      | ok reason =>
          cases reason with
          | none => exact .leased ⟨rfl, hreason⟩
          | some reason =>
              have hdue : ∀ outcome,
                  ¬ (Holding.credential (T := T) ⟨value, generation⟩).Serves policy now outcome :=
                fun outcome => hserves outcome (by simp [hreason])
              simp only
              split
              · next hg => exact .exhausted (exhausted_of_nextGeneration hg) hdue
              · split
                · next hr => exact .exhausted (exhausted_of_refreshReason hr) hdue
                · split
                  · next ho => exact .exhausted (exhausted_of_nextRefreshOwner ho) hdue
                  · exact .refreshes hdue
  | refreshing joined generation owner previous =>
      simp only [getOrRefresh, CredentialSlotState.owner?_refreshing, if_true]
      exact .joins
  | failed generation error retryAfter =>
      simp only [getOrRefresh, CredentialSlotState.holding]
      split
      · next hwait =>
          cases retryAfter with
          | none => simp at hwait
          | some retryAt => exact .backsOff ⟨rfl, by simpa using hwait⟩
      · next hwait =>
          have hdue : ∀ outcome,
              ¬ (Holding.failure (T := T) error retryAfter).Serves policy now outcome := by
            intro outcome h
            cases retryAfter with
            | none => exact h
            | some retryAt => exact hwait (by simpa using h.2)
          split
          · next hg => exact .exhausted (exhausted_of_nextGeneration hg) hdue
          · split
            · next ho => exact .exhausted (exhausted_of_nextRefreshOwner ho) hdue
            · exact .acquires hdue
  | empty generation =>
      have hdue : ∀ outcome, ¬ (Holding.nothing (T := T)).Serves policy now outcome :=
        fun outcome h => h
      simp only [getOrRefresh, CredentialSlotState.holding]
      split
      · next ho => exact .exhausted (exhausted_of_nextRefreshOwner ho) hdue
      · split
        · next hg => exact .exhausted (exhausted_of_nextGeneration hg) hdue
        · exact .acquires hdue

/-- During an attempt a caller waits. -/
theorem getOrRefresh_of_owner {inner : CredentialSlotInner (Stored T)}
    (h : inner.state.owner? = some owner) (policy : AuthStepPolicy) (notify : NotifyId)
    (now now' : Instant) :
    ∃ joined, getOrRefresh inner policy notify now now' = (inner, .action (.wait joined)) := by
  obtain ⟨state, next⟩ := inner
  cases state with
  | refreshing joined generation owner previous =>
      refine ⟨joined, ?_⟩
      simp [getOrRefresh]
  | empty generation => simp at h
  | valid value generation => simp at h
  | failed generation error retryAfter => simp at h

/-- A caller of the slot takes a step of the cell. -/
theorem cellStep_getOrRefresh (hf : Flight w) (hmade : w.MadeWith provider)
    {policy : AuthStepPolicy} {now now' : Instant} {o : Outcome T}
    (h : w.step (.getOrRefresh policy now now') = some (w', o)) :
    CellStep provider w.cell (.getOrRefresh policy now now') o w'.cell := by
  simp only [World.step] at h
  split at h
  · next error herror =>
      cases h
      exact .unprovided (hmade.providerRef.symm.trans herror)
  · cases howner : w.state.owner? with
    | some owner =>
        obtain ⟨joined, hjoins⟩ : ∃ joined, getOrRefresh w.inner policy w.nextNotify now now' =
            (w.inner, .action (.wait joined)) := getOrRefresh_of_owner howner ..
        obtain ⟨a, _, _, hfetch⟩ := fetch_of_owner hf howner
        rw [hjoins] at h
        cases h
        exact .joined hfetch
    | none =>
        have hidle := fetch_of_idle howner
        have hfetches : (∀ outcome, ¬ w.cell.holding.Serves policy now outcome) →
            CellStep provider w.cell (.getOrRefresh policy now now') .done
              ((w.withInner ⟨.refreshing w.nextNotify (w.state.generation + 1) w.inner.nextOwner
                w.state.previous, w.inner.nextOwner + 1⟩).begin (w.state.generation + 1)
                ⟨w.inner.nextOwner, false⟩).cell := by
          intro hdue
          rw [cell_started hf howner]
          exact .fetches ⟨hidle, hdue⟩
        have hspec := getOrRefresh_spec w.inner policy w.nextNotify now now'
        have hpass := passOf_getOrRefresh w.inner policy w.nextNotify now now'
        cases hp : getOrRefresh w.inner policy w.nextNotify now now' with
        | mk inner pass =>
            rw [hp] at h hspec hpass
            cases hspec with
            | lease hs hr =>
                cases h
                cases hpass with
                | leased hserves => exact .served hidle hserves
            | join hs =>
                have hbusy : w.state.owner? = some _ := congrArg CredentialSlotState.owner? hs
                rw [howner] at hbusy
                contradiction
            | acquire ho hg =>
                cases h
                cases hpass with
                | acquires hdue => exact hfetches hdue
            | refresh ho hg =>
                cases h
                cases hpass with
                | refreshes hdue => exact hfetches hdue
            | refused hn =>
                cases h
                cases hpass with
                | backsOff hserves => exact .served hidle hserves
                | exhausted hexhausted hdue =>
                    refine .exhausted hexhausted (fun owner hends => hends) ?_
                    intro policy' now₁ now₂ heq
                    cases heq
                    exact ⟨hidle, hdue⟩

/-- The check of an attempt is a step of the cell. -/
theorem cellStep_commitCheck (hf : Flight w) {result : Except AuthError T} {o : Outcome T}
    (h : w.step (.commitCheck owner result) = some (w', o)) :
    CellStep provider w.cell (.commitCheck owner result) o w'.cell := by
  simp only [World.step] at h
  split at h
  · next guard generation hfind =>
      obtain rfl : guard.owner = owner := (attempt?_eq_some hfind).2
      split at h
      · next hstale =>
          cases h
          obtain ⟨hnot, hcell⟩ := cell_setAttempt_of_stale hf hfind hstale
            ⟨guard.disarm, generation, .returning⟩ rfl
          rw [hcell]
          exact .stale rfl hnot
      · next notify hcheck =>
          cases h
          obtain ⟨previous, hstate⟩ := commitSlotResultCheck_eq_some_iff.mp hcheck
          have howns : w.state.owner? = some guard.owner :=
            congrArg CredentialSlotState.owner? hstate
          obtain ⟨hfetch, hcell⟩ := cell_setAttempt_of_owner howns hfind
            ⟨guard, generation, .checked (result.map (⟨w.nextObject, ·⟩)) notify⟩ rfl
          have hanswered : CellStep provider w.cell (.commitCheck guard.owner result) .done
              { w.cell with
                fetch := some (guard.owner, .answered (result.map (⟨w.nextObject, ·⟩))) } :=
            .answered hfetch
          exact hcell ▸ hanswered
  · contradiction

/-- The end of an attempt is a step of the cell. -/
theorem cellStep_commitStore (hf : Flight w) {now : Instant} {o : Outcome T}
    (h : w.step (.commitStore owner now) = some (w', o)) :
    CellStep provider w.cell (.commitStore owner now) o w'.cell := by
  simp only [World.step] at h
  split at h
  · next guard generation result notify hfind =>
      obtain rfl : guard.owner = owner := (attempt?_eq_some hfind).2
      cases hcheck : commitSlotResultCheck w.inner generation guard with
      | none =>
          simp only [commitSlotResultStore, hcheck] at h
          cases h
          obtain ⟨hnot, hcell⟩ := cell_setAttempt_of_stale hf hfind hcheck
            ⟨guard.disarm, generation, .returning⟩ rfl
          have hstale : CellStep provider w.cell (.commitStore guard.owner now) .done w.cell :=
            .stale rfl hnot
          exact hcell ▸ hstale
      | some notify' =>
          obtain ⟨previous, hstate⟩ := commitSlotResultCheck_eq_some_iff.mp hcheck
          have howns : w.state.owner? = some guard.owner :=
            congrArg CredentialSlotState.owner? hstate
          obtain ⟨hfetch, hcell⟩ := cell_setAttempt_of_owner howns hfind
            ⟨guard, generation, .returning⟩ rfl
          cases result with
          | ok value =>
              simp only [commitSlotResultStore, hcheck] at h
              cases h
              exact .stored hfetch
          | error error =>
              rcases commitSlotResultStore_error hcheck error now with
                ⟨wait, hwait, hover, hstore⟩ | ⟨hfits, hstore⟩
              · rw [hstore] at h
                cases h
                have hunwinds : CellStep provider w.cell (.commitStore guard.owner now)
                    (.failed retryAfterOverflow)
                    { w.cell with fetch := some (guard.owner, .leaving) } :=
                  .unwinds hfetch hwait hover
                exact hcell ▸ hunwinds
              · rw [hstore] at h
                cases h
                exact .failed hfetch hfits
  · contradiction

/-- An attempt that is given up is a step of the cell. -/
theorem cellStep_dropGuard (hf : Flight w) {o : Outcome T}
    (h : w.step (.dropGuard owner) = some (w', o)) :
    CellStep provider w.cell (.dropGuard owner) o w'.cell := by
  simp only [World.step] at h
  split at h
  · contradiction
  · next guard generation phase _ hfind =>
      obtain rfl : guard.owner = owner := (attempt?_eq_some hfind).2
      have hspec := guard.drop_spec w.inner
      cases h
      cases hdrop : guard.drop w.inner with
      | mk inner notify =>
          rw [hdrop] at hspec
          cases hspec with
          | kept hkept =>
              have hnot : ∀ stage, w.cell.fetch ≠ some (guard.owner, stage) := by
                intro stage hfetch
                have harmed := (check_of_fetch hf hfind hfetch).1
                cases hkept with
                | inl hdisarmed =>
                    rw [harmed] at hdisarmed
                    contradiction
                | inr hlost => exact hlost (owner_of_fetch hfetch)
              have hcell : ((w.withInner w.inner).removeAttempt guard.owner).cell = w.cell := by
                refine cell_eq_of rfl ?_
                intro owner' howner'
                refine attempt?_removeAttempt_of_ne ?_
                rintro rfl
                obtain ⟨b, _, _, hfetch⟩ := fetch_of_owner hf howner'
                exact hnot _ hfetch
              have hstale : CellStep provider w.cell (.dropGuard guard.owner) .done w.cell :=
                .stale rfl hnot
              exact hcell ▸ hstale
          | @rolledBack notify generation' previous _ hstate =>
              have howns : w.state.owner? = some guard.owner :=
                congrArg CredentialSlotState.owner? hstate
              obtain ⟨hfetch, _⟩ := cell_setAttempt_of_owner howns hfind
                ⟨guard, generation, phase⟩ rfl
              have hholding : w.cell.holding = previous.holding :=
                congrArg CredentialSlotState.holding hstate
              have hgivenUp : CellStep provider w.cell (.dropGuard guard.owner) .done
                  ⟨w.cell.holding.renumber generation', none⟩ := .givenUp hfetch
              rw [hholding, ← holding_intoStateAt] at hgivenUp
              have hcell : (((w.withState (previous.intoStateAt generation')).removeAttempt
                  guard.owner).enqueue (some notify)).cell =
                  ⟨(previous.intoStateAt generation').holding, none⟩ := by
                simp [World.cell]
              exact hcell ▸ hgivenUp
  · contradiction

/-- A generation that overflows leaves the cell as it is. -/
theorem exhausted_generation {label : Label T} (hends : ∀ owner, ¬ label.Ends owner)
    (hread : ∀ policy now now', label ≠ .getOrRefresh policy now now') :
    CellStep provider w.cell label (.failed generationOverflow) w.cell :=
  .exhausted (.inl rfl) hends fun policy now now' heq => absurd heq (hread policy now now')

/-- A credential that is set is a step of the cell. -/
theorem cellStep_setManual (hmade : w.MadeWith provider) {value : T} {o : Outcome T}
    (h : w.step (.setManual value) = some (w', o)) :
    CellStep provider w.cell (.setManual value) o w'.cell := by
  simp only [World.step] at h
  split at h
  · next error herror =>
      cases h
      exact .unprovided (hmade.initError error herror)
  · rcases setManual_spec w.inner (⟨w.nextObject, value⟩ : Stored T) with ⟨_, hset⟩ | hset
    · rw [hset] at h
      cases h
      exact .set
    · rw [hset] at h
      cases h
      exact exhausted_generation (fun _ hends => hends) (by simp)

/-- So is clearing it. -/
theorem cellStep_clearManual (hmade : w.MadeWith provider) {o : Outcome T}
    (h : w.step .clearManual = some (w', o)) :
    CellStep provider w.cell .clearManual o w'.cell := by
  simp only [World.step] at h
  split at h
  · next error herror =>
      cases h
      exact .unprovided (hmade.initError error herror)
  · rcases clearManual_spec w.inner with ⟨_, hclear⟩ | hclear
    · rw [hclear] at h
      cases h
      exact .cleared
    · rw [hclear] at h
      cases h
      exact exhausted_generation (fun _ hends => hends) (by simp)

/-- So is an invalidation, by what it leaves in the slot. -/
theorem cellStep_of_invalidated (provider : Except AuthError Unit) {generation : Option Nat}
    {label : Label T}
    (hlabel : label.Invalidates generation) {inner : CredentialSlotInner (Stored T)}
    {result : Except AuthError (Option (Stored T) × Option Nat)}
    (hspec : InvalidateSpec w.inner generation (inner, result)) :
    (∀ error, result = .error error →
      CellStep provider w.cell label (.failed error) (w.withInner inner).cell) ∧
    ∀ removed, result = .ok removed →
      CellStep provider w.cell label .done (w.withInner inner).cell := by
  cases hspec with
  | current hstate hgeneration hle =>
      have hholding : w.cell.holding = .credential ⟨_, _⟩ :=
        congrArg CredentialSlotState.holding hstate
      have hidle : w.cell.fetch = none :=
        fetch_of_idle (congrArg CredentialSlotState.owner? hstate)
      have hinvalidated : CellStep provider w.cell label .done ⟨.nothing, w.cell.fetch⟩ :=
        .invalidated hlabel hholding hgeneration
      rw [hidle] at hinvalidated
      exact ⟨by simp, fun _ _ => hinvalidated⟩
  | @previous notify _ owner _ _ hstate hgeneration =>
      have hholding : w.cell.holding = .credential ⟨_, _⟩ :=
        congrArg CredentialSlotState.holding hstate
      have howns : w.state.owner? = some owner := congrArg CredentialSlotState.owner? hstate
      have hinvalidated : CellStep provider w.cell label .done ⟨.nothing, w.cell.fetch⟩ :=
        .invalidated hlabel hholding hgeneration
      have hfetch : w.cell.fetch = (w.attempt? owner).map fun attempt =>
          (owner, attempt.phase.stage) := by
        simp [World.cell, howns]
      rw [hfetch] at hinvalidated
      exact ⟨by simp, fun _ _ => hinvalidated⟩
  | exhausted hstate hgeneration hmax =>
      refine ⟨?_, by simp⟩
      rintro error ⟨⟩
      rcases hlabel with rfl | rfl
      · exact exhausted_generation (fun _ hends => hends) (by simp)
      · exact exhausted_generation (fun _ hends => hends) (by simp)
  | ignored hmiss =>
      refine ⟨by simp, fun _ _ => .missed hlabel ?_⟩
      intro lease hholding
      exact hmiss lease (held_of_holding hholding)

/-- The same of both labels of an invalidation. -/
theorem cellStep_invalidate (hmade : w.MadeWith provider) {generation : Option Nat}
    {label : Label T} (hlabel : label.Invalidates generation) {o : Outcome T}
    (h : w.step label = some (w', o)) : CellStep provider w.cell label o w'.cell := by
  have hspec := invalidateGenerationState_spec w.inner generation
  cases hinvalidate : invalidateGenerationState w.inner generation with
  | mk inner result =>
      rw [hinvalidate] at hspec
      obtain ⟨herror, hok⟩ := cellStep_of_invalidated provider hlabel hspec
      rcases hlabel with rfl | rfl
      · simp only [World.step, hinvalidate] at h
        split at h
        · next error hnone =>
            cases h
            exact .unprovided (hmade.providerRef.symm.trans hnone)
        · cases result with
          | error error =>
              cases h
              exact herror error rfl
          | ok removed =>
              cases h
              exact hok removed rfl
      · simp only [World.step, hinvalidate] at h
        cases result with
        | error error =>
            cases h
            exact herror error rfl
        | ok removed =>
            cases h
            exact hok removed rfl

/-- So is reading what is cached. -/
theorem cellStep_getCached (hf : Flight w) (hmade : w.MadeWith provider) {o : Outcome T}
    (h : w.step .getCached = some (w', o)) : CellStep provider w.cell .getCached o w'.cell := by
  simp only [World.step] at h
  split at h
  · next error herror =>
      cases h
      exact .empty (.inl ⟨error, hmade.initError error herror⟩)
  · split at h
    · next lease hcached =>
        cases h
        unfold getCached at hcached
        split at hcached
        · next value generation hstate =>
            cases hcached
            exact .peeked (fetch_of_idle (congrArg CredentialSlotState.owner? hstate))
              (congrArg CredentialSlotState.holding hstate)
        · contradiction
    · next hcached =>
        cases h
        refine .empty (.inr ?_)
        cases howner : w.state.owner? with
        | some owner =>
            obtain ⟨a, _, _, hfetch⟩ := fetch_of_owner hf howner
            exact .inl (by simp [hfetch])
        | none =>
            refine .inr ?_
            intro lease hholding
            have hsome : getCached w.inner = some lease := getCached_of_holding howner hholding
            rw [hcached] at hsome
            contradiction

/-- **Every step of the slot is a step of the cell.** -/
theorem cellStep (hf : Flight w) (hmade : w.MadeWith provider) {label : Label T} {o : Outcome T}
    (h : w.step label = some (w', o)) : CellStep provider w.cell label o w'.cell := by
  cases label with
  | getOrRefresh policy now now' => exact cellStep_getOrRefresh hf hmade h
  | commitCheck owner result => exact cellStep_commitCheck hf h
  | commitStore owner now => exact cellStep_commitStore hf h
  | dropGuard owner => exact cellStep_dropGuard hf h
  | setManual value => exact cellStep_setManual hmade h
  | clearManual => exact cellStep_clearManual hmade h
  | invalidateGeneration generation => exact cellStep_invalidate hmade (.inl rfl) h
  | invalidateGenerationLocal generation => exact cellStep_invalidate hmade (.inr rfl) h
  | getCached => exact cellStep_getCached hf hmade h
  | notifyWaiters notify =>
      simp only [World.step] at h
      split at h
      · cases h
        exact .woken trivial
      · contradiction
  | resume index =>
      simp only [World.step] at h
      split at h
      · cases h
        exact .woken trivial
      · contradiction
  | abandon index =>
      simp only [World.step] at h
      split at h
      · cases h
        exact .woken trivial
      · contradiction

end step

/-! ## runs -/

section run

variable {provider : Except AuthError Unit} {w w' : World T}

/-- No step changes the provider. -/
theorem Move.slot_eq {o : Outcome T} (h : Move w w' o) :
    w'.slot.provider = w.slot.provider ∧ w'.slot.initError = w.slot.initError := by
  cases h <;> exact ⟨rfl, rfl⟩

/-- A slot keeps the provider it was made with. -/
theorem World.MadeWith.move (hmade : w.MadeWith provider) {o : Outcome T} (h : Move w w' o) :
    w'.MadeWith provider := by
  obtain ⟨hprovider, hinitError⟩ := h.slot_eq
  refine ⟨?_, ?_⟩
  · rw [← hmade.providerRef, CredentialSlot.providerRef, CredentialSlot.providerRef, hprovider,
      hinitError]
  · rw [hinitError]
    exact hmade.initError

/-- A new slot has its provider. -/
theorem madeWith_start (provider : Except AuthError Unit) :
    (World.start provider : World T).MadeWith provider := by
  cases provider with
  | ok _ => exact ⟨rfl, by simp [World.start, CredentialSlot.newResult]⟩
  | error error => exact ⟨rfl, by simp [World.start, CredentialSlot.newResult]⟩

/-- A new slot is a cell that holds nothing. -/
theorem cell_start (provider : Except AuthError Unit) :
    (World.start provider : World T).cell = ⟨.nothing, none⟩ := by
  cases provider <;> rfl

variable [CredentialMaterial T] {labels : List (Label T)} {history : List (Outcome T)}

/-- A run of the slot is a path of the cell. -/
theorem path_of_world (hf : Flight w) (hmade : w.MadeWith provider)
    (hrun : exec World.step w labels = some (w', history)) :
    Path (CellStep provider) w.cell labels history w'.cell :=
  path_of_exec (I := fun w => Flight w ∧ w.MadeWith provider)
    (fun h hstep => ⟨h.1.move (World.step_move hstep), h.2.move (World.step_move hstep)⟩)
    (fun h hstep => cellStep h.1 h.2 hstep) hrun ⟨hf, hmade⟩

/-- A slot has the provider it was made with in every run. -/
theorem madeWith_of_exec
    (hrun : exec World.step (World.start provider) labels = some (w, history)) :
    w.MadeWith provider :=
  exec_invariant (I := fun w => w.MadeWith provider)
    (fun h hstep => h.move (World.step_move hstep)) hrun (madeWith_start provider)

/-- **The slot refines the cell**: whatever callers, providers, cancellations and
manual changes do and in whatever order, each answer of the slot is one of the
cell, and the provider is asked only when the cell is due. -/
theorem slot_refines_cell
    (hrun : exec World.step (World.start provider) labels = some (w, history)) :
    Path (CellStep provider) ⟨.nothing, none⟩ labels history w.cell := by
  have hpath := path_of_world (flight_start provider) (madeWith_start provider) hrun
  rwa [cell_start] at hpath

/-- A cancelled attempt between a credential that is set and one that is handed out. -/
theorem slot_refines_cell_cancelled :
    ∃ w : World AccessToken, Path (CellStep (.ok ())) ⟨.nothing, none⟩
      [.getOrRefresh .default 0 0, .getOrRefresh .default 1 1, .dropGuard 1,
        .setManual ⟨"token", none⟩, .getOrRefresh .default 2 2]
      [.done, .done, .done, .done, .leased ⟨⟨0, ⟨"token", none⟩⟩, 2⟩] w.cell :=
  ⟨_, slot_refines_cell rfl⟩

/-- **What serves is kept**: once a fetch has ended, every caller that is served
by what it left hears just that, and the provider is not asked again, whatever
late answers, cancelled callers and invalidations of other credentials come in
between.  A failure is waited out so, and a credential is used until it has to be
refreshed. -/
theorem held_until_due {more : List (Label T)} {answers : List (Outcome T)}
    (hrun : exec World.step (World.start (.ok ())) labels = some (w, history))
    (hidle : w.state.owner? = none) (hmore : exec World.step w more = some (w', answers))
    (hspares : ∀ label ∈ more, label.Spares w.state.holding) :
    w'.state.holding = w.state.holding ∧ w'.state.owner? = none ∧
      ∀ answered ∈ more.zip answers, w.state.holding.Answers answered.1 answered.2 := by
  have hf := flight_of_exec hrun
  have hpath := path_of_world hf (madeWith_of_exec hrun) hmore
  have hkept := hpath.keeps (I := fun cell => cell = w.cell)
    (P := fun label => label.Spares w.state.holding) (Q := w.state.holding.Answers)
    (by
      rintro cell label o cell' hlabel rfl hstep
      exact hstep.spared hlabel (fetch_of_idle hidle)) hspares rfl
  obtain ⟨hcell, hanswers⟩ := hkept
  refine ⟨congrArg Cell.holding hcell, ?_, hanswers⟩
  cases howner : w'.state.owner? with
  | none => rfl
  | some owner =>
      have hf' := exec_invariant (I := Flight)
        (fun h hstep => h.move (World.step_move hstep)) hmore hf
      obtain ⟨a, _, _, hfetch⟩ := fetch_of_owner hf' howner
      rw [hcell, fetch_of_idle hidle] at hfetch
      contradiction

/-- A provider that asks for ten more nanoseconds. -/
def busyProvider : AuthError := (AuthError.new .acquireFailed "busy").withRetryAfter 10

/-- A failure is handed out until it is due, and gone after it is invalidated. -/
theorem held_until_due_failure :
    ∃ w w' : World AccessToken,
      exec World.step (World.start (.ok ()))
        [.getOrRefresh .default 0 0, .commitCheck 1 (.error busyProvider), .commitStore 1 5] =
          some (w, [.done, .done, .failed busyProvider]) ∧
      exec World.step w [.getOrRefresh .default 14 14, .invalidateGeneration none] =
          some (w', [.failed busyProvider, .done]) ∧
      w'.state.holding = w.state.holding ∧ w'.state.owner? = none := by
  have hrun : exec World.step (World.start (.ok ()))
      [.getOrRefresh .default 0 0, .commitCheck 1 (.error busyProvider), .commitStore 1 5] =
      some ((⟨⟨true, none, .failed 1 busyProvider (some 15), 2⟩,
        [⟨⟨1, true⟩, 1, .returning⟩], [], [], 1, 1⟩ : World AccessToken),
        [.done, .done, .failed busyProvider]) := rfl
  obtain ⟨w', hmore⟩ : ∃ w', exec World.step
      (⟨⟨true, none, .failed 1 busyProvider (some 15), 2⟩,
        [⟨⟨1, true⟩, 1, .returning⟩], [], [], 1, 1⟩ : World AccessToken)
      [.getOrRefresh .default 14 14, .invalidateGeneration none] =
      some (w', [.failed busyProvider, .done]) := ⟨_, rfl⟩
  have hkept := held_until_due hrun rfl hmore (by
    intro label hmem
    rcases List.mem_pair.mp hmem with rfl | rfl
    · exact ⟨.failed busyProvider, rfl, by decide⟩
    · rintro lease ⟨⟩)
  exact ⟨_, w', hrun, hmore, hkept.1, hkept.2.1⟩

end run

end Concord
